import CounterLang.Node
import CounterLang.Proofs.Source.Nesting

/-!
# Spans — forests and the statements that spell them out

A forest spans the statements between two positions if these statements, read in order, describe just its
nodes: an operation is a leaf, a loop head opens a loop whose children extend to the end that belongs to it,
and empty statements describe nothing.  The relation says nothing of how the forest is found.

- `Spans`              : the forest between two positions
- `Spans.append`       : spans that adjoin each other
- `Spans.congr`        : a span depends on its own statements only
- `Spans.depth_stop`   : behind a span as many loops are open as in front of it
- `Spans.depth_le`     : inside of a span at least as many loops are open as in front of it
- `Spans.part`         : every statement inside of a span has its place in the forest
- `Part.closed`        : a loop that is opened inside of a span is closed there
-/

namespace CounterLang

open Statement (Denotes)
open Source

/-- The statements from one position up to, but without, another describe the nodes of a forest. -/
inductive Spans (statements : List String) : Nat → List Node → Nat → Prop where
  | nil {position : Nat} :
      Spans statements position [] position
  | blank {start stop : Nat} {nodes : List Node} :
      statements[start]? = some "" → Spans statements (start + 1) nodes stop →
        Spans statements start nodes stop
  | operation {start stop : Nat} {nodes : List Node} {text : String} {op : Operation} :
      statements[start]? = some text → Denotes text (.operation op) →
        Spans statements (start + 1) nodes stop →
          Spans statements start (.operation (start + 1) op :: nodes) stop
  | loop {start close stop : Nat} {children nodes : List Node} {text : String} {condition : Condition} :
      statements[start]? = some text → Denotes text (.opening condition) →
        Spans statements (start + 1) children close → statements[close]? = some "end" →
          Spans statements (close + 1) nodes stop →
            Spans statements start (.loop (start + 1) condition children :: nodes) stop

namespace Spans

variable {statements others : List String} {start middle stop position : Nat} {nodes front back : List Node}

/-! ## Extent -/

theorem le (h : Spans statements start nodes stop) : start ≤ stop := by
  induction h with
  | nil => exact Nat.le_refl _
  | blank _ _ ih => omega
  | operation _ _ _ ih => omega
  | loop _ _ _ _ _ ihChildren ihRest => omega

theorem append (first : Spans statements start front middle) (second : Spans statements middle back stop) :
    Spans statements start (front ++ back) stop := by
  induction first with
  | nil => exact second
  | blank found _ ih => exact .blank found (ih second)
  | operation found denotes _ ih => exact .operation found denotes (ih second)
  | loop found denotes children close _ _ ihRest => exact .loop found denotes children close (ihRest second)

/-- A forest spans the same positions of every program that agrees on them. -/
theorem congr (h : Spans statements start nodes stop)
    (same : ∀ position < stop, others[position]? = statements[position]?) :
    Spans others start nodes stop := by
  induction h with
  | nil => exact .nil
  | @blank start stop nodes found rest ih =>
      have inside : start < stop := rest.le
      exact .blank ((same start inside).trans found) (ih same)
  | @operation start stop nodes text op found denotes rest ih =>
      have inside : start < stop := rest.le
      exact .operation ((same start inside).trans found) denotes (ih same)
  | @loop start close stop children nodes text condition found denotes children close' rest ihChildren ihRest =>
      -- the body ends in front of the end of the loop, so that the programs agree on it as well
      have inner := children.le
      have outer := rest.le
      refine .loop ((same start (by omega)).trans found) denotes (ihChildren ?_)
        ((same close (by omega)).trans close') (ihRest same)
      intro position before
      exact same position (by omega)

/-! ## Depth along a span -/

/-- As many loops are open behind a span as in front of it. -/
theorem depth_stop (h : Spans statements start nodes stop) :
    depth statements stop = depth statements start := by
  induction h with
  | nil => rfl
  | blank found _ ih => rw [ih, depth_succ_blank found]
  | @operation start stop nodes text op found denotes _ ih =>
      have step := depth_succ found denotes
      calc
        depth statements stop = depth statements (start + 1) := ih
        _ = depth statements start := by simpa [Statement.rise] using step
  | @loop start close stop children nodes text condition found denotes _ close' _ ihChildren ihRest =>
      -- the head goes up by one, the body stays level, and the end goes down by one
      have opened := depth_succ found denotes
      have closed := depth_succ close' .closing
      calc
        depth statements stop = depth statements (close + 1) := ihRest
        _ = depth statements close - 1 := closed
        _ = depth statements (start + 1) - 1 := by rw [ihChildren]
        _ = depth statements start := by simp [opened, Statement.rise]

/-- A head, a body and an end together leave the depth as it was. -/
theorem depth_close {head close : Nat} {children : List Node} {text : String} {condition : Condition}
    (found : statements[head]? = some text) (denotes : Denotes text (.opening condition))
    (body : Spans statements (head + 1) children close) (close' : statements[close]? = some "end") :
    depth statements (close + 1) = depth statements head :=
  depth_stop (.loop found denotes body close' .nil)

/-- Nowhere in a span are fewer loops open than in front of it. -/
theorem depth_le (h : Spans statements start nodes stop) (lower : start ≤ position) (upper : position ≤ stop) :
    depth statements start ≤ depth statements position := by
  induction h with
  | nil =>
      have same := Nat.le_antisymm lower upper
      simp [same]
  | @blank start stop nodes found rest ih =>
      have step := depth_succ_blank found
      by_cases first : position = start
      · simp [first]
      · have later := ih (by omega) upper
        omega
  | @operation start stop nodes text op found denotes rest ih =>
      have step := depth_succ found denotes
      simp only [Statement.rise] at step
      by_cases first : position = start
      · simp [first]
      · have later := ih (by omega) upper
        omega
  | @loop start close stop children nodes text condition found denotes children close' rest ihChildren ihRest =>
      have opened := depth_succ found denotes
      have closed := depth_close found denotes children close'
      simp only [Statement.rise] at opened
      by_cases first : position = start
      · simp [first]
      · by_cases inner : position ≤ close
        · -- in the body the depth is even one more
          have later := ihChildren (by omega) inner
          omega
        · have later := ihRest (by omega) upper
          omega

end Spans

/-! ## The statements inside of a span -/

/-- What a statement inside of a span can be; a loop head comes with its body and its end. -/
inductive Part (statements : List String) (position : Nat) : Prop where
  | blank :
      statements[position]? = some "" → Part statements position
  | operation {text : String} {op : Operation} :
      statements[position]? = some text → Denotes text (.operation op) → Part statements position
  | head {text : String} {condition : Condition} {children : List Node} {close : Nat} :
      statements[position]? = some text → Denotes text (.opening condition) →
        Spans statements (position + 1) children close → statements[close]? = some "end" →
          Part statements position
  | close :
      statements[position]? = some "end" → Part statements position

section
variable {statements : List String} {start stop position : Nat} {nodes : List Node}

theorem Spans.part (h : Spans statements start nodes stop) (lower : start ≤ position) (upper : position < stop) :
    Part statements position := by
  induction h with
  | nil => omega
  | @blank start stop nodes found rest ih =>
      by_cases first : position = start
      · subst first
        exact .blank found
      · exact ih (by omega) upper
  | @operation start stop nodes text op found denotes rest ih =>
      by_cases first : position = start
      · subst first
        exact .operation found denotes
      · exact ih (by omega) upper
  | @loop start close stop children nodes text condition found denotes children close' rest ihChildren ihRest =>
      -- a loop takes up its head, its body and its end
      by_cases first : position = start
      · subst first
        exact .head found denotes children close'
      · by_cases inner : position < close
        · exact ihChildren (by omega) inner
        · by_cases last : position = close
          · subst last
            exact .close close'
          · exact ihRest (by omega) upper

namespace Part

/-- Inside of a span every statement is empty or can be read. -/
theorem readable (h : Part statements position) :
    ∃ text, statements[position]? = some text ∧ (text = "" ∨ ∃ statement, Denotes text statement) := by
  cases h with
  | blank found => exact ⟨"", found, .inl rfl⟩
  | operation found denotes => exact ⟨_, found, .inr ⟨_, denotes⟩⟩
  | head found denotes _ _ => exact ⟨_, found, .inr ⟨_, denotes⟩⟩
  | close found => exact ⟨"end", found, .inr ⟨_, .closing⟩⟩

/-- Behind the end of a loop the depth is back at what it is in front of the head. -/
theorem closed {text : String} (h : Part statements position) (found : statements[position]? = some text)
    (opens : opensLoop text = true) :
    ∃ later, position < later ∧ depth statements later ≤ depth statements position := by
  cases h with
  | blank found' =>
      have same : text = "" := by simpa [found'] using found.symm
      exact absurd opens (by simp [same, not_opensLoop_empty])
  | @operation other op found' denotes =>
      have same : text = other := by simpa [found'] using found.symm
      have flat := denotes.opensLoop_eq
      simp [← same, opens, Statement.rise] at flat
  | @head other condition children close found' denotes body close' =>
      -- only here is a loop opened at all
      have extent := body.le
      refine ⟨close + 1, by omega, ?_⟩
      exact Int.le_of_eq (Spans.depth_close found' denotes body close')
  | close found' =>
      have same : text = "end" := by simpa [found'] using found.symm
      have flat := Denotes.closing.opensLoop_eq
      simp [← same, opens, Statement.rise] at flat

end Part

end
end CounterLang
