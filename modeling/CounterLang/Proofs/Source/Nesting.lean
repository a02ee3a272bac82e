import CounterLang.Proofs.Statement.Wording
import CounterLang.Source

/-!
# Nesting — how many loops are open at a position

Positions of statements count from zero, so that the statement at a position stands on the line after it.
The depth of a position is the number of loop heads in front of it less the number of ends in front of it.
As long as no end stands outside of any loop, this is the number of open loops.

- `opensLoop`, `closesLoop`  : loop heads and ends, told from their texts
- `Source.depth`             : heads less ends among the statements in front of a position
- `Source.strayEnd?`         : the position of the first end outside of any loop
- `Source.scope`             : the number of statements in front of it
- `depth_succ`               : how a single statement changes the depth
-/

namespace CounterLang

/-! ## Heads and ends -/

/-- A loop head is known by its first word. -/
def opensLoop (text : String) : Bool :=
  (Text.pieces ' ' text).head? == some "while"

def closesLoop (text : String) : Bool :=
  text == "end"

namespace Statement

/-- What a statement adds to the depth. -/
def rise : Statement → Int
  | operation _ => 0
  | opening _ => 1
  | closing => -1

theorem Denotes.opensLoop_eq {text : String} {statement : Statement} (h : Denotes text statement) :
    opensLoop text = decide (statement.rise = 1) := by
  -- the first word tells the head of a loop from the four other forms
  have inWords := h.inWords
  unfold opensLoop
  generalize Text.pieces ' ' text = words at inWords
  cases inWords with
  | clear isName => simp [rise]
  | increment isName => simp [rise]
  | decrement isName => simp [rise]
  | opening isName isNumber => simp [rise]
  | closing => simp [rise]

theorem Denotes.closesLoop_eq {text : String} {statement : Statement} (h : Denotes text statement) :
    closesLoop text = decide (statement.rise = -1) := by
  unfold closesLoop
  by_cases isEnd : text = "end"
  · subst isEnd
    have same : statement = .closing := h.unique .closing
    simp [same, rise]
  · cases statement with
    | operation op => simp [isEnd, rise]
    | opening condition => simp [isEnd, rise]
    | closing => exact absurd (denotes_closing_iff.1 h) isEnd

end Statement

theorem not_opensLoop_empty : opensLoop "" = false := by
  decide

theorem not_closesLoop_empty : closesLoop "" = false := by
  decide

namespace Source

/-! ## Depth -/

/-- The number of loop heads less the number of ends among the statements in front of a position. -/
def depth (statements : List String) (position : Nat) : Int :=
  ((statements.take position).countP opensLoop : Int) - (statements.take position).countP closesLoop

/-- The position of the first end that stands outside of any loop. -/
def strayEnd? (statements : List String) : Option Nat :=
  (List.range statements.length).find? fun position => depth statements (position + 1) < 0

/-- The number of statements that can count: those in front of the first stray end, or all. -/
def scope (statements : List String) : Nat :=
  (strayEnd? statements).getD statements.length

@[simp] theorem depth_zero (statements : List String) : depth statements 0 = 0 := by
  simp [depth]

theorem depth_succ_eq {statements : List String} {position : Nat} {text : String}
    (h : statements[position]? = some text) :
    depth statements (position + 1) = depth statements position +
      ((if opensLoop text then 1 else 0) - (if closesLoop text then 1 else 0)) := by
  simp only [depth, List.take_add_one, h, Option.toList_some, List.countP_append, List.countP_singleton]
  split <;> split <;> omega

/-- A statement changes the depth by its own rise. -/
theorem depth_succ {statements : List String} {position : Nat} {text : String} {statement : Statement}
    (h : statements[position]? = some text) (denotes : Statement.Denotes text statement) :
    depth statements (position + 1) = depth statements position + statement.rise := by
  -- a head counts on one side, an end on the other, and an operation on neither
  rw [depth_succ_eq h, denotes.opensLoop_eq, denotes.closesLoop_eq]
  cases statement <;> simp [Statement.rise]

theorem depth_succ_blank {statements : List String} {position : Nat}
    (h : statements[position]? = some "") :
    depth statements (position + 1) = depth statements position := by
  rw [depth_succ_eq h]
  simp [not_opensLoop_empty, not_closesLoop_empty]

/-- The first position behind which fewer ends than heads would be needed is found. -/
theorem strayEnd?_eq_some {statements : List String} {position : Nat} (inside : position < statements.length)
    (below : depth statements (position + 1) < 0)
    (above : ∀ earlier ≤ position, 0 ≤ depth statements earlier) :
    strayEnd? statements = some position := by
  -- the search asks for the depth behind a position, which is the depth in front of the next one
  refine List.find?_range_eq_some.2 ⟨by simpa using below, by simpa using inside, ?_⟩
  intro earlier before
  simpa using above (earlier + 1) before

theorem strayEnd?_eq_none {statements : List String}
    (above : ∀ earlier ≤ statements.length, 0 ≤ depth statements earlier) : strayEnd? statements = none := by
  refine List.find?_eq_none.2 ?_
  intro position mem
  have inside : position < statements.length := by simpa using mem
  simpa using above (position + 1) inside

theorem depth_of_length_le {statements : List String} {position : Nat} (h : statements.length ≤ position) :
    depth statements position = depth statements statements.length := by
  simp [depth, List.take_of_length_le h]

end Source
end CounterLang
