import CounterLang.Proofs.Run.Steps
import Mathlib

/-!
# Language — the words that the runs of a tree spell

Without its store, an event is a sign: a line, and whether a loop is entered there.  Which signs may follow each other
is told from the tree alone.  An operation has one sign; a loop goes round any number of times, each time through all
of its children in order, before it is left.  A run that comes to an end spells a word of its tree, and any other run
spells the front part of one.

- `Event.sign`          : an event without its store
- `Node.language`       : the words of a tree
- `Machine.ahead`       : what may still be spelled from a machine on
- `Point.ahead`         : the same for a machine that faces a node, told from this node
- `Point.Moves.spells`  : what may be spelled behind a step may be spelled behind its sign
- `Machine.Path.spells` : the same for a path
- `execute_language`    : the signs of an execution
-/

namespace CounterLang

open Computability

/-! ## Signs and words -/

/-- A line, and whether a loop is entered there. -/
abbrev Sign := Nat × Bool

def Action.sign (action : Action) : Sign :=
  (action.line, action.looping)

def Event.sign (event : Event) : Sign :=
  (event.line, event.looping)

/-- The language of a single word of a single sign. -/
def Sign.alone (sign : Sign) : Language Sign :=
  {[sign]}

/-- The words of a loop, given those of its body. -/
def loopLanguage (line : Nat) (body : Language Sign) : Language Sign :=
  (Sign.alone (line, true) * body)∗ * Sign.alone (line, false)

namespace Node

mutual

/-- The words of a tree. -/
def language : Node → Language Sign
  | operation line _ => Sign.alone (line, false)
  | loop line _ children => loopLanguage line (languages children)

/-- The words of a forest: a word of each tree, in order. -/
def languages : List Node → Language Sign
  | [] => 1
  | node :: nodes => node.language * languages nodes

end

end Node

section
variable {sign : Sign} {word : List Sign} {line : Nat} {body rest : Language Sign} {node : Node}

theorem Sign.mem_alone : word ∈ sign.alone ↔ word = [sign] := Iff.rfl

theorem Sign.cons_mem_mul (h : word ∈ rest) : sign :: word ∈ sign.alone * rest :=
  Language.append_mem_mul (mem_alone.2 rfl) h

theorem languages_append (front back : List Node) :
    Node.languages (front ++ back) = Node.languages front * Node.languages back := by
  induction front with
  | nil => simp [Node.languages]
  | cons node front ih => simp [Node.languages, ih, mul_assoc]

/-! ### The words of a loop -/

/-- A loop may be left at once. -/
theorem left_le_loopLanguage (line : Nat) (body : Language Sign) :
    Sign.alone (line, false) ≤ loopLanguage line body := by
  calc
    Sign.alone (line, false) = 1 * Sign.alone (line, false) := (one_mul _).symm
    _ ≤ loopLanguage line body := mul_le_mul_left one_le_kstar _

/-- A loop may go round once more. -/
theorem round_le_loopLanguage (line : Nat) (body : Language Sign) :
    Sign.alone (line, true) * (body * loopLanguage line body) ≤ loopLanguage line body := by
  calc
    Sign.alone (line, true) * (body * loopLanguage line body)
      = Sign.alone (line, true) * body * (Sign.alone (line, true) * body)∗ * Sign.alone (line, false) := by
        simp only [loopLanguage, mul_assoc]
    _ ≤ loopLanguage line body := mul_le_mul_left mul_kstar_le_kstar _

/-- Each word of a loop ends with its end. -/
theorem ne_nil_of_mem_loopLanguage (h : word ∈ loopLanguage line body) : word ≠ [] := by
  rcases Language.mem_mul.1 h with ⟨rounds, _, last, isLast, rfl⟩
  obtain rfl := Sign.mem_alone.1 isLast
  simp

/-- Each node has its sign in any case. -/
theorem Node.ne_nil_of_mem_language (h : word ∈ node.language) : word ≠ [] := by
  cases node with
  | operation line op =>
      obtain rfl := Sign.mem_alone.1 h
      simp
  | loop line condition children => exact ne_nil_of_mem_loopLanguage h

/-- No language is empty: operations are carried out, and loops are left. -/
theorem exists_mem_languages (nodes : List Node) : ∃ word, word ∈ Node.languages nodes := by
  induction nodes with
  | nil => exact ⟨[], Language.nil_mem_one⟩
  | cons node nodes ih =>
      obtain ⟨later, mem⟩ := ih
      cases node with
      | operation line op => exact ⟨_, Sign.cons_mem_mul mem⟩
      | loop line condition children =>
          exact ⟨_, Language.append_mem_mul (left_le_loopLanguage line _ (Sign.mem_alone.2 rfl)) mem⟩

end

/-! ## What lies ahead -/

/-- What may be spelled from somewhere in a body on: the rest of the body, and then, loop by loop, more rounds of the
loop around it, the end of that loop, and the rest of the body that this loop is part of. -/
def ahead (whole rest : Language Sign) : List Frame → Language Sign
  | [] => rest
  | frame :: frames =>
    let loop := loopLanguage frame.line whole
    let behind := Node.languages frame.after
    rest * ahead (Node.languages frame.before.reverse * (loop * behind)) (loop * behind) frames

def Machine.ahead (machine : Machine) : Language Sign :=
  CounterLang.ahead (Node.languages (machine.before.reverse ++ machine.after)) (Node.languages machine.after)
    machine.frames

/-- What may be spelled behind the node of a point. -/
def Point.behind (point : Point) : Language Sign :=
  CounterLang.ahead (Node.languages (point.before.reverse ++ point.node :: point.after)) (Node.languages point.after)
    point.frames

/-- What may be spelled from a point on, its own node included. -/
def Point.ahead (point : Point) : Language Sign :=
  point.node.language * point.behind

section
variable {whole rest front : Language Sign} {frames : List Frame} {machine next last : Machine} {point : Point}
  {action : Action} {store : Store} {word : List Sign} {events : List Event}

/-- What is spelled first does not depend on the surroundings. -/
theorem ahead_mul (whole front rest : Language Sign) (frames : List Frame) :
    ahead whole (front * rest) frames = front * ahead whole rest frames := by
  cases frames with
  | nil => rfl
  | cons frame frames => simp only [ahead, mul_assoc]

theorem exists_mem_ahead (h : ∃ word, word ∈ rest) : ∃ word, word ∈ ahead whole rest frames := by
  induction frames generalizing whole rest with
  | nil => exact h
  | cons frame frames ih =>
      obtain ⟨word, mem⟩ := h
      obtain ⟨later, memLater⟩ := exists_mem_languages frame.after
      have left := left_le_loopLanguage frame.line whole (Sign.mem_alone.2 rfl)
      obtain ⟨more, memMore⟩ := ih ⟨_, Language.append_mem_mul left memLater⟩
      exact ⟨_, Language.append_mem_mul mem memMore⟩

namespace Machine

/-- A run never comes to a point from which there is no way to spell a word to its end. -/
theorem exists_mem_ahead (machine : Machine) : ∃ word, word ∈ machine.ahead :=
  CounterLang.exists_mem_ahead (exists_mem_languages machine.after)

/-- At the end of a body, the loop around it is what lies ahead. -/
theorem ahead_eq_of_point? (faced : machine.point? = some point) : machine.ahead = point.ahead := by
  rcases machine with ⟨store, before, after, frames⟩
  cases after with
  | cons node rest =>
      obtain rfl := Option.some.inj faced
      exact ahead_mul _ node.language (Node.languages rest) frames
  | nil =>
      cases frames with
      | nil => cases faced
      | cons frame frames =>
          obtain rfl := Option.some.inj faced
          simp [ahead, Point.ahead, Point.behind, CounterLang.ahead, Frame.fill, languages_append, Node.languages,
            Node.language, ahead_mul]

theorem ahead_of_finished (h : machine.step = .finished) : machine.ahead = 1 := by
  rcases machine with ⟨store, before, after, frames⟩
  obtain ⟨rfl, rfl⟩ : after = [] ∧ frames = [] := eq_nil_of_finished h
  rfl

end Machine

/-- At a point there is at least the sign of its node ahead. -/
theorem Point.ne_nil_of_mem_ahead (h : word ∈ point.ahead) : word ≠ [] := by
  rcases Language.mem_mul.1 h with ⟨front, mem, back, _, rfl⟩
  have nonempty := Node.ne_nil_of_mem_language mem
  simp [nonempty]

/-! ## Steps and paths -/

/-- Behind a node that has been carried out, or a loop that has been left, lies what may be spelled behind it; a test
that has fired a trigger on the way makes no difference. -/
theorem Point.Moves.ahead_of_not_looping (h : point.Moves store action next) (out : action.looping = false) :
    next.ahead = point.behind := by
  cases h with
  | applied _ => simp only [Machine.ahead, behind, List.reverse_cons, List.append_assoc, List.singleton_append]
  | entered _ => cases out
  | left _ =>
      simp only [Machine.ahead, behind, List.reverse_cons, List.append_assoc, List.singleton_append, languages_append,
        Node.languages, Node.language]

/-- Behind the head of a loop lies its body, and then the loop once more. -/
theorem ahead_body (store : Store) (before after children : List Node) (frames : List Frame) (line : Nat)
    (condition : Condition) :
    Machine.ahead ⟨store, [], children, ⟨before, line, condition.tested, after⟩ :: frames⟩ =
      Node.languages children * Point.ahead ⟨before, .loop line condition children, after, frames⟩ := by
  simp only [Machine.ahead, Point.ahead, Point.behind, CounterLang.ahead, List.reverse_nil, List.nil_append, ahead_mul,
    languages_append, Node.languages, Node.language]

/-- The sign of a step, and whatever may be spelled behind the step, may be spelled in front of it. -/
theorem Point.Moves.alone_mul_le (h : point.Moves store action next) : action.sign.alone * next.ahead ≤ point.ahead := by
  cases h with
  | applied result =>
      rw [(Moves.applied result).ahead_of_not_looping rfl]
      exact le_refl _
  | @entered before after children frames line condition _ =>
      let loop := loopLanguage line (Node.languages children)
      let behind := Point.behind ⟨before, .loop line condition children, after, frames⟩
      calc
        Sign.alone (line, true) *
            Machine.ahead ⟨store, [], children, ⟨before, line, condition.tested, after⟩ :: frames⟩
          = Sign.alone (line, true) * (Node.languages children * loop) * behind := by
            rw [ahead_body]
            simp only [loop, behind, Point.ahead, Node.language, mul_assoc]
        _ ≤ loop * behind := mul_le_mul_left (round_le_loopLanguage line _) _
  | left result =>
      rw [(Moves.left result).ahead_of_not_looping rfl]
      exact mul_le_mul_left (left_le_loopLanguage _ _) _

theorem Point.Moves.spells (h : point.Moves store action next) (mem : word ∈ next.ahead) :
    action.sign :: word ∈ point.ahead :=
  h.alone_mul_le (Sign.cons_mem_mul mem)

/-- The signs of a path, and whatever may be spelled behind it, may be spelled in front of it. -/
theorem Machine.Path.spells (h : Path machine events last) (mem : word ∈ last.ahead) :
    events.map Event.sign ++ word ∈ machine.ahead := by
  induction h with
  | refl => exact mem
  | step step _ ih =>
      rcases step_eq_next_iff.1 step with ⟨point, faced, moves⟩
      rw [ahead_eq_of_point? faced]
      exact moves.spells (ih mem)

end

/-! ## Executions -/

theorem Machine.ahead_start (store : Store) (tree : Node) : (start store tree).ahead = tree.language := by
  simp [ahead, start, CounterLang.ahead, Node.languages]

/-- The signs of an execution that comes to its end form a word of its tree.  Those of an execution that fails, or that
is stopped at some event, are the front part of such a word, and never all of it. -/
theorem execute_language (limit : Nat) (store : Store) (tree : Node) :
    ((execute limit store tree).outcome = .finished →
        (execute limit store tree).events.map Event.sign ∈ tree.language) ∧
      ((execute limit store tree).outcome ≠ .finished →
        ∃ rest ≠ [], (execute limit store tree).events.map Event.sign ++ rest ∈ tree.language) := by
  rcases run : execute limit store tree with ⟨events, outcome, final⟩
  rcases Machine.run_eq_iff.1 run with ⟨last, left, path, _, ends⟩
  obtain ⟨word, mem⟩ := last.exists_mem_ahead
  have spelled := path.spells mem
  rw [Machine.ahead_start] at spelled
  constructor
  · rintro rfl
    cases ends with
    | finished step =>
        rw [Machine.ahead_of_finished step] at mem
        obtain rfl := (Language.mem_one word).1 mem
        simpa using spelled
  · intro unfinished
    refine ⟨word, ?_, spelled⟩
    -- a machine that is not finished faces a node, and the sign of this node is missing
    obtain ⟨point, faced⟩ := ends.exists_point? unfinished
    rw [Machine.ahead_eq_of_point? faced] at mem
    exact Point.ne_nil_of_mem_ahead mem

/-- A loop that goes round twice with a trigger inside that has fired before, as a whole and stopped at some event; and
a body that fails. -/
theorem execute_language_rounds :
    let looping := Node.root [.operation 1 (.clear "x"), .loop 2 (.compare .lessThan (.var "x") (.literal 2))
      [.operation 3 (.increment "x"), .loop 4 (.once true) [.operation 5 (.clear "y")]]]
    let failing := Node.root [.operation 1 (.clear "x"), .operation 2 (.decrement "y"), .operation 3 (.clear "y")]
    [(0, true), (1, false), (2, true), (3, false), (4, false), (2, true), (3, false), (4, false), (2, false),
        (0, false)] ∈ looping.language ∧
      (∃ rest ≠ [], [(0, true), (1, false), (2, true), (3, false)] ++ rest ∈ looping.language) ∧
        (execute 9 .empty failing).outcome = .failed (.undefinedVariable "y") ∧
          ∃ rest ≠ [], [(0, true), (1, false)] ++ rest ∈ failing.language := by
  intro looping failing
  refine ⟨?_, ?_, rfl, ?_⟩
  · exact (execute_language 20 .empty looping).1 rfl
  · exact (execute_language 4 .empty looping).2 (by decide)
  · exact (execute_language 9 .empty failing).2 (by decide)

end CounterLang
