import CounterLang.Run.Log

/-!
# Interpreter — running a tree by going down into it

A tree can also be run by a function that calls itself for each child of a loop, as often as the loop goes round.
Three things happen on the way that have to be kept apart: a step changes the store or the trigger of a loop, it is
reported to the log, and then the observer is told of it, if there is one.  An observer may give up; then the
interpreter comes back at once from all loops that it is in, and whatever it has done remains done.

- `Sighting`, `Observer`     : what an observer is told, and what it makes of that
- `Observer.recorder`        : an observer that notes so many sightings, and gives up at the next one
- `Interpreter`              : a store, the notes of the observer, and the log
- `Interpreter.visit?`       : what the interpreter does at a node, with a bound on its calls
- `Interpreter.ComesTo`      : what it comes to, under every bound that is large enough
- `Interpreter.run?`         : a whole run, which is reported to have finished if it has
- `Interpreter.RunsTo`       : what a whole run comes to
-/

namespace CounterLang

/-! ## Observers -/

/-- What an observer is told of: a line, whether the loop on it goes round, and the store at this time. -/
structure Sighting where
  line : Nat
  looping : Bool
  store : Store
  deriving DecidableEq

/-- What an observer makes of a sighting, given its notes so far.  It has new notes, and it may give up, which counts
as an error. -/
abbrev Observer (σ : Type) := σ → Sighting → Except σ σ

namespace Observer

/-- Tells an observer of a sighting, if there is an observer that has notes. -/
def tell {σ : Type} (observer : Observer σ) (sighting : Sighting) : Option σ → Except (Option σ) (Option σ)
  | none => .ok none
  | some notes =>
    match observer notes sighting with
    | .ok notes => .ok (some notes)
    | .error notes => .error (some notes)

/-- Notes all sightings. -/
def recordAll : Observer (List Sighting) := fun noted sighting =>
  .ok (noted ++ [sighting])

/-- Notes so many sightings, and gives up when there is one more. -/
def recorder (limit : Nat) : Observer (List Sighting) := fun noted sighting =>
  if noted.length < limit then .ok (noted ++ [sighting]) else .error noted

end Observer

/-! ## Interpreters -/

structure Interpreter (σ : Type) where
  store : Store
  /-- The notes of the observer; without an observer there are none. -/
  notes : Option σ
  /-- What has been reported so far, in order. -/
  log : List Run.Notice

namespace Interpreter

variable {σ : Type}

/-- An interpreter whose observer has noted nothing yet. -/
def watched (store : Store) : Interpreter (List Sighting) :=
  ⟨store, some [], []⟩

/-- An interpreter that nobody observes. -/
def unwatched (store : Store) : Interpreter σ :=
  ⟨store, none, []⟩

def report (interpreter : Interpreter σ) (notice : Run.Notice) : Interpreter σ :=
  { interpreter with log := interpreter.log ++ [notice] }

/-- Tells the observer of the store as it is now; if the observer gives up, this is an error. -/
def notify (observer : Observer σ) (line : Nat) (looping : Bool) (interpreter : Interpreter σ) :
    Except (Interpreter σ) (Interpreter σ) :=
  match observer.tell ⟨line, looping, interpreter.store⟩ interpreter.notes with
  | .ok notes => .ok { interpreter with notes }
  | .error notes => .error { interpreter with notes }

/-- Tests a condition: the answer, and the condition that is left. -/
def test (interpreter : Interpreter σ) (condition : Condition) : Except RuntimeError Bool × Condition :=
  (condition.holds interpreter.store, condition.tested)

/-- What is left when the interpreter comes back from a part of a tree. -/
structure Return (σ α : Type) where
  interpreter : Interpreter σ
  /-- The part of the tree, with the triggers that have fired in it. -/
  tree : α
  /-- How the interpreter comes back: it is stopped when the observer has given up. -/
  outcome : Outcome

namespace Return

/-- Comes back from some part of a tree after the observer has been told. -/
def ofNotified {α : Type} (tree : α) : Except (Interpreter σ) (Interpreter σ) → Return σ α
  | .ok interpreter => ⟨interpreter, tree, .finished⟩
  | .error interpreter => ⟨interpreter, tree, .stopped⟩

/-- What the observer has noted. -/
def noted {α : Type} (back : Return (List Sighting) α) : List Sighting :=
  back.interpreter.notes.getD []

end Return

/-- Visits some nodes in order, up to the first one that the interpreter does not finish. -/
def visitAll? (visit? : Interpreter σ → Node → Option (Return σ Node)) (interpreter : Interpreter σ) :
    List Node → Option (Return σ (List Node))
  | [] => some ⟨interpreter, [], .finished⟩
  | node :: rest =>
    match visit? interpreter node with
    | none => none
    | some ⟨interpreter, node, .finished⟩ =>
      (visitAll? visit? interpreter rest).map fun back => { back with tree := node :: back.tree }
    | some ⟨interpreter, node, outcome⟩ => some ⟨interpreter, node :: rest, outcome⟩

/-- Visits a node.  There is no result if the bound is too small. -/
def visit? (observer : Observer σ) : Nat → Interpreter σ → Node → Option (Return σ Node)
  | 0, _, _ => none
  | _ + 1, interpreter, .operation line op =>
    match op.apply interpreter.store with
    | .error error => some ⟨interpreter, .operation line op, .failed error⟩
    | .ok store =>
      let applied := { interpreter with store }.report (.applied line op)
      some (.ofNotified (.operation line op) (applied.notify observer line false))
  | bound + 1, interpreter, .loop line condition children =>
    match interpreter.test condition with
    | (.error error, condition) => some ⟨interpreter, .loop line condition children, .failed error⟩
    | (.ok true, condition) =>
      match (interpreter.report (.looping line)).notify observer line true with
      | .error interpreter => some ⟨interpreter, .loop line condition children, .stopped⟩
      | .ok interpreter =>
        match interpreter.visitAll? (visit? observer bound) children with
        | none => none
        | some ⟨interpreter, children, .finished⟩ =>
          visit? observer bound interpreter (.loop line condition children)
        | some ⟨interpreter, children, outcome⟩ => some ⟨interpreter, .loop line condition children, outcome⟩
    | (.ok false, condition) =>
      some (.ofNotified (.loop line condition children) (interpreter.notify observer line false))

/-- What the interpreter comes to, under every bound that is large enough. -/
def ComesTo (observer : Observer σ) (interpreter : Interpreter σ) (node : Node) (back : Return σ Node) : Prop :=
  ∃ enough, ∀ bound, enough ≤ bound → visit? observer bound interpreter node = some back

/-- Reports that a run has finished, if it has. -/
def Return.conclude {α : Type} (back : Return σ α) : Return σ α :=
  match back.outcome with
  | .finished => { back with interpreter := back.interpreter.report (.finished back.interpreter.store.size) }
  | _ => back

/-- Runs a whole tree from an empty store, given the notes that the observer has already, if there is one. -/
def run? (observer : Observer σ) (bound : Nat) (notes : Option σ) (tree : Node) : Option (Return σ Node) :=
  (visit? observer bound ⟨.empty, notes, []⟩ tree).map Return.conclude

/-- What a whole run comes to, under every bound that is large enough. -/
def RunsTo (observer : Observer σ) (notes : Option σ) (tree : Node) (back : Return σ Node) : Prop :=
  ∃ enough, ∀ bound, enough ≤ bound → run? observer bound notes tree = some back

theorem ComesTo.runsTo {observer : Observer σ} {notes : Option σ} {tree : Node} {back : Return σ Node}
    (h : ComesTo observer ⟨.empty, notes, []⟩ tree back) : RunsTo observer notes tree back.conclude := by
  rcases h with ⟨enough, came⟩
  refine ⟨enough, ?_⟩
  intro bound large
  rw [run?, came bound large, Option.map_some]

end Interpreter

/-- The trigger of the root has fired when the observer gives up, and the operation behind it has been carried out. -/
example :
    (Interpreter.visit? (.recorder 1) 9 (.watched .empty) (.root [.operation 1 (.clear "x")])).map
        (fun back => (back.interpreter.store.toList, back.tree, back.outcome)) =
      some ([("x", 0)], .loop 0 (.once true) [.operation 1 (.clear "x")], .stopped) := rfl

end CounterLang
