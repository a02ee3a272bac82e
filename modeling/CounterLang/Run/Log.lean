import CounterLang.Log
import CounterLang.Run

/-!
# Run log — what a running program reports

A running program reports each time a loop goes round and each operation it has carried out, and at last
that it has finished.  It says nothing about loops that are over, nor about a step that fails.  The interpreter that
goes down into the tree reports the same on its way, before it tells its observer.

- `Run.Notice`          : what is worth reporting
- `Machine.notices`     : the reports of a machine within so many steps
- `notices`             : the reports of a tree that is run from a store
- `Run.Notice.record`   : a report as a record of the log
-/

namespace CounterLang

inductive Run.Notice
  | looping (line : Nat)
  | applied (line : Nat) (operation : Operation)
  | finished (size : Nat)
  deriving DecidableEq, Repr

/-- The report on an action; the end of a loop is not reported. -/
def Action.notice? : Action → Option Run.Notice
  | entered line => some (.looping line)
  | left _ => none
  | applied line operation => some (.applied line operation)

namespace Machine

/-- What a machine reports within `bound` steps. -/
def notices : Nat → Machine → List Run.Notice
  | 0, machine =>
    match machine.step with
    | .finished => [.finished machine.store.size]
    | _ => []
  | bound + 1, machine =>
    match machine.step with
    | .finished => [.finished machine.store.size]
    | .failed _ => []
    | .next action machine => action.notice?.toList ++ notices bound machine

end Machine

/-- What a tree reports within `bound` steps when it is run from a store. -/
def notices (bound : Nat) (store : Store) (node : Node) : List Run.Notice :=
  (Machine.start store node).notices bound

namespace Run

def Notice.record : Notice → Log.Record
  | looping line => ⟨.trace, "condition passed, looping inside", [("line", toString line)]⟩
  | applied line operation =>
    ⟨.trace, "applied",
      [("line", toString line), ("kind", operation.keyword), ("target", operation.target)]⟩
  | finished size => ⟨.debug, "program finished", [("variables", toString size)]⟩

end Run
end CounterLang
