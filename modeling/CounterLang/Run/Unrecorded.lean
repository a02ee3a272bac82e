import CounterLang.Run

/-!
# Unrecorded — running a machine for its result alone

When nobody watches, a run is nothing but its end: no event is recorded, and no limit on events applies.
The number of steps still has to be bounded for the sake of a total function; a machine that does not end
within the bound has no result yet.

- `End`                : how a machine ends, and the machine that is left
- `Machine.finish?`    : the end that a machine reaches within so many steps
- `finish?`            : the end that a tree reaches from a store
-/

namespace CounterLang

/-- The end of a machine: the error that stopped it, if there was one, and the machine that is left. -/
structure End where
  result : Except RuntimeError Unit
  machine : Machine
  deriving Inhabited

namespace End

def store (ended : End) : Store :=
  ended.machine.store

def tree (ended : End) : Node :=
  ended.machine.tree

end End

namespace Machine

/-- The end that a machine reaches within `bound` steps. -/
def finish? : Nat → Machine → Option End
  | 0, machine =>
    match machine.step with
    | .finished => some ⟨.ok (), machine⟩
    | .failed error => some ⟨.error error, machine⟩
    | .next _ _ => none
  | bound + 1, machine =>
    match machine.step with
    | .finished => some ⟨.ok (), machine⟩
    | .failed error => some ⟨.error error, machine⟩
    | .next _ machine => finish? bound machine

end Machine

/-- The end that a tree reaches from a store within `bound` steps. -/
def finish? (bound : Nat) (store : Store) (node : Node) : Option End :=
  (Machine.start store node).finish? bound

end CounterLang
