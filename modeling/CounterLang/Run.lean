import CounterLang.Machine

/-!
# Run — what happens when a machine is left to itself

A run records an event for each step, together with the store after it, up to a given number of events.
When one more event would be due the run is stopped; what that step has done to the machine remains done.

- `Event`          : an action, and the store after it
- `Outcome`        : how a run ends
- `Run`            : the events, the outcome, and the machine that is left
- `Machine.run`    : the run of a machine that may record so many events
- `run_induction`  : a run ends at once, or it is one step and a shorter run
- `execute`        : the run of a tree from a store
-/

namespace CounterLang

structure Event where
  action : Action
  store : Store
  deriving DecidableEq

namespace Event

def line (event : Event) : Nat :=
  event.action.line

def looping (event : Event) : Bool :=
  event.action.looping

end Event

inductive Outcome
  | finished
  | failed (error : RuntimeError)
  | stopped
  deriving DecidableEq, Repr

structure Run where
  events : List Event
  outcome : Outcome
  /-- The machine after its last step; a step that fails leaves it as it was. -/
  machine : Machine

namespace Run

def store (run : Run) : Store :=
  run.machine.store

def tree (run : Run) : Node :=
  run.machine.tree

/-- The run with an event put in front. -/
def cons (event : Event) (run : Run) : Run :=
  { run with events := event :: run.events }

end Run

namespace Machine

/-- Runs a machine that may record `limit` more events, behind those recorded so far, latest first. -/
def runFrom (recorded : List Event) (machine : Machine) : Nat → Run
  | 0 =>
    match machine.step with
    | .finished => ⟨recorded.reverse, .finished, machine⟩
    | .failed error => ⟨recorded.reverse, .failed error, machine⟩
    | .next _ machine => ⟨recorded.reverse, .stopped, machine⟩
  | limit + 1 =>
    match machine.step with
    | .finished => ⟨recorded.reverse, .finished, machine⟩
    | .failed error => ⟨recorded.reverse, .failed error, machine⟩
    | .next action machine => machine.runFrom (⟨action, machine.store⟩ :: recorded) limit

/-- The run of a machine that may record at most `limit` events. -/
def run (limit : Nat) (machine : Machine) : Run :=
  machine.runFrom [] limit

/-! ## Runs step by step -/

theorem runFrom_eq (recorded : List Event) (machine : Machine) (limit : Nat) :
    machine.runFrom recorded limit =
      { machine.run limit with events := recorded.reverse ++ (machine.run limit).events } := by
  induction limit generalizing recorded machine with
  | zero =>
    rw [run, runFrom, runFrom]
    cases machine.step <;> simp
  | succ limit ih =>
    rw [run, runFrom, runFrom]
    cases h : machine.step with
    | finished => simp
    | failed error => simp
    | next action machine =>
      simp only
      rw [ih (⟨action, machine.store⟩ :: recorded), ih [⟨action, machine.store⟩]]
      simp

theorem run_of_finished {machine : Machine} (h : machine.step = .finished) (limit : Nat) :
    machine.run limit = ⟨[], .finished, machine⟩ := by
  cases limit <;> simp [run, runFrom, h]

theorem run_of_failed {machine : Machine} {error : RuntimeError} (h : machine.step = .failed error)
    (limit : Nat) : machine.run limit = ⟨[], .failed error, machine⟩ := by
  cases limit <;> simp [run, runFrom, h]

theorem run_zero_of_next {machine after : Machine} {action : Action}
    (h : machine.step = .next action after) : machine.run 0 = ⟨[], .stopped, after⟩ := by
  simp [run, runFrom, h]

theorem run_succ_of_next {machine after : Machine} {action : Action}
    (h : machine.step = .next action after) (limit : Nat) :
    machine.run (limit + 1) = (after.run limit).cons ⟨action, after.store⟩ := by
  simp [run, runFrom, h, runFrom_eq [⟨action, after.store⟩], Run.cons]

/-- A run ends at once, since the machine is finished, since its next step fails or since the event of that step may not
be recorded; or it is one step and a run that may record one event less. -/
@[elab_as_elim]
theorem run_induction {motive : Nat → Machine → Prop}
    (finished : ∀ {limit machine}, machine.step = .finished → motive limit machine)
    (failed : ∀ {limit machine error}, machine.step = .failed error → motive limit machine)
    (stopped : ∀ {machine action next}, machine.step = .next action next → motive 0 machine)
    (step : ∀ {limit machine action next}, machine.step = .next action next → motive limit next →
      motive (limit + 1) machine)
    (limit : Nat) (machine : Machine) : motive limit machine := by
  induction limit generalizing machine with
  | zero =>
      cases here : machine.step with
      | finished => exact finished here
      | failed error => exact failed here
      | next action next => exact stopped here
  | succ limit ih =>
      cases here : machine.step with
      | finished => exact finished here
      | failed error => exact failed here
      | next action next => exact step here (ih next)

end Machine

/-- The run of a tree from a store that may record at most `limit` events. -/
def execute (limit : Nat) (store : Store) (node : Node) : Run :=
  (Machine.start store node).run limit

end CounterLang
