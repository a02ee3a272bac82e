import CounterLang.Proofs.Node.Relabel
import CounterLang.Proofs.Run.Steps

/-!
# Transport — a machine in other surroundings, and on other lines

A machine does the same whatever stands around the forest that it walks through, until it comes to the end of
that forest; and it does the same on any lines, which are nothing but names.

- `Surroundings`              : what stands around a forest
- `Machine.within`            : a machine whose forest is part of a larger one
- `Machine.Path.within`       : its steps are the same steps
- `Machine.run_within`        : its run is the same, and behind its end the larger forest goes on
- `Relabelling.machine`       : a machine in a relabelled forest
- `Relabelling.run_machine`   : its run is the same on other lines
-/

namespace CounterLang

/-! ## Surroundings -/

structure Surroundings where
  /-- The siblings in front, nearest first. -/
  before : List Node
  after : List Node
  /-- The loops around, innermost first. -/
  frames : List Frame

/-- The surroundings of a point whose own surroundings are part of larger ones: the siblings of the outermost
body become more. -/
def Surroundings.around (outer : Surroundings) (before after : List Node) : List Frame → Surroundings
  | [] => ⟨before ++ outer.before, after ++ outer.after, outer.frames⟩
  | frame :: frames =>
    let further := outer.around frame.before frame.after frames
    ⟨before, after, ⟨further.before, frame.line, frame.condition, further.after⟩ :: further.frames⟩

/-- A point of a forest as a point of a larger one. -/
def Point.within (outer : Surroundings) (point : Point) : Point :=
  let whole := outer.around point.before point.after point.frames
  ⟨whole.before, point.node, whole.after, whole.frames⟩

/-- A machine in a forest as a machine in a larger one. -/
def Machine.within (outer : Surroundings) (machine : Machine) : Machine :=
  let whole := outer.around machine.before machine.after machine.frames
  ⟨machine.store, whole.before, whole.after, whole.frames⟩

section
variable {outer : Surroundings} {machine next last : Machine} {point : Point} {action : Action}
  {error : RuntimeError} {events : List Event}

theorem Point.Moves.within {store : Store} (h : point.Moves store action next) :
    (point.within outer).Moves store action (next.within outer) := by
  -- the siblings in front grow at their near end, where the surroundings do not show
  cases h with
  | @applied _ _ frames _ _ _ result => cases frames <;> exact .applied result
  | entered result => exact .entered result
  | @left _ _ _ frames _ _ result => cases frames <;> exact .left result

theorem Point.Fails.within {store : Store} (h : point.Fails store error) :
    (point.within outer).Fails store error := by
  cases h with
  | operation result => exact .operation result
  | loop result => exact .loop result

namespace Machine

theorem point?_within (h : machine.point? = some point) :
    (machine.within outer).point? = some (point.within outer) := by
  rcases machine with ⟨store, before, after, frames⟩
  cases after with
  | cons node rest =>
      obtain rfl := Option.some.inj h
      cases frames <;> rfl
  | nil =>
      cases frames with
      | nil => cases h
      | cons frame frames =>
          obtain rfl := Option.some.inj h
          rfl

theorem step_within (h : machine.step = .next action next) :
    (machine.within outer).step = .next action (next.within outer) := by
  rcases step_eq_next_iff.1 h with ⟨point, faced, moves⟩
  exact step_eq_next_iff.2 ⟨_, point?_within faced, moves.within⟩

theorem Path.within (h : Path machine events last) : Path (machine.within outer) events (last.within outer) := by
  induction h with
  | refl => exact .refl
  | step step _ ih =>
      have moved := Path.step (step_within step) ih
      exact moved

/-- A run that has not come to the end of its forest is the same in any surroundings. -/
theorem run_within {limit : Nat} {outcome : Outcome} {final : Machine}
    (h : machine.run limit = ⟨events, outcome, final⟩) (unfinished : outcome ≠ .finished) :
    (machine.within outer).run limit = ⟨events, outcome, final.within outer⟩ := by
  rcases run_eq_iff.1 h with ⟨last, left, path, length, ends⟩
  refine run_eq_iff.2 ⟨_, left, path.within, length, ?_⟩
  cases ends with
  | finished step => exact absurd rfl unfinished
  | failed step =>
      rcases step_eq_failed_iff.1 step with ⟨point, faced, fails⟩
      exact .failed (step_eq_failed_iff.2 ⟨_, point?_within faced, fails.within⟩)
  | stopped step => exact .stopped (step_within step)

/-- A run that comes to the end of its forest goes on with what stands behind it. -/
theorem run_within_of_finished (outer : Surroundings) {limit : Nat} {final : Machine}
    (h : machine.run limit = ⟨events, .finished, final⟩) (more : Nat) :
    ∃ passed, (machine.within outer).run (events.length + more) =
      let rest := run more ⟨final.store, passed, outer.after, outer.frames⟩
      { rest with events := events ++ rest.events } := by
  rcases run_eq_iff.1 h with ⟨last, left, path, length, ends⟩
  cases ends with
  | finished step =>
      rcases final with ⟨store, passed, after, frames⟩
      obtain ⟨rfl, rfl⟩ : after = [] ∧ frames = [] := eq_nil_of_finished step
      exact ⟨passed ++ outer.before, path.within.run more⟩

end Machine

end

/-! ## Lines -/

namespace Relabelling

variable (change : Relabelling)

def point (point : Point) : Point where
  before := point.before.map change.node
  node := change.node point.node
  after := point.after.map change.node
  frames := point.frames.map change.frame

def machine (machine : Machine) : Machine where
  store := machine.store
  before := machine.before.map change.node
  after := machine.after.map change.node
  frames := machine.frames.map change.frame

def action : Action → Action
  | .entered line => .entered (change.line line)
  | .left line => .left (change.line line)
  | .applied line op => .applied (change.line line) op

@[simp] theorem line_action (action : Action) : (change.action action).line = change.line action.line := by
  cases action <;> rfl

@[simp] theorem looping_action (action : Action) : (change.action action).looping = action.looping := by
  cases action <;> rfl

def event (event : Event) : Event :=
  ⟨change.action event.action, event.store⟩

def run (run : Run) : Run :=
  ⟨run.events.map change.event, run.outcome, change.machine run.machine⟩

section
variable {change} {machine next last : Machine} {point : Point} {action : Action} {error : RuntimeError}
  {events : List Event} {store : Store}

theorem moves (plain : ∀ condition, change.condition condition = condition) (h : point.Moves store action next) :
    (change.point point).Moves store (change.action action) (change.machine next) := by
  cases h with
  | applied result =>
      simp only [Relabelling.point, Relabelling.machine, List.map_cons, node_operation]
      exact .applied result
  | entered result =>
      simp only [Relabelling.point, Relabelling.machine, List.map_cons, List.map_nil, node_loop, frame, plain]
      exact .entered result
  | left result =>
      simp only [Relabelling.point, Relabelling.machine, List.map_cons, node_loop, plain]
      exact .left result

theorem fails (plain : ∀ condition, change.condition condition = condition) (h : point.Fails store error) :
    (change.point point).Fails store error := by
  cases h with
  | operation result => exact .operation result
  | loop result =>
      simp only [Relabelling.point, node_loop, plain]
      exact .loop result

theorem point?_machine (h : machine.point? = some point) :
    (change.machine machine).point? = some (change.point point) := by
  rcases machine with ⟨store, before, after, frames⟩
  cases after with
  | cons node rest =>
      obtain rfl := Option.some.inj h
      rfl
  | nil =>
      cases frames with
      | nil => cases h
      | cons frame frames =>
          obtain rfl := Option.some.inj h
          simp [Machine.point?, Relabelling.machine, Relabelling.point, Relabelling.frame, Frame.fill]

theorem step_machine (plain : ∀ condition, change.condition condition = condition)
    (h : machine.step = .next action next) :
    (change.machine machine).step = .next (change.action action) (change.machine next) := by
  rcases Machine.step_eq_next_iff.1 h with ⟨point, faced, moves⟩
  exact Machine.step_eq_next_iff.2 ⟨_, point?_machine faced, Relabelling.moves plain moves⟩

theorem path (plain : ∀ condition, change.condition condition = condition)
    (h : Machine.Path machine events last) :
    Machine.Path (change.machine machine) (events.map change.event) (change.machine last) := by
  induction h with
  | refl => exact .refl
  | step step _ ih =>
      have moved := Machine.Path.step (step_machine plain step) ih
      exact moved

/-- On other lines a machine runs as it does on its own; only its events are on other lines, too. -/
theorem run_machine (change : Relabelling) (plain : ∀ condition, change.condition condition = condition)
    (machine : Machine) (limit : Nat) : (change.machine machine).run limit = change.run (machine.run limit) := by
  rcases run : machine.run limit with ⟨events, outcome, final⟩
  rcases Machine.run_eq_iff.1 run with ⟨last, left, path, length, ends⟩
  refine Machine.run_eq_iff.2 ⟨_, left, Relabelling.path plain path, by simpa using length, ?_⟩
  cases ends with
  | finished step =>
      rcases final with ⟨store, passed, after, frames⟩
      obtain ⟨rfl, rfl⟩ : after = [] ∧ frames = [] := Machine.eq_nil_of_finished step
      exact .finished rfl
  | failed step =>
      rcases Machine.step_eq_failed_iff.1 step with ⟨point, faced, fails⟩
      exact .failed (Machine.step_eq_failed_iff.2 ⟨_, point?_machine faced, Relabelling.fails plain fails⟩)
  | stopped step => exact .stopped (step_machine plain step)

end

end Relabelling
end CounterLang
