import CounterLang.Run

/-!
# Steps — what a machine does next, and how runs are made of steps

A machine that is not finished faces a node: the next one among its siblings, or, at the end of a body, the loop
around it.  What a step does is told from that node and the store.  A run is a path of steps, with one event for
each, and an end: there is no next step, the next step fails, or its event may not be recorded any more.

- `Point`                 : a node of a forest, with what surrounds it
- `Machine.point?`        : the node that a machine faces
- `Point.Moves`           : all that a step can do
- `Point.Fails`           : all that can make a step fail
- `Machine.Path`          : the steps from one machine to another, told by their events
- `Machine.Ends`          : how a run ends at some machine
- `Machine.run_eq_iff`    : a run is a path and an end
-/

namespace CounterLang

/-! ## Points -/

structure Point where
  /-- The siblings in front of the node, nearest first. -/
  before : List Node
  node : Node
  /-- The siblings behind the node, in order. -/
  after : List Node
  /-- The loops around the node, innermost first. -/
  frames : List Frame

namespace Point

/-- The forest that the node belongs to. -/
def forest (point : Point) : List Node :=
  plug (point.before.reverse ++ point.node :: point.after) point.frames

/-- What can be done at a node with some store: an operation is carried out, or a loop is entered or left. -/
inductive Moves (store : Store) : Point → Action → Machine → Prop where
  | applied {before after : List Node} {frames : List Frame} {line : Nat} {op : Operation} {changed : Store} :
      op.apply store = .ok changed →
        Moves store ⟨before, .operation line op, after, frames⟩ (.applied line op)
          ⟨changed, .operation line op :: before, after, frames⟩
  | entered {before after children : List Node} {frames : List Frame} {line : Nat} {condition : Condition} :
      condition.holds store = .ok true →
        Moves store ⟨before, .loop line condition children, after, frames⟩ (.entered line)
          ⟨store, [], children, ⟨before, line, condition.tested, after⟩ :: frames⟩
  | left {before after children : List Node} {frames : List Frame} {line : Nat} {condition : Condition} :
      condition.holds store = .ok false →
        Moves store ⟨before, .loop line condition children, after, frames⟩ (.left line)
          ⟨store, .loop line condition.tested children :: before, after, frames⟩

/-- What can go wrong at a node with some store. -/
inductive Fails (store : Store) : Point → RuntimeError → Prop where
  | operation {before after : List Node} {frames : List Frame} {line : Nat} {op : Operation}
      {error : RuntimeError} :
      op.apply store = .error error → Fails store ⟨before, .operation line op, after, frames⟩ error
  | loop {before after children : List Node} {frames : List Frame} {line : Nat} {condition : Condition}
      {error : RuntimeError} :
      condition.holds store = .error error →
        Fails store ⟨before, .loop line condition children, after, frames⟩ error

end Point

namespace Machine

variable {machine next last : Machine} {point : Point} {action : Action} {error : RuntimeError}

/-- The node that a machine carries out next. -/
def point? (machine : Machine) : Option Point :=
  match machine.after, machine.frames with
  | node :: rest, frames => some ⟨machine.before, node, rest, frames⟩
  | [], frame :: frames => some ⟨frame.before, frame.fill machine.before.reverse, frame.after, frames⟩
  | [], [] => none

/-- A machine faces a node of the forest that it stands in. -/
theorem forest_of_point? (h : machine.point? = some point) : point.forest = machine.forest := by
  rcases machine with ⟨store, before, after, frames⟩
  cases after with
  | cons node rest =>
      obtain rfl := Option.some.inj h
      rfl
  | nil =>
      cases frames with
      | nil => cases h
      | cons frame frames =>
          obtain rfl := Option.some.inj h
          simp [Point.forest, Machine.forest, plug]

theorem step_of_point? (h : machine.point? = some point) :
    machine.step = perform ⟨machine.store, point.before, [], point.frames⟩ point.node point.after := by
  rcases machine with ⟨store, before, after, frames⟩
  cases after with
  | cons node rest =>
      obtain rfl := Option.some.inj h
      cases node <;> rfl
  | nil =>
      cases frames with
      | nil => cases h
      | cons frame frames =>
          obtain rfl := Option.some.inj h
          rfl

theorem perform_cases (store : Store) (point : Point) :
    (∃ error, perform ⟨store, point.before, [], point.frames⟩ point.node point.after = .failed error ∧
        point.Fails store error) ∨
      ∃ action next, perform ⟨store, point.before, [], point.frames⟩ point.node point.after = .next action next ∧
        point.Moves store action next := by
  rcases point with ⟨before, node, after, frames⟩
  cases node with
  | operation line op =>
      cases result : op.apply store with
      | error error => exact .inl ⟨error, by simp [perform, result], .operation result⟩
      | ok changed => exact .inr ⟨_, _, by simp only [perform, result], .applied result⟩
  | loop line condition children =>
      cases result : condition.holds store with
      | error error => exact .inl ⟨error, by simp [perform, result], .loop result⟩
      | ok round =>
          cases round with
          | true => exact .inr ⟨_, _, by simp only [perform, result], .entered result⟩
          | false => exact .inr ⟨_, _, by simp only [perform, result], .left result⟩

/-- A machine faces a node, and fails at it or moves on; or it faces nothing and is finished. -/
theorem step_cases (machine : Machine) :
    (machine.after = [] ∧ machine.frames = [] ∧ machine.step = .finished) ∨
      ∃ point, machine.point? = some point ∧
        ((∃ error, machine.step = .failed error ∧ point.Fails machine.store error) ∨
          ∃ action next, machine.step = .next action next ∧ point.Moves machine.store action next) := by
  cases faced : machine.point? with
  | some point =>
      rw [step_of_point? faced]
      exact .inr ⟨point, rfl, perform_cases machine.store point⟩
  | none =>
      rcases machine with ⟨store, before, after, frames⟩
      cases after with
      | cons node rest => cases faced
      | nil =>
          cases frames with
          | nil => exact .inl ⟨rfl, rfl, rfl⟩
          | cons frame frames => cases faced

/-- All that a step can do. -/
theorem step_eq_next_iff :
    machine.step = .next action next ↔
      ∃ point, machine.point? = some point ∧ point.Moves machine.store action next := by
  constructor
  · intro h
    rcases machine.step_cases with ⟨_, _, step⟩ | ⟨point, faced, ⟨_, step, _⟩ | ⟨_, _, step, moves⟩⟩
    · rw [step] at h
      cases h
    · rw [step] at h
      cases h
    · rw [step] at h
      cases h
      exact ⟨point, faced, moves⟩
  · rintro ⟨point, faced, moves⟩
    rw [step_of_point? faced]
    cases moves with
    | applied result => simp [perform, result]
    | entered result => simp [perform, result]
    | left result => simp [perform, result]

/-- All that can make a step fail. -/
theorem step_eq_failed_iff :
    machine.step = .failed error ↔ ∃ point, machine.point? = some point ∧ point.Fails machine.store error := by
  constructor
  · intro h
    rcases machine.step_cases with ⟨_, _, step⟩ | ⟨point, faced, ⟨_, step, fails⟩ | ⟨_, _, step, _⟩⟩
    · rw [step] at h
      cases h
    · rw [step] at h
      cases h
      exact ⟨point, faced, fails⟩
    · rw [step] at h
      cases h
  · rintro ⟨point, faced, fails⟩
    rw [step_of_point? faced]
    cases fails with
    | operation result => simp [perform, result]
    | loop result => simp [perform, result]

/-- Where a machine stands makes no difference to its next step, as long as it faces the same node. -/
theorem step_congr {other : Machine} (faced : other.point? = machine.point?) (same : other.store = machine.store) :
    other.step = machine.step := by
  cases here : machine.point? with
  | some point => rw [step_of_point? here, step_of_point? (faced.trans here), same]
  | none =>
      rcases machine.step_cases with ⟨_, _, step⟩ | ⟨point, there, _⟩
      · rcases other.step_cases with ⟨_, _, stepThere⟩ | ⟨point, there, _⟩
        · rw [step, stepThere]
        · cases (faced.trans here).symm.trans there
      · cases here.symm.trans there

/-- Only a machine behind its last node is finished. -/
theorem eq_nil_of_finished (h : machine.step = .finished) : machine.after = [] ∧ machine.frames = [] := by
  rcases machine.step_cases with ⟨after, frames, _⟩ | ⟨point, _, ⟨_, step, _⟩ | ⟨_, _, step, _⟩⟩
  · exact ⟨after, frames⟩
  · rw [step] at h
    cases h
  · rw [step] at h
    cases h

/-! ## Paths -/

/-- The steps from one machine to another, each with the event that tells of it. -/
inductive Path : Machine → List Event → Machine → Prop where
  | refl {machine : Machine} : Path machine [] machine
  | step {machine next last : Machine} {action : Action} {events : List Event} :
      machine.step = .next action next → Path next events last →
        Path machine (⟨action, next.store⟩ :: events) last

/-- How a run ends at a machine that may record some more events. -/
inductive Ends (last : Machine) : (left : Nat) → Outcome → Machine → Prop where
  | finished {left : Nat} : last.step = .finished → Ends last left .finished last
  | failed {left : Nat} {error : RuntimeError} : last.step = .failed error → Ends last left (.failed error) last
  | stopped {action : Action} {next : Machine} : last.step = .next action next → Ends last 0 .stopped next

/-- A run that does not finish ends in front of a node. -/
theorem Ends.exists_point? {left : Nat} {outcome : Outcome} (h : last.Ends left outcome next)
    (unfinished : outcome ≠ .finished) : ∃ point, last.point? = some point := by
  cases h with
  | finished step => exact absurd rfl unfinished
  | failed step =>
      rcases step_eq_failed_iff.1 step with ⟨point, faced, _⟩
      exact ⟨point, faced⟩
  | stopped step =>
      rcases step_eq_next_iff.1 step with ⟨point, faced, _⟩
      exact ⟨point, faced⟩

/-- A run that is not stopped leaves the machine at which it ends. -/
theorem Ends.eq_of_ne_stopped {left : Nat} {outcome : Outcome} (h : last.Ends left outcome next)
    (unstopped : outcome ≠ .stopped) : next = last := by
  cases h with
  | finished step => rfl
  | failed step => rfl
  | stopped step => exact absurd rfl unstopped

theorem run_of_ends {left : Nat} {outcome : Outcome} (h : last.Ends left outcome next) :
    last.run left = ⟨[], outcome, next⟩ := by
  cases h with
  | finished step => exact run_of_finished step left
  | failed step => exact run_of_failed step left
  | stopped step => exact run_zero_of_next step

/-- A run goes along a path, and then goes on from where the path has led. -/
theorem Path.run {events : List Event} (h : Path machine events last) (more : Nat) :
    machine.run (events.length + more) = { last.run more with events := events ++ (last.run more).events } := by
  induction h with
  | refl => simp
  | step step _ ih =>
      rw [List.length_cons, Nat.add_right_comm, run_succ_of_next step, ih]
      rfl

/-- A run is a path and an end. -/
theorem run_eq_iff {limit : Nat} {events : List Event} {outcome : Outcome} {final : Machine} :
    machine.run limit = ⟨events, outcome, final⟩ ↔
      ∃ last left, Path machine events last ∧ limit = events.length + left ∧ last.Ends left outcome final := by
  constructor
  · intro h
    -- the first step of the machine decides whether there is a path at all
    induction limit, machine using run_induction generalizing events with
    | finished step =>
        rw [run_of_finished step] at h
        cases h
        exact ⟨_, _, .refl, (Nat.zero_add _).symm, .finished step⟩
    | failed step =>
        rw [run_of_failed step] at h
        cases h
        exact ⟨_, _, .refl, (Nat.zero_add _).symm, .failed step⟩
    | stopped step =>
        rw [run_zero_of_next step] at h
        cases h
        exact ⟨_, 0, .refl, rfl, .stopped step⟩
    | @step limit _ _ next step ih =>
        rcases rest : next.run limit with ⟨later, outcome', final'⟩
        rw [run_succ_of_next step, rest] at h
        cases h
        rcases ih rest with ⟨last, left, path, length, ends⟩
        refine ⟨last, left, .step step path, ?_, ends⟩
        show limit + 1 = later.length + 1 + left
        omega
  · rintro ⟨last, left, path, rfl, ends⟩
    rw [path.run, run_of_ends ends]
    simp

theorem events_run_zero (machine : Machine) : (machine.run 0).events = [] := by
  cases step : machine.step with
  | finished => rw [run_of_finished step]
  | failed error => rw [run_of_failed step]
  | next action next => rw [run_zero_of_next step]

/-- The events of a run, with the one that it is stopped at, lead to the machine that it leaves behind. -/
theorem path_run (machine : Machine) (limit : Nat) :
    Path machine (machine.run (limit + 1)).events (machine.run limit).machine := by
  induction limit, machine using run_induction with
  | finished step => simpa [run_of_finished step] using Path.refl
  | failed step => simpa [run_of_failed step] using Path.refl
  | stopped step =>
      rw [run_succ_of_next step, run_zero_of_next step, Run.cons, events_run_zero]
      exact .step step .refl
  | step step ih =>
      rw [run_succ_of_next step, run_succ_of_next step]
      exact .step step ih

/-- The events of a run lead from where it starts to some machine. -/
theorem exists_path_run (machine : Machine) (limit : Nat) : ∃ last, Path machine (machine.run limit).events last := by
  rcases run : machine.run limit with ⟨events, outcome, final⟩
  rcases run_eq_iff.1 run with ⟨last, _, path, _, _⟩
  exact ⟨last, path⟩

/-- The store of each event on a path is that of some machine on the way. -/
theorem Path.exists_of_mem {events : List Event} (h : Path machine events last) {event : Event}
    (mem : event ∈ events) : ∃ earlier middle, Path machine earlier middle ∧ middle.store = event.store := by
  induction h with
  | refl => cases mem
  | step step _ ih =>
      rcases List.mem_cons.1 mem with rfl | mem
      · exact ⟨_, _, .step step .refl, rfl⟩
      · rcases ih mem with ⟨earlier, middle, path, same⟩
        exact ⟨_, middle, .step step path, same⟩

/-- So is the store of each event of a run. -/
theorem exists_path_of_mem_run {limit : Nat} {event : Event} (mem : event ∈ (machine.run limit).events) :
    ∃ earlier middle, Path machine earlier middle ∧ middle.store = event.store := by
  obtain ⟨last, path⟩ := machine.exists_path_run limit
  exact path.exists_of_mem mem

/-- A run that may record more events comes, later on, from where a shorter one has been stopped. -/
theorem exists_path_run_add (machine : Machine) (limit more : Nat) :
    ∃ events, Path (machine.run limit).machine events (machine.run (limit + more)).machine := by
  induction limit, machine using run_induction with
  | finished step => exact ⟨[], by simpa [run_of_finished step] using Path.refl⟩
  | failed step => exact ⟨[], by simpa [run_of_failed step] using Path.refl⟩
  | stopped step =>
      rw [run_zero_of_next step]
      cases more with
      | zero => exact ⟨[], by simpa [run_zero_of_next step] using Path.refl⟩
      | succ more =>
          rw [Nat.zero_add, run_succ_of_next step]
          exact ⟨_, path_run _ more⟩
  | step step ih =>
      rw [Nat.add_right_comm, run_succ_of_next step, run_succ_of_next step]
      exact ih

/-- A run that fails leaves behind a machine whose next step fails. -/
theorem step_of_run_failed {limit : Nat} (h : (machine.run limit).outcome = .failed error) :
    (machine.run limit).machine.step = .failed error := by
  rcases run : machine.run limit with ⟨events, outcome, final⟩
  rcases run_eq_iff.1 run with ⟨last, left, _, _, ends⟩
  rw [run] at h
  cases ends with
  | finished step => cases h
  | failed step =>
      cases h
      exact step
  | stopped step => cases h

end Machine
end CounterLang
