import CounterLang.Proofs.Run.Halts
import CounterLang.Run.Interpreter

/-!
# Watched — machines under the eyes of an observer

A machine knows nothing of observers.  Here it is given one: with each of its steps an interpreter takes over the
store, reports the action, and tells its observer of the event.  As long as the observer lets all events pass, the
machine goes along the path that it goes along anyway; when the observer gives up, the machine is left behind the step
that was too much.

- `Interpreter.see`        : an interpreter takes over what a step has done
- `Watched.Path`           : the steps of a machine that the observer lets pass
- `Watched.Ends`           : what ends the steps of a machine that is observed
- `Watched.Halts`          : how such a machine comes to an end
- `Watched.Halts.unique`   : it comes to one end only
- `Machine.Halts.watched`  : an observer that lets all events pass makes no difference
- `Watched.Halts.alone`    : unless it is stopped, a machine comes to its end without an observer as well
-/

namespace CounterLang

/-- What an observer is told of an event. -/
def Event.sighting (event : Event) : Sighting :=
  ⟨event.line, event.looping, event.store⟩

/-- What an event is reported as; the event of a loop that is over is not reported. -/
def Event.notice? (event : Event) : Option Run.Notice :=
  event.action.notice?

/-- What is reported of some events. -/
def reports (events : List Event) : List Run.Notice :=
  events.filterMap Event.notice?

theorem reports_cons (event : Event) (events : List Event) :
    reports (event :: events) = event.notice?.toList ++ reports events := by
  rw [reports, List.filterMap_cons]
  cases event.notice? <;> rfl

namespace Interpreter

variable {σ : Type} {observer : Observer σ}

/-- Takes over what a step has done: the store, then the report on its action, and then the observer is told. -/
def see (observer : Observer σ) (event : Event) (interpreter : Interpreter σ) :
    Except (Interpreter σ) (Interpreter σ) :=
  notify observer event.line event.looping
    { interpreter with store := event.store, log := interpreter.log ++ event.notice?.toList }

/-- Nothing is reported when a loop is over. -/
theorem see_left (line : Nat) (interpreter : Interpreter σ) :
    interpreter.see observer ⟨.left line, interpreter.store⟩ = interpreter.notify observer line false := by
  simp [see, notify, Event.notice?, Action.notice?, Event.line, Event.looping, Action.line, Action.looping]

end Interpreter

namespace Watched

variable {σ : Type} {observer : Observer σ} {machine other next last middle : Machine}
  {interpreter seen between after : Interpreter σ} {action : Action} {events first second : List Event}

/-! ## Paths and ends -/

/-- The steps from one machine to another that the observer lets pass, with what becomes of the interpreter. -/
inductive Path (observer : Observer σ) :
    Machine → Interpreter σ → List Event → Machine → Interpreter σ → Prop where
  | refl {machine : Machine} {interpreter : Interpreter σ} : Path observer machine interpreter [] machine interpreter
  | step {machine next last : Machine} {interpreter seen after : Interpreter σ} {action : Action}
      {events : List Event} :
      machine.step = .next action next → interpreter.see observer ⟨action, next.store⟩ = .ok seen →
        Path observer next seen events last after →
          Path observer machine interpreter (⟨action, next.store⟩ :: events) last after

/-- What a machine leaves that takes no step any more which the observer lets pass. -/
inductive Ends (observer : Observer σ) (machine : Machine) (interpreter : Interpreter σ) :
    Interpreter.Return σ (List Node) → Prop where
  | finished : machine.step = .finished → Ends observer machine interpreter ⟨interpreter, machine.forest, .finished⟩
  | failed {error : RuntimeError} :
      machine.step = .failed error → Ends observer machine interpreter ⟨interpreter, machine.forest, .failed error⟩
  | stopped {next : Machine} {seen : Interpreter σ} {action : Action} :
      machine.step = .next action next → interpreter.see observer ⟨action, next.store⟩ = .error seen →
        Ends observer machine interpreter ⟨seen, next.forest, .stopped⟩

/-- How a machine that is observed comes to an end: the events that the observer lets pass, and what is left. -/
inductive Halts (observer : Observer σ) :
    Machine → Interpreter σ → List Event → Interpreter.Return σ (List Node) → Prop where
  | here {machine : Machine} {interpreter : Interpreter σ} {back : Interpreter.Return σ (List Node)} :
      Ends observer machine interpreter back → Halts observer machine interpreter [] back
  | step {machine next : Machine} {interpreter seen : Interpreter σ} {action : Action} {events : List Event}
      {back : Interpreter.Return σ (List Node)} :
      machine.step = .next action next → interpreter.see observer ⟨action, next.store⟩ = .ok seen →
        Halts observer next seen events back →
          Halts observer machine interpreter (⟨action, next.store⟩ :: events) back

section
variable {back there : Interpreter.Return σ (List Node)}

theorem Ends.unique (h : Ends observer machine interpreter back) (h' : Ends observer machine interpreter there) :
    back = there := by
  cases h with
  | finished step => cases h' <;> simp_all
  | failed step => cases h' <;> simp_all
  | stopped step sees => cases h' <;> simp_all

/-- There is no further step behind the end. -/
theorem Ends.not_step (h : Ends observer machine interpreter back) (step : machine.step = .next action next) :
    interpreter.see observer ⟨action, next.store⟩ ≠ .ok seen := by
  cases h with
  | finished step' => cases step.symm.trans step'
  | failed step' => cases step.symm.trans step'
  | stopped step' sees =>
      cases step.symm.trans step'
      simp [sees]

namespace Path

theorem trans (h : Path observer machine interpreter first middle between)
    (further : Path observer middle between second last after) :
    Path observer machine interpreter (first ++ second) last after := by
  induction h with
  | refl => exact further
  | step step sees _ ih => exact .step step sees (ih further)

/-- A machine comes to the end that another one comes to, if it gets there. -/
theorem halts (h : Path observer machine interpreter first last after)
    (halts : Halts observer last after second back) :
    Halts observer machine interpreter (first ++ second) back := by
  induction h with
  | refl => exact halts
  | step step sees _ ih => exact .step step sees (ih halts)

/-- A machine that comes to an end does so by way of each machine that it gets to. -/
theorem exists_halts (h : Path observer machine interpreter first last after)
    (halts : Halts observer machine interpreter events back) :
    ∃ later, events = first ++ later ∧ Halts observer last after later back := by
  induction h generalizing events with
  | refl => exact ⟨events, rfl, halts⟩
  | step step sees _ ih =>
      cases halts with
      | here ends => exact absurd sees (ends.not_step step)
      | step step' sees' rest =>
          cases step.symm.trans step'
          cases sees.symm.trans sees'
          rcases ih rest with ⟨later, rfl, halts⟩
          exact ⟨later, rfl, halts⟩

end Path

/-- A machine that is observed comes to one end only. -/
theorem Halts.unique (h : Halts observer machine interpreter first back)
    (h' : Halts observer machine interpreter second there) : first = second ∧ back = there := by
  induction h generalizing second with
  | here ends =>
      cases h' with
      | here ends' => exact ⟨rfl, ends.unique ends'⟩
      | step step sees _ => exact absurd sees (ends.not_step step)
  | step step sees _ ih =>
      rcases Path.exists_halts (.step step sees .refl) h' with ⟨later, rfl, halts⟩
      obtain ⟨rfl, rfl⟩ := ih halts
      exact ⟨rfl, rfl⟩

/-! ## Machines that face the same node -/

/-- Where a machine stands makes no difference to its steps, as long as it faces the same node. -/
theorem Path.of_point? (h : Path observer machine interpreter events last after) (moved : events ≠ [])
    (faced : other.point? = machine.point?) (same : other.store = machine.store) :
    Path observer other interpreter events last after := by
  cases h with
  | refl => exact absurd rfl moved
  | step step sees path => exact .step ((Machine.step_congr faced same).trans step) sees path

/-- Neither does it make a difference to the end that the machine comes to. -/
theorem Halts.of_point? {point : Point} (h : Halts observer machine interpreter events back)
    (faced : machine.point? = some point) (facedThere : other.point? = some point)
    (same : other.store = machine.store) : Halts observer other interpreter events back := by
  have steps : other.step = machine.step := Machine.step_congr (facedThere.trans faced.symm) same
  have forests : other.forest = machine.forest :=
    (Machine.forest_of_point? facedThere).symm.trans (Machine.forest_of_point? faced)
  cases h with
  | here ends =>
      refine .here ?_
      cases ends with
      | finished step => exact forests ▸ .finished (steps.trans step)
      | failed step => exact forests ▸ .failed (steps.trans step)
      | stopped step sees => exact .stopped (steps.trans step) sees
  | step step sees rest => exact .step (steps.trans step) sees rest

end
end Watched

/-! ## Observers that make no difference -/

section
variable {σ : Type} {observer : Observer σ} {machine : Machine} {interpreter seen : Interpreter σ} {event : Event}
  {events : List Event} {ended : End} {notes : Option σ} {back : Interpreter.Return σ (List Node)}

/-- Tells an observer of some events, up to the one at which it gives up. -/
def Observer.tellAll (observer : Observer σ) (notes : Option σ) (events : List Event) :
    Except (Option σ) (Option σ) :=
  events.foldlM (fun notes event => observer.tell event.sighting notes) notes

theorem Interpreter.see_eq (event : Event) (interpreter : Interpreter σ) :
    interpreter.see observer event =
      match observer.tell event.sighting interpreter.notes with
      | .ok notes => .ok ⟨event.store, notes, interpreter.log ++ event.notice?.toList⟩
      | .error notes => .error ⟨event.store, notes, interpreter.log ++ event.notice?.toList⟩ := rfl

theorem Interpreter.see_eq_ok_iff :
    interpreter.see observer event = .ok seen ↔
      ∃ notes, observer.tell event.sighting interpreter.notes = .ok notes ∧
        seen = ⟨event.store, notes, interpreter.log ++ event.notice?.toList⟩ := by
  rw [see_eq]
  cases observer.tell event.sighting interpreter.notes <;> simp [eq_comm]

/-- An observer that lets all events pass makes no difference to the end of a machine. -/
theorem Machine.Halts.watched (h : machine.Halts events ended) (same : interpreter.store = machine.store)
    (told : observer.tellAll interpreter.notes events = .ok notes) :
    Watched.Halts observer machine interpreter events
      ⟨⟨ended.store, notes, interpreter.log ++ reports events⟩, ended.machine.forest, ended.outcome⟩ := by
  induction h generalizing interpreter with
  | finished step =>
      cases told
      rcases interpreter with ⟨store, notes, log⟩
      obtain rfl := same
      simpa [reports] using .here (.finished step)
  | failed step =>
      cases told
      rcases interpreter with ⟨store, notes, log⟩
      obtain rfl := same
      simpa [reports] using .here (.failed step)
  | @step machine next action events ended step rest ih =>
      rw [Observer.tellAll, List.foldlM_cons] at told
      let event : Event := ⟨action, next.store⟩
      cases first : observer.tell event.sighting interpreter.notes with
      | error notes =>
          rw [first] at told
          cases told
      | ok noted =>
          rw [first] at told
          let seen : Interpreter σ := ⟨next.store, noted, interpreter.log ++ event.notice?.toList⟩
          have later : Watched.Halts observer next seen events _ := ih rfl told
          rw [List.append_assoc, ← reports_cons event events] at later
          exact .step step (Interpreter.see_eq_ok_iff.2 ⟨noted, first, rfl⟩) later

/-- A machine that is observed and not stopped comes to its end without an observer as well. -/
theorem Watched.Halts.alone (h : Watched.Halts observer machine interpreter events back)
    (unstopped : back.outcome ≠ .stopped) (same : interpreter.store = machine.store) :
    ∃ ended, machine.Halts events ended ∧ observer.tellAll interpreter.notes events = .ok back.interpreter.notes := by
  induction h with
  | here ends =>
      cases ends with
      | finished step => exact ⟨_, .finished step, rfl⟩
      | failed step => exact ⟨_, .failed step, rfl⟩
      | stopped _ _ => exact absurd rfl unstopped
  | step step sees _ ih =>
      rcases Interpreter.see_eq_ok_iff.1 sees with ⟨notes, told, rfl⟩
      rcases ih unstopped rfl with ⟨ended, halts, passed⟩
      refine ⟨ended, .step step halts, ?_⟩
      rw [Observer.tellAll, List.foldlM_cons, told]
      exact passed

/-- A machine is not stopped by an observer that never gives up. -/
theorem Watched.Halts.ne_stopped (h : Watched.Halts observer machine interpreter events back)
    (patient : ∀ sighting notes, ∃ noted, observer.tell sighting notes = .ok noted) : back.outcome ≠ .stopped := by
  induction h with
  | @here machine interpreter back ends =>
      cases ends with
      | finished _ => nofun
      | failed _ => nofun
      | @stopped next seen action step sees =>
          rcases patient (Event.sighting ⟨action, next.store⟩) interpreter.notes with ⟨noted, told⟩
          rw [Interpreter.see_eq, told] at sees
          cases sees
  | step _ _ _ ih => exact ih

end
end CounterLang
