import CounterLang.Proofs.Interpreter.Simulation

/-!
# Recorder — the interpreter under the eyes of a recorder

An observer that notes what it is told and gives up at some event sees the events of a run with this limit, and when it
gives up, the interpreter has done what the step behind the last of them has done.  An observer that notes everything,
or no observer at all, lets the interpreter go on as far as a machine goes on its own.

- `Machine.watched_recorder`        : a machine under the eyes of a recorder
- `Interpreter.comesTo_execute`     : what the interpreter comes to under the eyes of a recorder is what `execute` tells
- `Machine.Halts.comesTo`           : an observer that lets all events pass lets it come to the end of the machine
- `Interpreter.ComesTo.exists_halts`: if the observer notes everything, it comes to nothing else
-/

namespace CounterLang

open Interpreter (Return ComesTo)

/-! ## Observers that note what they are told -/

namespace Observer

variable {σ : Type}

theorem tell_recorder_of_lt {limit : Nat} {noted : List Sighting} (more : noted.length < limit) (sighting : Sighting) :
    (recorder limit).tell sighting (some noted) = .ok (some (noted ++ [sighting])) := by
  simp [tell, recorder, more]

theorem tell_recorder_of_le {limit : Nat} {noted : List Sighting} (full : limit ≤ noted.length) (sighting : Sighting) :
    (recorder limit).tell sighting (some noted) = .error (some noted) := by
  simp [tell, recorder, Nat.not_lt.2 full]

/-- An observer that notes everything never gives up. -/
theorem exists_tell_recordAll (sighting : Sighting) (notes : Option (List Sighting)) :
    ∃ noted, recordAll.tell sighting notes = .ok noted := by
  cases notes with
  | none => exact ⟨none, rfl⟩
  | some noted => exact ⟨some (noted ++ [sighting]), rfl⟩

theorem tellAll_recordAll (noted : List Sighting) (events : List Event) :
    recordAll.tellAll (some noted) events = .ok (some (noted ++ events.map Event.sighting)) := by
  induction events generalizing noted with
  | nil => simp [tellAll, pure, Except.pure]
  | cons event events ih =>
      have later := ih (noted ++ [event.sighting])
      rw [List.append_assoc] at later
      exact later

theorem tellAll_none (observer : Observer σ) (events : List Event) : observer.tellAll none events = .ok none := by
  induction events with
  | nil => rfl
  | cons event events ih => exact ih

end Observer

/-! ## Machines under the eyes of a recorder -/

namespace Machine

/-- Under the eyes of a recorder that may note some more events a machine comes to the end of a run with this limit.
What is reported includes the event that the recorder cannot note any more. -/
theorem watched_recorder (limit : Nat) (machine : Machine) (noted : List Sighting) (log : List Run.Notice) :
    Watched.Halts (.recorder (noted.length + limit)) machine ⟨machine.store, some noted, log⟩
      (machine.run limit).events
      ⟨⟨(machine.run limit).store, some (noted ++ (machine.run limit).events.map Event.sighting),
          log ++ reports (machine.run (limit + 1)).events⟩,
        (machine.run limit).machine.forest, (machine.run limit).outcome⟩ := by
  induction limit, machine using run_induction generalizing noted log with
  | finished step => simpa [run_of_finished step, reports, Run.store] using .here (.finished step)
  | failed step => simpa [run_of_failed step, reports, Run.store] using .here (.failed step)
  | @stopped machine action next step =>
      let event : Event := ⟨action, next.store⟩
      have sees : Interpreter.see (.recorder noted.length) event ⟨machine.store, some noted, log⟩ =
          .error ⟨next.store, some noted, log ++ event.notice?.toList⟩ := by
        rw [Interpreter.see_eq, Observer.tell_recorder_of_le (Nat.le_refl _)]
      rw [run_zero_of_next step, run_succ_of_next step, Run.cons, events_run_zero, reports_cons]
      simpa [reports] using .here (.stopped step sees)
  | @step limit machine action next step ih =>
      let event : Event := ⟨action, next.store⟩
      have sees : Interpreter.see (.recorder (noted.length + (limit + 1))) event ⟨machine.store, some noted, log⟩ =
          .ok ⟨next.store, some (noted ++ [event.sighting]), log ++ event.notice?.toList⟩ := by
        rw [Interpreter.see_eq, Observer.tell_recorder_of_lt (by omega)]
      have later := ih (noted ++ [event.sighting]) (log ++ event.notice?.toList)
      rw [List.length_append, List.length_singleton, Nat.add_assoc, Nat.add_comm 1 limit] at later
      rw [List.append_assoc, List.append_assoc, ← reports_cons event] at later
      rw [run_succ_of_next step, run_succ_of_next step (limit + 1), Run.cons, Run.cons]
      exact .step step sees later

end Machine

/-! ## What the interpreter comes to -/

section
variable {σ : Type} {tree : Node} {events : List Event} {ended : End} {store : Store}

/-- Under the eyes of a recorder the interpreter comes to what `execute` tells: the same sightings, store, tree and
outcome.  What is reported includes the event that the recorder cannot note any more, if there is one. -/
theorem Interpreter.comesTo_execute (limit : Nat) (store : Store) (tree : Node) :
    ComesTo (.recorder limit) (.watched store) tree
      ⟨⟨(execute limit store tree).store, some ((execute limit store tree).events.map Event.sighting),
          reports (execute (limit + 1) store tree).events⟩,
        (execute limit store tree).tree, (execute limit store tree).outcome⟩ := by
  have halts := (Machine.start store tree).watched_recorder limit [] []
  rw [List.length_nil, Nat.zero_add] at halts
  exact Interpreter.comesTo_of_halts (.watched store) halts

/-- An observer that lets all events of a machine pass lets the interpreter come to the end of the machine. -/
theorem Machine.Halts.comesTo (h : (Machine.start store tree).Halts events ended) {observer : Observer σ}
    {before after : Option σ} (passes : observer.tellAll before events = .ok after) :
    ComesTo observer ⟨store, before, []⟩ tree
      ⟨⟨ended.store, after, reports events⟩, ended.tree, ended.outcome⟩ :=
  Interpreter.comesTo_of_halts ⟨store, before, []⟩ (h.watched rfl passes)

/-- If the observer notes everything, the interpreter comes to nothing but the end of the machine. -/
theorem Interpreter.ComesTo.exists_halts {back : Return (List Sighting) Node}
    (h : ComesTo .recordAll (.watched store) tree back) :
    ∃ events ended, (Machine.start store tree).Halts events ended ∧
      back = ⟨⟨ended.store, some (events.map Event.sighting), reports events⟩, ended.tree, ended.outcome⟩ := by
  rcases Interpreter.comesTo_iff.1 h with ⟨events, watched⟩
  rcases watched.alone (watched.ne_stopped Observer.exists_tell_recordAll) rfl with ⟨ended, halts, _⟩
  exact ⟨events, ended, halts, h.unique (halts.comesTo (Observer.tellAll_recordAll [] events))⟩

end
end CounterLang
