import CounterLang.Proofs.Run.Steps
import CounterLang.Run.Unrecorded

/-!
# Halts — machines that come to an end

A machine that may go on for as long as it likes comes to an end, or it never does.  If it does, a limit on events that
is not reached makes no difference, and neither does it matter whether events are recorded at all.  A run that is
stopped at some event leaves the machine behind the step of that event.

- `Machine.Halts`            : a machine that may record all its events comes to an end
- `Machine.Halts.run`        : a limit that is not reached makes no difference
- `Machine.Halts.finish?`    : and neither does it matter whether events are recorded
- `Machine.exists_next_cut`  : a run that is cut stands behind the first step that it may not record
-/

namespace CounterLang

/-- The outcome of a machine that has come to an end. -/
def End.outcome (ended : End) : Outcome :=
  match ended.result with
  | .ok () => .finished
  | .error error => .failed error

namespace Machine

variable {machine next last : Machine} {events later : List Event} {action : Action} {ended : End}
  {limit : Nat}

/-! ## Runs without a limit -/

/-- A machine that may record each event, however many there are, comes to an end. -/
inductive Halts : Machine → List Event → End → Prop where
  | finished {machine : Machine} :
      machine.step = .finished → Halts machine [] ⟨.ok (), machine⟩
  | failed {machine : Machine} {error : RuntimeError} :
      machine.step = .failed error → Halts machine [] ⟨.error error, machine⟩
  | step {machine next : Machine} {action : Action} {events : List Event} {ended : End} :
      machine.step = .next action next → Halts next events ended →
        Halts machine (⟨action, next.store⟩ :: events) ended

/-- A machine comes to the end that another one comes to, if it gets there. -/
theorem Path.halts (h : Path machine events last) (halts : Halts last later ended) :
    Halts machine (events ++ later) ended := by
  induction h with
  | refl => exact halts
  | step step _ ih => exact .step step (ih halts)

/-- All events lead to the machine that is left. -/
theorem Halts.path (h : Halts machine events ended) : Path machine events ended.machine := by
  induction h with
  | finished _ => exact .refl
  | failed _ => exact .refl
  | step step _ ih => exact .step step ih

/-- A limit that is not reached makes no difference. -/
theorem Halts.run (h : Halts machine events ended) (more : Nat) :
    machine.run (events.length + more) = ⟨events, ended.outcome, ended.machine⟩ := by
  induction h with
  | finished step => exact run_of_finished step _
  | failed step => exact run_of_failed step _
  | step step _ ih =>
      rw [List.length_cons, Nat.add_right_comm, run_succ_of_next step, ih]
      rfl

/-- A machine that nobody watches comes to the same end. -/
theorem Halts.finish? (h : Halts machine events ended) (more : Nat) :
    machine.finish? (events.length + more) = some ended := by
  induction h with
  | finished step => cases more <;> simp [Machine.finish?, step]
  | failed step => cases more <;> simp [Machine.finish?, step]
  | step step _ ih =>
      rw [List.length_cons, Nat.add_right_comm]
      simp only [Machine.finish?, step]
      exact ih

/-- What a machine that nobody watches comes to is the end of it. -/
theorem exists_halts_of_finish? {bound : Nat} (h : machine.finish? bound = some ended) :
    ∃ events, Halts machine events ended := by
  induction bound generalizing machine with
  | zero =>
      cases step : machine.step with
      | finished =>
          simp only [Machine.finish?, step, Option.some.injEq] at h
          exact ⟨[], h ▸ .finished step⟩
      | failed error =>
          simp only [Machine.finish?, step, Option.some.injEq] at h
          exact ⟨[], h ▸ .failed step⟩
      | next action next => simp [Machine.finish?, step] at h
  | succ bound ih =>
      cases step : machine.step with
      | finished =>
          simp only [Machine.finish?, step, Option.some.injEq] at h
          exact ⟨[], h ▸ .finished step⟩
      | failed error =>
          simp only [Machine.finish?, step, Option.some.injEq] at h
          exact ⟨[], h ▸ .failed step⟩
      | next action next =>
          simp only [Machine.finish?, step] at h
          rcases ih h with ⟨events, halts⟩
          exact ⟨_, .step step halts⟩

/-! ## Runs that are cut -/

/-- A run that does not come to an end in time records as many events as it may, and leaves behind the machine
that one more step leads to. -/
theorem exists_next_cut (unfinished : ∀ events ended, Halts machine events ended → limit < events.length) :
    ∃ events last action next, Path machine events last ∧ events.length = limit ∧
      last.step = .next action next ∧ machine.run limit = ⟨events, .stopped, next⟩ := by
  rcases run : machine.run limit with ⟨events, outcome, final⟩
  rcases run_eq_iff.1 run with ⟨last, left, path, length, ends⟩
  cases ends with
  | finished step =>
      have early := unfinished _ _ (path.halts (.finished step))
      simp only [List.append_nil] at early
      omega
  | failed step =>
      have early := unfinished _ _ (path.halts (.failed step))
      simp only [List.append_nil] at early
      omega
  | stopped step => exact ⟨events, last, _, _, path, by omega, step, rfl⟩

/-- A run that is allowed to go on repeats the events of the one that is cut, and the step behind them. -/
theorem Path.run_next (h : Path machine events last) (step : last.step = .next action next) (more : Nat) :
    (machine.run (events.length + (more + 1))).events =
      events ++ ⟨action, next.store⟩ :: (next.run more).events := by
  rw [h.run, run_succ_of_next step]
  rfl

end Machine

end CounterLang
