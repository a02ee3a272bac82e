import CounterLang.Proofs.Interpreter.Recorder

/-!
# Cut — what a limit on events takes away from a run

The interpreter is observed by a recorder, which gives up at the first event that it cannot note any more.  What the
step of that event has done is done: the store has changed and triggers have fired before the recorder is told.  So a
run that is cut leaves what any longer run leaves just behind this event.  A run that comes to an end in time is not
touched by the recorder at all, and ends as it does when nobody observes it.

- `execute_cut`          : all of this, for the interpreter in front of any tree, and for `execute` and `finish?`
-/

namespace CounterLang

open Interpreter (ComesTo)

theorem End.outcome_ne_stopped (ended : End) : ended.outcome ≠ .stopped := by
  rcases ended with ⟨_ | _, _⟩ <;> nofun

/-- Let the interpreter be observed by a recorder with a limit.  If it comes to an end under the eyes of a recorder
without a limit, after no more events than may be noted, it comes to just the same with the limit: the same notes,
store, tree, result and log; and it does so when nobody observes it, but for the notes.

Otherwise it is stopped.  What has been noted then are the first notes under each larger limit, and the store that is
left is the one that the next of these notes tells of.

In every case it comes to what `execute` tells of the same tree, and whatever `finish?` tells is what it comes to
without an observer. -/
theorem execute_cut (store : Store) (tree : Node) (limit : Nat) :
    (∀ back, ComesTo .recordAll (.watched store) tree back → back.noted.length ≤ limit →
        back.outcome ≠ .stopped ∧ ComesTo (.recorder limit) (.watched store) tree back ∧
          ∀ {σ : Type} (observer : Observer σ),
            ComesTo observer (.unwatched store) tree
              ⟨⟨back.interpreter.store, none, back.interpreter.log⟩, back.tree, back.outcome⟩) ∧
      ((∀ back, ComesTo .recordAll (.watched store) tree back → limit < back.noted.length) →
        ∃ cut, ComesTo (.recorder limit) (.watched store) tree cut ∧ cut.outcome = .stopped ∧
          ∀ larger, limit < larger →
            ∃ back, ComesTo (.recorder larger) (.watched store) tree back ∧
              cut.noted = back.noted.take limit ∧
                ∃ sighting, back.noted[limit]? = some sighting ∧ cut.interpreter.store = sighting.store) ∧
      (∃ log, ComesTo (.recorder limit) (.watched store) tree
        ⟨⟨(execute limit store tree).store, some ((execute limit store tree).events.map Event.sighting), log⟩,
          (execute limit store tree).tree, (execute limit store tree).outcome⟩) ∧
      ∀ bound ended, finish? bound store tree = some ended →
        ∃ log, ∀ {σ : Type} (observer : Observer σ),
          ComesTo observer (.unwatched store) tree ⟨⟨ended.store, none, log⟩, ended.tree, ended.outcome⟩ := by
  refine ⟨?_, ?_, ⟨_, Interpreter.comesTo_execute limit store tree⟩, ?_⟩
  · intro back comes inTime
    rcases comes.exists_halts with ⟨events, ended, halts, rfl⟩
    have short : events.length ≤ limit := by simpa [Interpreter.Return.noted] using inTime
    have run (more : Nat) (enough : events.length ≤ more) :
        execute more store tree = ⟨events, ended.outcome, ended.machine⟩ := by
      obtain ⟨spare, rfl⟩ := Nat.exists_eq_add_of_le enough
      exact halts.run spare
    have observed := Interpreter.comesTo_execute limit store tree
    rw [run limit short, run (limit + 1) (by omega)] at observed
    exact ⟨ended.outcome_ne_stopped, observed, fun observer => halts.comesTo (observer.tellAll_none events)⟩
  · intro unfinished
    have late : ∀ events ended, (Machine.start store tree).Halts events ended → limit < events.length := by
      intro events ended halts
      simpa [Interpreter.Return.noted] using unfinished _ (halts.comesTo (Observer.tellAll_recordAll [] events))
    rcases Machine.exists_next_cut late with ⟨events, last, action, next, path, rfl, step, cut⟩
    have run : execute events.length store tree = ⟨events, .stopped, next⟩ := cut
    refine ⟨_, Interpreter.comesTo_execute events.length store tree, by rw [run], ?_⟩
    intro larger more
    refine ⟨_, Interpreter.comesTo_execute larger store tree, ?_⟩
    obtain ⟨extra, rfl⟩ : ∃ extra, larger = events.length + (extra + 1) :=
      ⟨larger - events.length - 1, by omega⟩
    have whole : (execute (events.length + (extra + 1)) store tree).events = _ := path.run_next step extra
    simp only [Interpreter.Return.noted, run, whole]
    refine ⟨by simp, Event.sighting ⟨action, next.store⟩, by simp, rfl⟩
  · intro bound ended finished
    rcases Machine.exists_halts_of_finish? finished with ⟨events, halts⟩
    exact ⟨_, fun observer => halts.comesTo (observer.tellAll_none events)⟩

/-- A body that fails at its second operation comes to its end within two events.  A loop that clears a variable for
ever is stopped at its fourth event, when its variable has just been cleared. -/
theorem execute_cut_endless :
    let failing := Node.root [.operation 1 (.clear "x"), .operation 2 (.decrement "y")]
    let endless := Node.root [.operation 1 (.clear "x"),
      .loop 2 (.compare .notEqual (.var "x") (.literal 1)) [.operation 3 (.clear "y")]]
    (∃ back, ComesTo .recordAll (.watched .empty) failing back ∧ back.outcome = .failed (.undefinedVariable "y") ∧
        ComesTo (.recorder 2) (.watched .empty) failing back ∧
          ∃ alone, ComesTo (.recorder 0) (.unwatched .empty) failing alone ∧ alone.outcome = back.outcome) ∧
      ∃ cut, ComesTo (.recorder 3) (.watched .empty) endless cut ∧ cut.outcome = .stopped ∧
        cut.interpreter.store.get? "y" = some 0 ∧
          ∃ back, ComesTo (.recorder 100) (.watched .empty) endless back ∧ cut.noted = back.noted.take 3 := by
  intro failing endless
  constructor
  · have comes : ComesTo .recordAll (.watched .empty) failing _ :=
      Interpreter.comesTo_of_visit? (show Interpreter.visit? _ 4 _ _ = some _ from rfl)
    rcases (execute_cut .empty failing 2).1 _ comes (Nat.le_refl 2) with ⟨_, recorded, unwatched⟩
    exact ⟨_, comes, rfl, recorded, _, unwatched _, rfl⟩
  · have stopped : ComesTo (.recorder 3) (.watched .empty) endless _ :=
      Interpreter.comesTo_of_visit? (show Interpreter.visit? _ 4 _ _ = some _ from rfl)
    -- what comes to an end in time is not stopped
    have unfinished : ∀ back, ComesTo .recordAll (.watched .empty) endless back → 3 < back.noted.length := by
      intro back comes
      refine Nat.lt_of_not_le fun inTime => ?_
      rcases (execute_cut .empty endless 3).1 back comes inTime with ⟨unstopped, recorded, _⟩
      exact unstopped (congrArg Interpreter.Return.outcome (recorded.unique stopped))
    rcases (execute_cut .empty endless 3).2.1 unfinished with ⟨cut, comes, outcome, longer⟩
    rcases longer 100 (by decide) with ⟨back, comesLater, front, _⟩
    obtain rfl := comes.unique stopped
    exact ⟨_, comes, outcome, rfl, back, comesLater, front⟩

end CounterLang
