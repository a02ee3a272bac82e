import CounterLang.Proofs.Compilation.Concatenation
import CounterLang.Proofs.Compilation.Repair
import CounterLang.Proofs.Flat.Machine
import CounterLang.Proofs.Run.Transport

/-!
# Sequence — running one program after another

A program behind another runs as the two do one after the other on one store.  As long as the first has not
come to its end, nothing is seen of the second; from there on the second is seen, on its moved lines.  Only the
events on line 0 differ, since each root has its own.

- `Machine.among`             : a machine in a forest of its own, without a root
- `Run.closed`                : what is seen of a root whose body runs in a given way
- `observation_execute_root`  : what is seen of a root, told from its body
- `InSequence`                : a tree does what two trees do one after the other
- `Node.inSequence`           : so does the root of two bodies, one behind the other
- `compile_execute_append`    : and the tree of two programs with a semicolon between them
-/

namespace CounterLang

/-! ## Roots and bodies -/

/-- The loop of a root around its body, once its trigger has fired. -/
def Frame.root : Frame :=
  ⟨[], 0, .once true, []⟩

/-- A machine in front of a forest that nothing stands around. -/
def Machine.among (store : Store) (nodes : List Node) : Machine :=
  ⟨store, [], nodes, []⟩

/-- What is seen of a root from inside, if its body runs in a given way: behind the end of the body the root is
left, if one more event may be recorded. -/
def Run.closed (limit : Nat) (run : Run) : Observation :=
  match run.outcome with
  | .finished =>
    if run.events.length < limit then
      ⟨run.observation.events ++ [(0, false, run.store)], .finished, run.store⟩
    else ⟨run.observation.events, .stopped, run.store⟩
  | _ => run.observation

namespace Machine

theorem length_events_le (machine : Machine) (limit : Nat) : (machine.run limit).events.length ≤ limit := by
  rcases run : machine.run limit with ⟨events, outcome, final⟩
  rcases run_eq_iff.1 run with ⟨_, left, _, length, _⟩
  show events.length ≤ limit
  omega

/-- A run that has come to an end does not change if more events may be recorded. -/
theorem run_add_of_finished {machine : Machine} {limit : Nat} (h : (machine.run limit).outcome = .finished)
    (more : Nat) : machine.run (limit + more) = machine.run limit := by
  rcases run : machine.run limit with ⟨events, outcome, final⟩
  rcases run_eq_iff.1 run with ⟨last, left, path, length, ends⟩
  rw [run] at h
  cases ends with
  | finished step => exact run_eq_iff.2 ⟨_, left + more, path, by omega, .finished step⟩
  | failed step => cases h
  | stopped step => cases h

end Machine

/-! ## A root told from its body -/

/-- Behind its body a root is left, and nothing more is seen. -/
theorem observation_exit (store : Store) (passed : List Node) (more : Nat) :
    (Machine.run more ⟨store, passed, [], [Frame.root]⟩).observation =
      Run.closed more ⟨[], .finished, ⟨store, [], [], []⟩⟩ := by
  have exit : Machine.step ⟨store, passed, [], [Frame.root]⟩ =
      .next (.left 0) ⟨store, [.loop 0 (.once true) passed.reverse], [], []⟩ := rfl
  cases more with
  | zero =>
      rw [Machine.run_zero_of_next exit]
      rfl
  | succ more =>
      rw [Machine.run_succ_of_next exit, Machine.run_of_finished rfl]
      rfl

/-- Events in front of a run are seen in front of it. -/
theorem Run.observation_append (events : List Event) (run : Run) :
    Run.observation { run with events := events ++ run.events } =
      { run.observation with
        events := (events.map fun event => (event.line, event.looping, event.store)) ++ run.observation.events } := by
  simp [Run.observation, Run.store]

/-- What is seen of a root from inside, whatever it has passed already, is told from what it has not passed. -/
theorem observation_inside (store : Store) (passed nodes : List Node) (limit : Nat) :
    (Machine.run limit ⟨store, passed, nodes, [Frame.root]⟩).observation =
      ((Machine.among store nodes).run limit).closed limit := by
  let outer : Surroundings := ⟨passed, [], [Frame.root]⟩
  have inside : (⟨store, passed, nodes, [Frame.root]⟩ : Machine) = (Machine.among store nodes).within outer := by
    simp [Machine.within, Machine.among, Surroundings.around, outer]
  rcases run : (Machine.among store nodes).run limit with ⟨events, outcome, final⟩
  rw [inside]
  cases outcome with
  | finished =>
      -- what is left behind the end of the body decides whether leaving the root is seen
      have recorded : events.length ≤ limit := by
        simpa [run] using (Machine.among store nodes).length_events_le limit
      rcases Nat.exists_eq_add_of_le recorded with ⟨more, rfl⟩
      rcases Machine.run_within_of_finished outer run more with ⟨later, whole⟩
      rw [whole, Run.observation_append, observation_exit]
      cases more with
      | zero => simp [Run.closed, Run.observation, Run.store]
      | succ more => simp [Run.closed, Run.observation, Run.store]
  | failed error =>
      rw [Machine.run_within run (by simp)]
      rfl
  | stopped =>
      rw [Machine.run_within run (by simp)]
      rfl

/-- A root whose body is run through for the first time. -/
theorem observation_execute_root (store : Store) (nodes : List Node) (limit : Nat) :
    (execute (limit + 1) store (Node.root nodes)).observation =
      (((Machine.among store nodes).run limit).closed limit).cons (0, true, store) := by
  have entered : (Machine.start store (Node.root nodes)).step =
      .next (.entered 0) ⟨store, [], nodes, [Frame.root]⟩ := rfl
  rw [execute, Machine.run_succ_of_next entered, Run.observation_cons, observation_inside]
  rfl

/-- Entering the root is the first event of all. -/
theorem observation_execute_zero (store : Store) (nodes : List Node) :
    (execute 0 store (Node.root nodes)).observation = ⟨[], .stopped, store⟩ := rfl

/-! ## One body behind another -/

/-- As long as the front part of a body has not come to its end, nothing else is seen. -/
theorem closed_front {store : Store} {front back : List Node} {limit : Nat}
    (h : ((Machine.among store front).run limit).outcome ≠ .finished) :
    ((Machine.among store (front ++ back)).run limit).closed limit =
      ((Machine.among store front).run limit).closed limit := by
  let outer : Surroundings := ⟨[], back, []⟩
  have inside : Machine.among store (front ++ back) = (Machine.among store front).within outer := by
    simp [Machine.within, Machine.among, Surroundings.around, outer]
  rcases run : (Machine.among store front).run limit with ⟨events, outcome, final⟩
  rw [run] at h
  rw [inside, Machine.run_within run h]
  cases outcome with
  | finished => exact absurd rfl h
  | failed error => rfl
  | stopped => rfl

/-- From the end of the front part of a body on, the rest of the body is seen. -/
theorem closed_back {store : Store} {front back : List Node} {limit : Nat} {events : List Event} {final : Machine}
    (h : (Machine.among store front).run limit = ⟨events, .finished, final⟩) (more : Nat) :
    ((Machine.among store (front ++ back)).run (events.length + more)).closed (events.length + more) =
      let rest := ((Machine.among final.store back).run more).closed more
      { rest with
        events := (events.map fun event => (event.line, event.looping, event.store)) ++ rest.events } := by
  let outer : Surroundings := ⟨[], back, [Frame.root]⟩
  have inside : (⟨store, [], front ++ back, [Frame.root]⟩ : Machine) = (Machine.among store front).within outer := by
    simp [Machine.within, Machine.among, Surroundings.around, outer]
  rcases Machine.run_within_of_finished outer h more with ⟨passed, whole⟩
  rw [← observation_inside store [], inside, whole, Run.observation_append, observation_inside]

/-! ## Inner events -/

namespace Observation

/-- The events on other lines than that of the root. -/
def inner (seen : Observation) : List (Nat × Bool × Store) :=
  seen.events.filter fun event => event.1 != 0

/-- An event on a line increased by a number. -/
def move (amount : Nat) (event : Nat × Bool × Store) : Nat × Bool × Store :=
  (amount + event.1, event.2)

end Observation

namespace Run

theorem inner_closed (limit : Nat) (run : Run) : (run.closed limit).inner = run.observation.inner := by
  rcases run with ⟨events, outcome, final⟩
  cases outcome with
  | finished =>
      by_cases due : events.length < limit
      · simp [closed, Observation.inner, observation, due]
      · simp [closed, Observation.inner, observation, due]
  | failed error => rfl
  | stopped => rfl

theorem store_closed (limit : Nat) (run : Run) : (run.closed limit).store = run.store := by
  rcases run with ⟨events, outcome, final⟩
  cases outcome with
  | finished =>
      simp only [closed]
      split <;> rfl
  | failed error => rfl
  | stopped => rfl

/-- A root ends as its body does, unless leaving the root may not be seen any more. -/
theorem outcome_closed (limit : Nat) (run : Run) :
    (run.closed limit).outcome =
      if run.outcome = .finished ∧ limit ≤ run.events.length then .stopped else run.outcome := by
  rcases run with ⟨events, outcome, final⟩
  cases outcome with
  | finished =>
      by_cases due : events.length < limit
      · simp [closed, due]
      · simp [closed, due, Nat.not_lt.1 due]
  | failed error => rfl
  | stopped => rfl

theorem outcome_closed_eq_finished_iff {limit : Nat} {run : Run} :
    (run.closed limit).outcome = .finished ↔ run.outcome = .finished ∧ run.events.length < limit := by
  rw [outcome_closed]
  split
  next closed => simp [closed]
  next still => simp_all

theorem outcome_closed_ne_failed {limit : Nat} {run : Run} (h : ∀ error, run.outcome ≠ .failed error)
    (error : RuntimeError) : (run.closed limit).outcome ≠ .failed error := by
  rw [outcome_closed]
  split
  · simp
  · exact h error

theorem observation_shift (amount : Nat) (run : Run) :
    ((Relabelling.shift amount).run run).observation =
      { run.observation with events := run.observation.events.map (Observation.move amount) } := by
  simp [observation, store, Relabelling.run, Relabelling.machine, Relabelling.event, Observation.move, Event.line,
    Event.looping, Function.comp_def]

/-- Events on other lines than that of the root stay there if all lines are increased. -/
theorem inner_shift (amount : Nat) {run : Run} (inside : ∀ event ∈ run.events, event.line ≠ 0) :
    ((Relabelling.shift amount).run run).observation.inner = run.observation.inner.map (Observation.move amount) := by
  have all : ∀ event ∈ run.observation.events, event.1 ≠ 0 := by
    simpa [observation] using inside
  have here : run.observation.inner = run.observation.events :=
    List.filter_eq_self.2 fun event mem => by simpa using all event mem
  rw [here, observation_shift]
  refine List.filter_eq_self.2 ?_
  intro event mem
  rcases List.mem_map.1 mem with ⟨old, found, rfl⟩
  have behind := all old found
  simp [Observation.move]
  omega

end Run

/-- On lines that are increased by one nothing happens on line 0. -/
theorem line_ne_zero {store : Store} {positions : List Node} {limit : Nat} :
    ∀ event ∈ ((Machine.among store (positions.map (Relabelling.shift 1).node)).run limit).events,
      event.line ≠ 0 := by
  have moved := (Relabelling.shift 1).run_machine (fun _ => rfl)
    (Machine.among store positions) limit
  intro event mem
  rw [show Machine.among store (positions.map (Relabelling.shift 1).node) =
    (Relabelling.shift 1).machine (Machine.among store positions) from rfl, moved] at mem
  rcases List.mem_map.1 mem with ⟨old, _, rfl⟩
  simp [Relabelling.event, Event.line]

/-! ## Programs in sequence -/

/-- A tree does, from some store, what two trees do one after the other; the lines of the second one are
increased by a number. -/
structure InSequence (amount : Nat) (store : Store) (first second whole : Node) : Prop where
  /-- As long as the first tree has not come to its end, nothing else is seen. -/
  before : ∀ limit, (execute (limit + 1) store first).outcome ≠ .finished →
    (execute limit store whole).observation = (execute limit store first).observation
  /-- If it has, the second tree is seen in the store that the first has left, up to the events of roots. -/
  after : ∀ limit, (execute limit store first).outcome = .finished → ∀ more,
    let firstSeen := (execute limit store first).observation
    let secondSeen := (execute (more + 1) firstSeen.store second).observation
    let seen := (execute (firstSeen.events.length - 1 + more) store whole).observation
    seen.outcome = secondSeen.outcome ∧ seen.store = secondSeen.store ∧
      seen.inner = firstSeen.inner ++ secondSeen.inner.map (Observation.move amount)

/-- A body behind another one, on moved lines, is seen as it is seen on its own. -/
theorem closed_shifted_back (amount : Nat) (positions : List Node) {store : Store} {front : List Node} {limit : Nat}
    {events : List Event} {final : Machine}
    (h : (Machine.among store front).run limit = ⟨events, .finished, final⟩) (more : Nat) :
    let back := positions.map (Relabelling.shift 1).node
    let rest := ((Machine.among final.store back).run more).closed more
    let whole := ((Machine.among store (front ++ back.map (Relabelling.shift amount).node)).run
      (events.length + more)).closed (events.length + more)
    whole.outcome = rest.outcome ∧ whole.store = rest.store ∧
      whole.inner =
        (Run.observation ⟨events, .finished, final⟩).inner ++ rest.inner.map (Observation.move amount) := by
  intro back rest whole
  let body := (Machine.among final.store back).run more
  have moved : (Machine.among final.store (back.map (Relabelling.shift amount).node)).run more =
      (Relabelling.shift amount).run body :=
    (Relabelling.shift amount).run_machine (fun _ => rfl) (Machine.among final.store back) more
  have whole_eq : whole = _ := closed_back h more
  rw [moved] at whole_eq
  have inner : (((Relabelling.shift amount).run body).closed more).inner =
      rest.inner.map (Observation.move amount) := by
    rw [Run.inner_closed, Run.inner_closed, Run.inner_shift amount line_ne_zero]
  have outcome : (((Relabelling.shift amount).run body).closed more).outcome = rest.outcome := by
    rw [Run.outcome_closed, Run.outcome_closed]
    simp [Relabelling.run, body]
  have store' : (((Relabelling.shift amount).run body).closed more).store = rest.store := by
    rw [Run.store_closed, Run.store_closed]
    rfl
  rw [whole_eq]
  refine ⟨outcome, store', ?_⟩
  rw [← inner]
  exact List.filter_append ..

theorem Node.inSequence (amount : Nat) (store : Store) (front positions : List Node) :
    let back := positions.map (Relabelling.shift 1).node
    InSequence amount store (Node.root front) (Node.root back)
      (Node.root (front ++ back.map (Relabelling.shift amount).node)) where
  before := by
    intro limit unfinished
    cases limit with
    | zero => rw [observation_execute_zero, observation_execute_zero]
    | succ limit =>
        -- the front has not come to its end yet, since one more event would be enough to see the end of the root
        have open' : ((Machine.among store front).run limit).outcome ≠ .finished := by
          intro finished
          apply unfinished
          have seen := congrArg Observation.outcome (observation_execute_root store front (limit + 1))
          rw [Machine.run_add_of_finished finished] at seen
          refine seen.trans (Run.outcome_closed_eq_finished_iff.2 ⟨finished, ?_⟩)
          have := (Machine.among store front).length_events_le limit
          omega
        rw [observation_execute_root, observation_execute_root, closed_front open']
  after := by
    intro limit finished more
    cases limit with
    | zero => cases finished
    | succ limit =>
        rcases run : (Machine.among store front).run limit with ⟨events, outcome, final⟩
        have first := observation_execute_root store front limit
        rw [run] at first
        obtain ⟨rfl, due⟩ : outcome = .finished ∧ events.length < limit :=
          Run.outcome_closed_eq_finished_iff.1 ((congrArg Observation.outcome first).symm.trans finished)
        -- the first tree has been seen to enter its root, to run through its body, and to leave its root
        have bracketed : (execute (limit + 1) store (Node.root front)).observation =
            ⟨(0, true, store) :: (Run.observation ⟨events, .finished, final⟩).events ++ [(0, false, final.store)],
              .finished, final.store⟩ := by
          simpa [Run.closed, due, Observation.cons, Run.store] using first
        have length : (Run.observation ⟨events, .finished, final⟩).events.length = events.length := by
          simp [Run.observation]
        rw [bracketed]
        simp only [List.cons_append, List.length_cons, List.length_append, List.length_nil, length]
        rw [show events.length + (0 + 1) + 1 - 1 + more = events.length + more + 1 by omega,
          observation_execute_root, observation_execute_root]
        have whole := closed_shifted_back amount positions run more
        simp only at whole
        simpa [Observation.cons, Observation.inner] using whole

/-- Behind a program that strict mode accepts, another program has the errors that it has on its own, or it
becomes the rest of the tree; in either case its lines are increased by the number of statements in front of it.
The tree of both does what the two trees do one after the other, whatever the store they start from. -/
theorem compile_execute_append {a : String} {first : Node} (h : compile .strict a = .ok first) (b : String)
    (mode : Mode) :
    let amount := a.toList.count ';' + 1
    (∀ error, compile mode b = .error error → compile mode (a ++ ";" ++ b) = .error (error.shift amount)) ∧
      ∀ second, compile mode b = .ok second →
        ∃ whole, compile mode (a ++ ";" ++ b) = .ok whole ∧
          whole = Node.root (first.children ++ second.children.map (Relabelling.shift amount).node) ∧
          ∀ store, InSequence amount store first second whole := by
  rcases exists_spans_of_compile h with ⟨_, front, _, rfl⟩
  have joined := compile_append h b mode
  intro amount
  refine ⟨?_, ?_⟩
  · intro error fails
    rw [joined, fails]
  · intro second accepted
    rw [joined, accepted]
    refine ⟨_, rfl, rfl, ?_⟩
    rcases exists_spans_of_compile accepted with ⟨_, back, spans, rfl⟩
    rcases spans.exists_shift with ⟨positions, rfl⟩
    intro store
    exact Node.inSequence amount store front positions

/-- Behind a loop, a program with a stray end: lenient mode goes on up to the end, strict mode finds it on its
moved line. -/
theorem compile_execute_append_strayEnd :
    (∃ whole, compile .lenient ("incr n;while n not 0 do;decr n;end" ++ ";" ++ "incr m;;end;clear n") = .ok whole ∧
        whole = Node.root
          [.operation 1 (.increment "n"),
           .loop 2 (.compare .notEqual (.var "n") (.literal 0)) [.operation 3 (.decrement "n")],
           .operation 5 (.increment "m")] ∧
        ∀ store, InSequence 4 store
          (Node.root [.operation 1 (.increment "n"),
            .loop 2 (.compare .notEqual (.var "n") (.literal 0)) [.operation 3 (.decrement "n")]])
          (Node.root [.operation 1 (.increment "m")]) whole) ∧
      compile .strict ("incr n;while n not 0 do;decr n;end" ++ ";" ++ "incr m;;end;clear n") =
        .error (.unexpectedEnd 7) := by
  have front : compile .strict "incr n;while n not 0 do;decr n;end" = .ok (Node.root
      [.operation 1 (.increment "n"),
        .loop 2 (.compare .notEqual (.var "n") (.literal 0)) [.operation 3 (.decrement "n")]]) := rfl
  have lenient : compile .lenient "incr m;;end;clear n" = .ok (Node.root [.operation 1 (.increment "m")]) := rfl
  have strict : compile .strict "incr m;;end;clear n" = .error (.unexpectedEnd 3) := rfl
  constructor
  · rcases (compile_execute_append front "incr m;;end;clear n" .lenient).2 _ lenient with
      ⟨whole, compiled, shape, sequence⟩
    exact ⟨whole, compiled, by simpa [Node.root, Node.children] using shape, sequence⟩
  · exact (compile_execute_append front "incr m;;end;clear n" .strict).1 _ strict

end CounterLang
