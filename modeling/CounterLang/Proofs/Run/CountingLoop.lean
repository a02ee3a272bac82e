import CounterLang.Proofs.Run.Body
import CounterLang.Proofs.Run.Guards
import CounterLang.Proofs.Run.Sequence

/-!
# Counting loops — loops that go round a known number of times

A loop counts if one of its children counts its variable towards the number in its condition, and nothing else in the
loop gives a value to this variable.  Whatever the other children do to other variables, such a loop comes to its end
if they do, and the way that the variable has to go to the number is the number of its rounds.

- `Node.whileNot`                   : the loops of programs
- `Operation.Reaches`               : the steps from a value to a bound
- `Machine.Proceeds`                : all children of a loop but one come to their end
- `Machine.proceeds_of_finished`    : this can be seen from a run that comes to an end
- `exists_path_children`            : such children are carried out one by one
- `exists_path_round`               : one round of a counting loop
- `step_whileNot_of_ne`, `step_whileNot_of_eq` : what happens between two rounds
- `exists_path_finished`            : its rounds, one after the other, up to the end of the loop
- `counting_loop`                   : the run of a counting loop
-/

namespace CounterLang

/-- The loop that goes round as long as a variable is not a number. -/
def Node.whileNot (line : Nat) (name : String) (bound : Int64) (children : List Node) : Node :=
  .loop line (.compare .notEqual (.var name) (.literal bound)) children

/-- Such a loop around its body, with nothing else beside it. -/
def Frame.whileNot (line : Nat) (name : String) (bound : Int64) : Frame :=
  ⟨[], line, .compare .notEqual (.var name) (.literal bound), []⟩

/-! ## Counting towards a bound -/

/-- An operation counts a variable from a value to a bound in so many steps: upwards if the bound is not below the
value, or downwards if it is not above. -/
inductive Operation.Reaches (name : String) (bound value : Int64) : Operation → Nat → Prop where
  | up : value ≤ bound → Reaches name bound value (.increment name) (bound.toInt - value.toInt).toNat
  | down : bound ≤ value → Reaches name bound value (.decrement name) (value.toInt - bound.toInt).toNat

namespace Operation.Reaches

variable {name : String} {bound value : Int64} {op : Operation} {count : Nat}

theorem eq_bound (h : op.Reaches name bound value 0) : value = bound := by
  generalize none : 0 = count at h
  cases h with
  | up below =>
      have order := Int64.le_iff_toInt_le.1 below
      exact Int64.toInt_inj.1 (by omega)
  | down above =>
      have order := Int64.le_iff_toInt_le.1 above
      exact Int64.toInt_inj.1 (by omega)

/-- Below the bound there is room for one more step up. -/
theorem toInt_succ (below : value.toInt < bound.toInt) : (value + 1).toInt = value.toInt + 1 := by
  have lower := value.le_toInt
  have upper := bound.toInt_lt
  rw [Int64.toInt_add]
  exact Int.bmod_eq_of_le (by simp; omega) (by simp; omega)

/-- Above the bound there is room for one more step down. -/
theorem toInt_pred (above : bound.toInt < value.toInt) : (value - 1).toInt = value.toInt - 1 := by
  have lower := bound.le_toInt
  have upper := value.toInt_lt
  rw [Int64.toInt_sub]
  exact Int.bmod_eq_of_le (by simp; omega) (by simp; omega)

/-- As long as there are steps left the bound is not reached, and the operation makes one of them. -/
theorem exists_next (h : op.Reaches name bound value (count + 1)) :
    value ≠ bound ∧ ∃ next, op.Reaches name bound next count ∧
      ∀ store : Store, store.get? name = some value → op.apply store = .ok (store.set name next) := by
  generalize more : count + 1 = number at h
  cases h with
  | up _ =>
      have below : value.toInt < bound.toInt := by omega
      have next := toInt_succ below
      refine ⟨?_, value + 1, ?_, fun store found => Store.read_bind_eq_ok_iff.2 ⟨value, found, rfl⟩⟩
      · rintro rfl
        omega
      · have order : value + 1 ≤ bound := Int64.le_iff_toInt_le.2 (by omega)
        have steps : count = (bound.toInt - (value + 1).toInt).toNat := by omega
        rw [steps]
        exact .up order
  | down _ =>
      have above : bound.toInt < value.toInt := by omega
      have next := toInt_pred above
      refine ⟨?_, value - 1, ?_, fun store found => Store.read_bind_eq_ok_iff.2 ⟨value, found, rfl⟩⟩
      · rintro rfl
        omega
      · have order : bound ≤ value - 1 := Int64.le_iff_toInt_le.2 (by omega)
        have steps : count = ((value - 1).toInt - bound.toInt).toNat := by omega
        rw [steps]
        exact .down order

end Operation.Reaches

/-! ## Children that come to their end -/

/-- A machine comes to no child of the loop that it stands in, but the one at some position, with a store from which
this child does not come to its end. -/
def Machine.Proceeds (position : Nat) (machine : Machine) : Prop :=
  ∀ events store before child rest frame,
    machine.Path events ⟨store, before, child :: rest, [frame]⟩ → before.length ≠ position → Completes store child

section
variable {machine next : Machine} {events : List Event} {position line spot : Nat} {store : Store} {name : String}
  {bound value after : Int64} {op : Operation} {count : Nat} {front back before rest children : List Node}
  {frame : Frame}

theorem Machine.Proceeds.of_path (h : machine.Proceeds position) (path : machine.Path events next) :
    next.Proceeds position :=
  fun _ _ _ _ _ _ further elsewhere => h _ _ _ _ _ _ (path.trans further) elsewhere

/-- A path leads to where it starts, or to where some run is stopped. -/
theorem Machine.Path.exists_run (h : machine.Path events next) :
    next = machine ∨ ∃ limit, (machine.run limit).machine = next := by
  rcases h.exists_last_step with rfl | ⟨earlier, last, action, path, step⟩
  · exact .inl rfl
  · have run := path.run 0
    rw [run_zero_of_next step] at run
    exact .inr ⟨earlier.length, congrArg Run.machine run⟩

/-- In a run that comes to an end there are only so many machines to be looked at. -/
theorem Machine.proceeds_of_finished {limit bound : Nat} (outside : machine.frames = [])
    (finished : (machine.run limit).outcome = .finished)
    (completes : ∀ earlier ≤ limit, (machine.run earlier).machine.frames.length = 1 →
      (machine.run earlier).machine.before.length ≠ position → ∀ child ∈ (machine.run earlier).machine.after.head?,
        (execute bound (machine.run earlier).machine.store child).outcome = .finished) :
    machine.Proceeds position := by
  intro events store before child rest frame path elsewhere
  rcases path.exists_run with rfl | ⟨earlier, same⟩
  · cases outside
  · have inTime : (machine.run (min earlier limit)).machine = ⟨store, before, child :: rest, [frame]⟩ := by
      rcases Nat.le_total earlier limit with early | late
      · rw [Nat.min_eq_left early, same]
      · obtain ⟨more, rfl⟩ := Nat.exists_eq_add_of_le late
        rw [Nat.min_eq_right late, ← run_add_of_finished finished more, same]
    have here := completes (min earlier limit) (Nat.min_le_right earlier limit)
    rw [inTime] at here
    exact ⟨bound, here rfl elsewhere child rfl⟩

/-- Children that come to their end are carried out one by one. -/
theorem exists_path_children (nodes : List Node)
    (proceeds : Machine.Proceeds position ⟨store, before, nodes ++ rest, [frame]⟩)
    (elsewhere : position < before.length ∨ before.length + nodes.length ≤ position) (free : Unwritten name nodes) :
    ∃ events left nodes',
      Machine.Path ⟨store, before, nodes ++ rest, [frame]⟩ events ⟨left, nodes'.reverse ++ before, rest, [frame]⟩ ∧
        Fired nodes nodes' ∧ left.get? name = store.get? name ∧
        Covers before.length nodes.length (Machine.located ⟨store, before, nodes ++ rest, [frame]⟩ events) := by
  induction nodes generalizing store before with
  | nil => exact ⟨[], store, [], .refl, .nil, rfl, Covers.nil _⟩
  | cons node nodes ih =>
      rw [← List.singleton_append] at free
      obtain ⟨freeHere, freeLater⟩ := unwritten_append.1 free
      simp only [List.length_cons] at elsewhere
      have completes : Completes store node := proceeds [] _ _ _ _ _ .refl (by omega)
      rcases exists_path_child completes before (nodes ++ rest) frame with
        ⟨first, middle, node', path, fired, kept, covers⟩
      have elsewhereLater :
          position < (node' :: before).length ∨ (node' :: before).length + nodes.length ≤ position := by
        simp only [List.length_cons]
        omega
      rcases ih (proceeds.of_path path) elsewhereLater freeLater with
        ⟨later, left, nodes', further, firedLater, keptLater, coversLater⟩
      refine ⟨first ++ later, left, node' :: nodes', ?_, fired.append firedLater, keptLater.trans (kept freeHere), ?_⟩
      · simpa using path.trans further
      · have whole := covers.append coversLater
        rw [Nat.add_comm 1] at whole
        rw [List.cons_append, path.located_append, List.length_cons]
        exact whole

/-! ## Rounds -/

/-- One round of a counting loop: each child is carried out once, and the variable goes one step. -/
theorem exists_path_round
    (proceeds : Machine.Proceeds front.length ⟨store, [], front ++ .operation spot op :: back, [frame]⟩)
    (free : Unwritten name (front ++ back)) (found : store.get? name = some value)
    (counts : ∀ inside : Store, inside.get? name = some value → op.apply inside = .ok (inside.set name after)) :
    ∃ events left front' back',
      Machine.Path ⟨store, [], front ++ .operation spot op :: back, [frame]⟩ events
          ⟨left, (front' ++ .operation spot op :: back').reverse, [], [frame]⟩ ∧
        Fired front front' ∧ Fired back back' ∧ left.get? name = some after ∧
        Covers 0 (front.length + 1 + back.length)
          (Machine.located ⟨store, [], front ++ .operation spot op :: back, [frame]⟩ events) := by
  obtain ⟨freeFront, freeBack⟩ := unwritten_append.1 free
  -- up to the child that counts
  rcases exists_path_children front proceeds (.inr (by simp)) freeFront with
    ⟨first, there, front', pathFront, firedFront, keptFront, coversFront⟩
  rw [List.append_nil] at pathFront
  have length : front'.reverse.length = front.length := by rw [List.length_reverse, firedFront.length_eq]
  -- this child
  have result := counts there (keptFront.trans found)
  obtain ⟨pathCount, coversCount⟩ := path_operation result front'.reverse back frame
  have counted : (there.set name after).get? name = some after := by rw [Store.get?_set, if_pos rfl]
  rw [length] at coversCount
  -- and the children behind it
  have proceedsBack := (proceeds.of_path pathFront).of_path pathCount
  rw [← List.append_nil back] at proceedsBack
  rcases exists_path_children back proceedsBack (.inl (by simp [length])) freeBack with
    ⟨later, left, back', pathBack, firedBack, keptBack, coversBack⟩
  rw [List.append_nil] at pathBack coversBack
  rw [List.length_cons, length] at coversBack
  refine ⟨first ++ ([⟨.applied spot op, there.set name after⟩] ++ later), left, front', back', ?_, firedFront,
    firedBack, keptBack.trans counted, ?_⟩
  · simpa using pathFront.trans (pathCount.trans pathBack)
  · rw [pathFront.located_append, pathCount.located_append, Nat.add_assoc]
    have coversLater := coversCount.append coversBack
    rw [← Nat.zero_add front.length] at coversLater
    exact coversFront.append coversLater

/-- A machine that faces the loop enters it as long as the variable is not the number. -/
theorem step_whileNot_of_ne (faced : machine.point? = some ⟨[], .whileNot line name bound children, [], []⟩)
    (found : machine.store.get? name = some value) (differs : value ≠ bound) :
    machine.step = .next (.entered line) ⟨machine.store, [], children, [Frame.whileNot line name bound]⟩ := by
  have round : (Condition.compare .notEqual (.var name) (.literal bound)).holds machine.store = .ok true :=
    Condition.holds_compare_eq_ok_iff.2 (Comparison.decides_notEqual_iff.2 ⟨value, found, by simpa using differs⟩)
  exact Machine.step_eq_next_iff.2 ⟨_, faced, .entered round⟩

/-- It leaves the loop, and is finished, once the variable is the number. -/
theorem step_whileNot_of_eq (faced : machine.point? = some ⟨[], .whileNot line name bound children, [], []⟩)
    (found : machine.store.get? name = some bound) :
    machine.step = .next (.left line) ⟨machine.store, [.whileNot line name bound children], [], []⟩ := by
  have ended : (Condition.compare .notEqual (.var name) (.literal bound)).holds machine.store = .ok false :=
    Condition.holds_compare_eq_ok_iff.2 (Comparison.decides_notEqual_iff.2 ⟨bound, found, by simp⟩)
  exact Machine.step_eq_next_iff.2 ⟨_, faced, .left ended⟩

/-- At the end of its body a machine faces the loop again. -/
theorem point?_whileNot (store : Store) (children : List Node) :
    Machine.point? ⟨store, children.reverse, [], [Frame.whileNot line name bound]⟩ =
      some ⟨[], .whileNot line name bound children, [], []⟩ := by
  rw [Machine.point?, List.reverse_reverse]
  rfl

/-- The rounds of a counting loop, up to its end. -/
theorem exists_path_finished (reaches : op.Reaches name bound value count)
    (faced : machine.point? = some ⟨[], .whileNot line name bound (front ++ .operation spot op :: back), [], []⟩)
    (found : machine.store.get? name = some value) (free : Unwritten name (front ++ back))
    (proceeds : machine.Proceeds front.length) :
    ∃ events last, machine.Path events last ∧ last.step = .finished ∧
      rounds [] (machine.located events) = count ∧
        (∀ index < front.length + 1 + back.length, completions [index] (machine.located events) = count) ∧
          last.store.get? name = some bound := by
  induction count generalizing machine value front back with
  | zero =>
      obtain rfl := reaches.eq_bound
      have step := step_whileNot_of_eq faced found
      refine ⟨_, _, .step step .refl, rfl, ?_, ?_, found⟩
      · rw [Machine.located_cons faced step, rounds_cons]
        rfl
      · intro index _
        rw [Machine.located_cons faced step, completions_cons]
        rfl
  | succ count ih =>
      obtain ⟨differs, after, reachesAfter, counts⟩ := reaches.exists_next
      have step := step_whileNot_of_ne faced found differs
      have enter := Machine.Path.step step .refl
      rcases exists_path_round (proceeds.of_path enter) free found counts with
        ⟨inner, left, front', back', pathRound, firedFront, firedBack, foundAfter, covers⟩
      have lengthFront := firedFront.length_eq
      have lengthBack := firedBack.length_eq
      have proceedsAfter := (proceeds.of_path enter).of_path pathRound
      rw [← lengthFront] at proceedsAfter
      rcases ih reachesAfter (point?_whileNot left _) foundAfter ((firedFront.append firedBack).unwritten free)
          proceedsAfter with
        ⟨later, last, pathLater, finished, roundsLater, completionsLater, foundLast⟩
      refine ⟨_, last, .step step (pathRound.trans pathLater), finished, ?_, ?_, foundLast⟩
      · rw [Machine.located_cons faced step, pathRound.located_append, rounds_cons, rounds_append, covers.inside,
          roundsLater]
        simp [Point.address, address, Event.looping, Action.looping, Nat.add_comm]
      · intro index inside
        have once := covers.once index
        rw [if_pos ⟨Nat.zero_le index, by omega⟩] at once
        rw [Machine.located_cons faced step, pathRound.located_append, completions_cons, completions_append, once,
          completionsLater index (by omega)]
        simp [Point.address, address, Nat.add_comm]

end

/-! ## Executions -/

/-- A loop with one child that counts its variable towards its number, and no other operation that writes the variable:
if all other children come to their end whenever the loop comes to them, so does the loop.  It goes round as often as
there are steps from the value of the variable to the number, carries out each of its children once in each round, and
leaves the number in the variable. -/
theorem counting_loop {store : Store} {line spot : Nat} {name : String} {op : Operation} {value bound : Int64}
    {count : Nat} {front back : List Node} (reaches : op.Reaches name bound value count)
    (found : store.get? name = some value) (free : Unwritten name (front ++ back))
    (others : (Machine.start store (.whileNot line name bound (front ++ .operation spot op :: back))).Proceeds
      front.length) :
    ∃ needed, ∀ more,
      let loop := Node.whileNot line name bound (front ++ .operation spot op :: back)
      let run := execute (needed + more) store loop
      let entries := (Machine.start store loop).located run.events
      run.outcome = .finished ∧ rounds [] entries = count ∧
        (∀ index < loop.children.length, completions [index] entries = count) ∧ run.store.get? name = some bound := by
  have faced : (Machine.start store (.whileNot line name bound (front ++ .operation spot op :: back))).point? =
      some ⟨[], .whileNot line name bound (front ++ .operation spot op :: back), [], []⟩ := rfl
  rcases exists_path_finished reaches faced found free others with
    ⟨events, last, path, finished, roundsAll, completionsAll, foundLast⟩
  refine ⟨events.length, fun more => ?_⟩
  have run := path.run more
  rw [Machine.run_of_finished finished, List.append_nil] at run
  intro loop
  have whole : execute (events.length + more) store loop = ⟨events, .finished, last⟩ := run
  rw [whole]
  intro run' entries
  refine ⟨rfl, roundsAll, ?_, foundLast⟩
  intro index inside
  have length : loop.children.length = front.length + 1 + back.length := by
    simp only [loop, Node.whileNot, Node.children, List.length_append, List.length_cons]
    omega
  exact completionsAll index (by omega)

/-- A loop that counts down to a negative number, with a loop in front of the child that counts and another child
behind it; the inner loop completes each time, since its variable is cleared before. -/
theorem counting_loop_nested :
    let front := [.operation 3 (.clear "y"), .whileNot 4 "y" 1 [.operation 5 (.increment "y")]]
    let back := [Node.operation 8 (.increment "y")]
    let loop := Node.whileNot 2 "x" (-1) (front ++ .operation 7 (.decrement "x") :: back)
    let store := (Store.empty.set "x" 1)
    compile .strict "clear x;while x not -1 do;clear y;while y not 1 do;incr y;end;decr x;incr y;end" =
        .ok (Node.root [.operation 1 (.clear "x"), loop]) ∧
      (Machine.start store loop).Proceeds 2 ∧
        ∃ needed, ∀ more,
          (execute (needed + more) store loop).outcome = .finished ∧
            (execute (needed + more) store loop).store.get? "x" = some (-1) ∧
            rounds [] ((Machine.start store loop).located (execute (needed + more) store loop).events) = 2 ∧
            completions [1] ((Machine.start store loop).located (execute (needed + more) store loop).events) = 2 := by
  intro front back loop store
  have compiled : compile .strict "clear x;while x not -1 do;clear y;while y not 1 do;incr y;end;decr x;incr y;end" =
      .ok (Node.root [.operation 1 (.clear "x"), loop]) := rfl
  have proceeds : (Machine.start store loop).Proceeds 2 := by
    -- twenty events are enough for the loop, and nine for each of its children
    refine @Machine.proceeds_of_finished (Machine.start store loop) 2 20 9 rfl ?_ ?_
    · decide +kernel
    · decide +kernel
  have reaches : Operation.Reaches "x" (-1) 1 (.decrement "x") 2 := .down (by decide)
  have free : Unwritten "x" (front ++ back) := by decide
  rcases counting_loop reaches rfl free proceeds with ⟨needed, runs⟩
  refine ⟨compiled, proceeds, needed, fun more => ?_⟩
  rcases runs more with ⟨finished, rounds, completions, found⟩
  exact ⟨finished, found, rounds, completions 1 (by decide)⟩

end CounterLang
