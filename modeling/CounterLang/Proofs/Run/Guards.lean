import CounterLang.Proofs.Run.Snapshots
import CounterLang.Proofs.Run.Vocabulary

/-!
# Guards — what is known of the store when a loop is entered and when it is left

A loop is entered only while its comparison holds, and left only when the comparison has turned out false; each of its
events carries the store that the comparison has been made in.  So whatever the body does to the variables that are
compared, at each boundary between two rounds they stand in a known relation.  In a compiled program a line belongs to
one statement alone, and the statement on the line of an event tells which relation that is.

- `Comparison.Decides`        : what a comparison says of a store
- `Point.Moves.decides`       : a step of a loop goes by the comparison in its own store
- `Machine.Path.decides`      : so does each event of the loop on a path
- `Machine.Path.exists_last_step` : how a path comes to its end
- `execute_decides_left`      : a loop that has come to its end leaves its comparison false
- `execute_guards`            : all of this, and what it says of the statements of a program
-/

namespace CounterLang

open Statement (Denotes)

/-! ## Comparisons in a store -/

/-- There is a value for either side of a comparison, and it holds between the two, or it does not. -/
def Comparison.Decides (comparison : Comparison) (left right : Operand) (store : Store) (round : Bool) : Prop :=
  ∃ a b, store.resolve left = .ok a ∧ store.resolve right = .ok b ∧ comparison.holds a b = round

section
variable {store : Store} {comparison : Comparison} {left right : Operand} {round : Bool} {name : String}
  {value : Int64} {line : Nat}

theorem Condition.holds_compare_eq_ok_iff :
    (compare comparison left right).holds store = .ok round ↔ comparison.Decides left right store round := by
  rw [Comparison.Decides]
  cases foundLeft : store.resolve left with
  | error error => simp [holds, foundLeft, bind, Except.bind]
  | ok a =>
      cases foundRight : store.resolve right with
      | error error => simp [holds, foundLeft, foundRight, bind, Except.bind]
      | ok b => simp [holds, foundLeft, foundRight, bind, Except.bind, pure, Except.pure]

/-- The comparison at the head of a loop in a program is that of a variable with a number. -/
theorem Comparison.decides_notEqual_iff :
    notEqual.Decides (.var name) (.literal value) store round ↔
      ∃ found, store.get? name = some found ∧ (round = true ↔ found ≠ value) := by
  cases there : store.get? name with
  | none => simp [Decides, Store.resolve, Store.read, there]
  | some found => cases round <;> simp [Decides, Store.resolve, Store.read, there, holds]

/-- A comparison is what it was, whatever has fired since. -/
theorem Label.Fired.compare {later : Label} (h : Label.Fired (.loop line (.compare comparison left right)) later) :
    later = .loop line (.compare comparison left right) := by
  cases h with
  | loop condition =>
      cases condition with
      | refl => rfl

end

/-! ## Steps and paths -/

section
variable {store : Store} {comparison : Comparison} {left right : Operand} {line position : Nat}
  {children : List Node} {point : Point} {action : Action} {machine next last : Machine} {tree root : Node}
  {events : List Event} {event : Event} {address : List Nat}

/-- A loop is entered where its comparison holds, and left where it does not. -/
theorem Point.Moves.decides (h : point.Moves store action next)
    (loop : point.node.label = .loop line (.compare comparison left right)) :
    comparison.Decides left right next.store action.looping := by
  cases h with
  | applied _ => cases loop
  | entered result =>
      obtain ⟨_, rfl⟩ := Label.loop.inj loop
      exact Condition.holds_compare_eq_ok_iff.1 result
  | left result =>
      obtain ⟨_, rfl⟩ := Label.loop.inj loop
      exact Condition.holds_compare_eq_ok_iff.1 result

/-- A step behind the last node of all is one that leaves a loop, or an operation. -/
theorem Point.Moves.frames_eq_nil (h : point.Moves store action next) (top : next.frames = []) :
    point.frames = [] ∧ action.looping = false := by
  cases h with
  | applied _ => exact ⟨top, rfl⟩
  | entered _ => cases top
  | left _ => exact ⟨top, rfl⟩

namespace Machine

theorem Path.decides (h : Path machine events last) (origin : Fired [tree] machine.forest)
    (mem : (address, event) ∈ machine.located events)
    (found : tree.descendant? address = some (.loop line (.compare comparison left right) children)) :
    comparison.Decides left right event.store event.looping := by
  obtain ⟨position, here⟩ := List.mem_iff_getElem?.1 mem
  rcases h.exists_moves origin here with ⟨before, point, next, node, _, moves, same, there, fired⟩
  obtain rfl := Option.some.inj (found.symm.trans there)
  rw [← same]
  exact moves.decides fired.label.compare

/-- A path stays where it is, or its last step leads to its end. -/
theorem Path.exists_last_step (h : Path machine events last) :
    last = machine ∨ ∃ front prev action, Path machine front prev ∧ prev.step = .next action last := by
  induction h with
  | refl => exact .inl rfl
  | @step machine next last action events step _ ih =>
      rcases ih with rfl | ⟨front, prev, action', path, last⟩
      · exact .inr ⟨[], machine, action, .refl, step⟩
      · exact .inr ⟨_, prev, action', .step step path, last⟩

end Machine

/-! ## Executions -/

/-- A loop that has come to its end leaves a store in which its comparison can be made, and does not hold. -/
theorem execute_decides_left {limit : Nat}
    (h : (execute limit store (.loop line (.compare comparison left right) children)).outcome = .finished) :
    comparison.Decides left right
      (execute limit store (.loop line (.compare comparison left right) children)).store false := by
  rcases run : execute limit store (.loop line (.compare comparison left right) children) with ⟨events, outcome, final⟩
  rw [run] at h
  obtain rfl : outcome = .finished := h
  rcases Machine.run_eq_iff.1 run with ⟨last, _, path, _, ends⟩
  cases ends with
  | finished step =>
      obtain ⟨none, top⟩ := Machine.eq_nil_of_finished step
      rcases path.exists_last_step with rfl | ⟨front, prev, action, earlier, lastStep⟩
      · cases none
      · -- the last step is taken at the root, and it does not lead into the loop
        rcases Machine.step_eq_next_iff.1 lastStep with ⟨point, faced, moves⟩
        obtain ⟨outside, notLooping⟩ := moves.frames_eq_nil top
        have origin := earlier.fired
        rw [← Machine.forest_of_point? faced] at origin
        obtain ⟨node, found, fired⟩ := Point.exists_origin origin
        have address : point.address = [] := by rw [Point.address, outside, CounterLang.address]
        rw [address] at found
        obtain rfl := Option.some.inj found
        have decided := moves.decides fired.label.compare
        rw [notLooping] at decided
        exact decided

/-- The events on the line of the head of a loop go by the comparison that it denotes. -/
theorem execute_decides_of_compile {mode : Mode} {program text : String} {limit : Nat} (h : compile mode program = .ok root)
    (mem : event ∈ (execute limit store root).events) (found : (Source.statements program)[position]? = some text)
    (denotes : Denotes text (.opening (.compare comparison left right))) (line : event.line = position + 1) :
    comparison.Decides left right event.store event.looping := by
  obtain ⟨last, path⟩ := (Machine.start store root).exists_path_run limit
  rw [execute, ← path.map_snd_located] at mem
  obtain ⟨⟨address, event⟩, located, rfl⟩ := List.mem_map.1 mem
  obtain ⟨index, here⟩ := List.mem_iff_getElem?.1 located
  rcases path.exists_moves (.refl [root]) here with ⟨before, point, next, node, _, moves, same, there, fired⟩
  have listed : node.label ∈ Node.labels [root] := labels_subset_of_descendant? there (label_mem_labels_cons node [])
  have onLine : node.label.line = position + 1 := (moves.line.trans fired.label.line).symm.trans line
  have labelled := labels_of_line h listed found onLine
  -- the text denotes one statement, so that the node is a loop with this comparison
  cases node with
  | operation _ op =>
      cases labelled with
      | operation other => cases denotes.unique other
  | loop _ condition children =>
      cases labelled with
      | loop other =>
          obtain rfl := Statement.opening.inj (denotes.unique other)
          exact path.decides (.refl [root]) located there

end

/-- In a run of a compiled program, an event on the line of a statement that begins a loop tells whether the variable
of the loop differs from its number: it does if the loop is entered, and it is that number if the loop is left.  In
any tree, each event of a loop with a comparison tells whether the comparison holds in the store of the event; and
when such a loop has come to its end, the comparison can be made in the store that is left, and does not hold. -/
theorem execute_guards :
    (∀ mode program root, compile mode program = .ok root → ∀ store limit,
        ∀ event ∈ (execute limit store root).events, ∀ position text name value,
          (Source.statements program)[position]? = some text →
          Denotes text (.opening (.compare .notEqual (.var name) (.literal value))) → event.line = position + 1 →
            ∃ found, event.store.get? name = some found ∧ (event.looping = true ↔ found ≠ value)) ∧
      (∀ limit store tree address event line comparison left right children,
        (address, event) ∈ (Machine.start store tree).located (execute limit store tree).events →
        tree.descendant? address = some (.loop line (.compare comparison left right) children) →
          comparison.Decides left right event.store event.looping) ∧
      ∀ limit store line comparison left right children,
        let run := execute limit store (.loop line (.compare comparison left right) children)
        run.outcome = .finished → comparison.Decides left right run.store false := by
  refine ⟨?_, ?_, ?_⟩
  · intro mode program root compiled store limit event mem position text name value found denotes line
    exact Comparison.decides_notEqual_iff.1 (execute_decides_of_compile compiled mem found denotes line)
  · intro limit store tree address event line comparison left right children mem found
    obtain ⟨last, path⟩ := (Machine.start store tree).exists_path_run limit
    exact path.decides (.refl [tree]) mem found
  · intro limit store line comparison left right children run finished
    exact execute_decides_left finished

/-- A loop of a program whose body overshoots and comes back; and a loop that goes round as long as a number is
greater than its variable. -/
theorem execute_guards_rounds :
    let root := Node.root [.operation 1 (.clear "x"), .loop 3 (.compare .notEqual (.var "x") (.literal 1))
      [.operation 4 (.increment "x"), .operation 5 (.increment "x"), .operation 6 (.decrement "x")]]
    let counting := Node.loop 7 (.compare .greaterThan (.literal 3) (.var "x")) [.operation 8 (.increment "x")]
    compile .strict "clear x;;while x not +1 do;incr x;incr x;decr x;end" = .ok root ∧
      (∃ event ∈ (execute 20 .empty root).events, event.line = 3 ∧ event.looping = true) ∧
        (∀ event ∈ (execute 20 .empty root).events, event.line = 3 →
          ∃ found, event.store.get? "x" = some found ∧ (event.looping = true ↔ found ≠ 1)) ∧
          Comparison.greaterThan.Decides (.literal 3) (.var "x") (Store.empty.set "x" 1) true ∧
            Comparison.greaterThan.Decides (.literal 3) (.var "x")
              (execute 20 (Store.empty.set "x" 1) counting).store false := by
  intro root counting
  rcases execute_guards with ⟨statements, located, ended⟩
  have compiled : compile .strict "clear x;;while x not +1 do;incr x;incr x;decr x;end" = .ok root := rfl
  have denotes : Denotes "while x not +1 do" (.opening (.compare .notEqual (.var "x") (.literal 1))) :=
    Statement.parse?_eq_some_iff.1 rfl
  refine ⟨compiled, by decide, ?_, ?_, ?_⟩
  · intro event mem line
    exact statements .strict _ root compiled .empty 20 event mem 2 _ "x" 1 rfl denotes line
  · exact located 20 (Store.empty.set "x" 1) counting [] ⟨.entered 7, Store.empty.set "x" 1⟩ 7 .greaterThan _ _ _
      (by decide) rfl
  · exact ended 20 (Store.empty.set "x" 1) 7 .greaterThan _ _ _ rfl

end CounterLang
