import CounterLang.Proofs.Compilation.Rows
import CounterLang.Proofs.Run.Counting
import CounterLang.Proofs.Run.Evaluates

/-!
# Straight lines — programs without loops

A program without loops is decided by its text.  Each of its statements is carried out once, in order, up to the first
one that counts a variable which no statement in front of it clears; if there is no such statement, the program
succeeds, and the value of a variable is what its text says.

- `Operation.applyAll`           : operations carried out one after the other
- `Moment.Counted.applyAll`      : the law of counting, for all of them
- `Offends`                      : an operation counts a variable that has not been cleared
- `StraightLine.exists_failure`  : operations are all carried out, or there is a first one that fails
- `StraightLine.Succeeds`, `StraightLine.FailsAt` : what is left of a run in either case
- `execute_straightLine`         : what happens when a program without loops is run
-/

namespace CounterLang

open Source
open Statement (Denotes)

/-- Carries out some operations, up to the first one that fails. -/
def Operation.applyAll (store : Store) (operations : List Operation) : Except RuntimeError Store :=
  operations.foldlM Operation.apply store

/-- Where an event comes from: the line of its node, and whether it leads into a body. -/
def Event.place (event : Event) : Nat × Bool :=
  (event.line, event.looping)

/-- A forest without loops, given by the lines and the operations of its nodes. -/
def StraightLine.nodes (entries : List (Nat × Operation)) : List Node :=
  entries.map fun entry => .operation entry.1 entry.2

/-- The operation at an index counts a variable, and no operation in front of it clears this variable. -/
structure Offends (operations : List Operation) (index : Nat) (name : String) : Prop where
  counts : operations[index]? = some (.increment name) ∨ operations[index]? = some (.decrement name)
  missing : .clear name ∉ operations.take index

section
variable {store changed middle final : Store} {op : Operation} {operations front back before : List Operation}
  {entries : List (Nat × Operation)} {name : String} {error : RuntimeError} {index : Nat}

/-! ## Operations one after the other -/

namespace Operation

theorem applyAll_cons_eq_ok_iff : applyAll store (op :: operations) = .ok final ↔
    ∃ changed, op.apply store = .ok changed ∧ applyAll changed operations = .ok final := by
  cases result : op.apply store <;> simp [applyAll, List.foldlM_cons, result, bind, Except.bind]

theorem applyAll_append_eq_ok_iff : applyAll store (front ++ back) = .ok final ↔
    ∃ middle, applyAll store front = .ok middle ∧ applyAll middle back = .ok final := by
  induction front generalizing store with
  | nil => simp [applyAll, pure, Except.pure]
  | cons op front ih =>
      rw [List.cons_append, applyAll_cons_eq_ok_iff]
      simp only [applyAll_cons_eq_ok_iff, ih]
      constructor
      · rintro ⟨changed, first, middle, inner, last⟩
        exact ⟨middle, ⟨changed, first, inner⟩, last⟩
      · rintro ⟨middle, ⟨changed, first, inner⟩, last⟩
        exact ⟨changed, first, middle, inner, last⟩

/-- What an operation reads it finds. -/
theorem isSome_of_reads (h : op.apply store = .ok changed) (read : name ∈ op.reads) :
    (store.get? name).isSome := by
  rcases apply_cases h with ⟨target, rfl, _⟩ | ⟨target, value, rfl, found, _⟩ | ⟨target, value, rfl, found, _⟩
  · cases read
  · obtain rfl := List.mem_singleton.1 read
    simp [found]
  · obtain rfl := List.mem_singleton.1 read
    simp [found]

end Operation

theorem Moment.Counted.applyAll (h : Counted ⟨before, store⟩)
    (carried : Operation.applyAll store operations = .ok final) :
    Counted ⟨operations.reverse ++ before, final⟩ := by
  induction operations generalizing before store with
  | nil =>
      obtain rfl := Except.ok.inj carried
      exact h
  | cons op operations ih =>
      rcases Operation.applyAll_cons_eq_ok_iff.1 carried with ⟨changed, first, rest⟩
      simpa using ih (h.apply first) rest

/-- Where operations have been carried out on an empty store, what is found has been cleared. -/
theorem Operation.isSome_applyAll_iff (carried : applyAll .empty operations = .ok final) (name : String) :
    (final.get? name).isSome ↔ .clear name ∈ operations := by
  have counted : Moment.Counted ⟨operations.reverse ++ [], final⟩ := Moment.counted_start.applyAll carried
  rw [counted.isSome_iff, List.append_nil, List.mem_reverse]

/-- What is found there is the balance of the operations. -/
theorem Operation.value_applyAll {value : Int64} (carried : applyAll .empty operations = .ok final)
    (found : final.get? name = some value) (few : operations.length < 2 ^ 63) :
    value.toInt = balance name operations.reverse := by
  have counted : Moment.Counted ⟨operations.reverse ++ [], final⟩ := Moment.counted_start.applyAll carried
  rw [List.append_nil] at counted
  exact (counted.value found).2 (by rwa [List.length_reverse])

namespace StraightLine

/-- Operations are all carried out, or there is a first one that fails. -/
theorem exists_failure (store : Store) (entries : List (Nat × Operation)) :
    (∃ final, Operation.applyAll store (entries.map Prod.snd) = .ok final) ∨
      ∃ front entry back middle error, entries = front ++ entry :: back ∧
        Operation.applyAll store (front.map Prod.snd) = .ok middle ∧ entry.2.apply middle = .error error := by
  induction entries generalizing store with
  | nil => exact .inl ⟨store, rfl⟩
  | cons entry entries ih =>
      cases result : entry.2.apply store with
      | error error => exact .inr ⟨[], entry, entries, store, error, rfl, rfl, result⟩
      | ok changed =>
          rcases ih changed with ⟨final, carried⟩ | ⟨front, last, back, middle, error, rfl, carried, fails⟩
          · exact .inl ⟨final, Operation.applyAll_cons_eq_ok_iff.2 ⟨changed, result, carried⟩⟩
          · refine .inr ⟨entry :: front, last, back, middle, error, rfl, ?_, fails⟩
            exact Operation.applyAll_cons_eq_ok_iff.2 ⟨changed, result, carried⟩

/-- Each node has one event. -/
theorem evaluates_nodes (carried : Operation.applyAll store (entries.map Prod.snd) = .ok final) :
    ∃ events, Evaluates store (nodes entries) events final ∧
      events.map Event.place = entries.map fun entry => (entry.1, false) := by
  induction entries generalizing store with
  | nil =>
      obtain rfl := Except.ok.inj carried
      exact ⟨[], .nil, rfl⟩
  | cons entry entries ih =>
      rcases Operation.applyAll_cons_eq_ok_iff.1 carried with ⟨changed, first, rest⟩
      rcases ih rest with ⟨events, evaluates, places⟩
      exact ⟨_, .operation first evaluates, congrArg ((entry.1, false) :: ·) places⟩

theorem length_of_places {events : List Event}
    (places : events.map Event.place = entries.map fun entry => (entry.1, false)) : events.length = entries.length := by
  simpa using congrArg List.length places

/-- Operations that can all be carried out are, and then the root is left. -/
theorem execute_of_applyAll (carried : Operation.applyAll .empty (entries.map Prod.snd) = .ok final) (more : Nat) :
    let run := execute (entries.length + 2 + more) .empty (Node.root (nodes entries))
    run.outcome = .finished ∧ run.store = final ∧
      run.events.map Event.place = (0, true) :: ((entries.map fun entry => (entry.1, false)) ++ [(0, false)]) := by
  rcases evaluates_nodes carried with ⟨events, evaluates, places⟩
  have run := evaluates.halts_root.run more
  rw [List.length_cons, List.length_append, List.length_singleton, length_of_places places] at run
  rw [show execute _ .empty (Node.root (nodes entries)) = _ from run]
  refine ⟨rfl, rfl, ?_⟩
  rw [List.map_cons, List.map_append, places]
  rfl

/-- At the first operation that fails the run comes to its end. -/
theorem execute_of_failure {entry : Nat × Operation} {front : List (Nat × Operation)}
    (carried : Operation.applyAll .empty (front.map Prod.snd) = .ok middle)
    (fails : entry.2.apply middle = .error error) (back : List (Nat × Operation)) (more : Nat) :
    let run := execute ((front ++ entry :: back).length + 2 + more) .empty (Node.root (nodes (front ++ entry :: back)))
    run.outcome = .failed error ∧ run.store = middle ∧
      run.events.map Event.place = (0, true) :: front.map fun entry => (entry.1, false) := by
  rcases evaluates_nodes carried with ⟨events, evaluates, places⟩
  have forest : nodes (front ++ entry :: back) = nodes front ++ .operation entry.1 entry.2 :: nodes back :=
    List.map_append
  have halts : (Machine.start .empty (Node.root (nodes front ++ .operation entry.1 entry.2 :: nodes back))).Halts _ _ :=
    evaluates.halts_failed fails
  have run := halts.run (back.length + 2 + more)
  have limit : (⟨.entered 0, .empty⟩ :: events : List Event).length + (back.length + 2 + more) =
      (front ++ entry :: back).length + 2 + more := by
    simp only [List.length_cons, List.length_append, length_of_places places]
    omega
  rw [limit, ← forest] at run
  rw [show execute _ .empty (Node.root (nodes (front ++ entry :: back))) = _ from run]
  exact ⟨rfl, rfl, congrArg ((0, true) :: ·) places⟩

end StraightLine

/-! ## Offences -/

theorem Offends.of_append (h : Offends (front ++ back) index name) (inside : index < front.length) :
    Offends front index name := by
  constructor
  · have counts := h.counts
    rwa [List.getElem?_append_left inside] at counts
  · have missing := h.missing
    rwa [List.take_append_of_le_length (Nat.le_of_lt inside)] at missing

/-- Operations that are all carried out do not offend. -/
theorem not_offends_of_applyAll (carried : Operation.applyAll .empty operations = .ok final) (index : Nat)
    (name : String) : ¬ Offends operations index name := by
  intro offends
  have one : ∃ op, operations[index]? = some op ∧ name ∈ op.reads := by
    rcases offends.counts with found | found
    · exact ⟨_, found, List.mem_singleton_self name⟩
    · exact ⟨_, found, List.mem_singleton_self name⟩
  rcases one with ⟨op, found, read⟩
  rcases List.getElem?_eq_some_iff.1 found with ⟨inside, rfl⟩
  rw [← List.take_append_drop index operations, List.drop_eq_getElem_cons inside,
    Operation.applyAll_append_eq_ok_iff] at carried
  rcases carried with ⟨middle, front, rest⟩
  rcases Operation.applyAll_cons_eq_ok_iff.1 rest with ⟨changed, applied, _⟩
  have present := Operation.isSome_of_reads applied read
  exact offends.missing ((Operation.isSome_applyAll_iff front name).1 present)

/-- The first operation that fails offends, unless it is reserved arithmetic. -/
theorem exists_offends (carried : Operation.applyAll .empty front = .ok middle)
    (fails : op.apply middle = .error error)
    (plain : ∀ kind target operand, op ≠ .arithmetic kind target operand) (back : List Operation) :
    ∃ name, error = .undefinedVariable name ∧ Offends (front ++ op :: back) front.length name := by
  rcases Operation.apply_eq_error fails with ⟨name, read, missing, same⟩ | ⟨kind, target, operand, same, _⟩
  · refine ⟨name, same, ?_, ?_⟩
    · rw [List.getElem?_append_right (Nat.le_refl _), Nat.sub_self, List.getElem?_cons_zero]
      cases op with
      | clear target => cases read
      | increment target => exact .inl (by rw [List.mem_singleton.1 read])
      | decrement target => exact .inr (by rw [List.mem_singleton.1 read])
      | arithmetic kind target operand => cases read
    · rw [List.take_left]
      intro cleared
      have present := (Operation.isSome_applyAll_iff carried name).2 cleared
      simp [missing] at present
  · exact absurd same (plain kind target operand)

end

/-! ## Compiled straight lines -/

section
variable {program : String} {mode : Mode} {entries : List (Nat × Operation)} {statements : List String}
  {positions : List Nat}

theorem StraightLine.preorderAll_nodes (depth : Nat) (entries : List (Nat × Operation)) :
    Node.preorderAll depth (nodes entries) = entries.map fun entry => (depth, .operation entry.1 entry.2) := by
  induction entries with
  | nil => rfl
  | cons entry entries ih => exact congrArg ((depth, .operation entry.1 entry.2) :: ·) ih

/-- An entry is the statement at a position, on its line. -/
structure Enters (statements : List String) (position : Nat) (entry : Nat × Operation) : Prop where
  line : entry.1 = position + 1
  operation : ∃ text, statements[position]? = some text ∧ Denotes text (.operation entry.2)

/-- The nodes of a program without loops are its statements in scope, up to those that are empty. -/
theorem StraightLine.enters (h : compile mode program = .ok (Node.root (nodes entries))) :
    List.Forall₂ (Enters (Source.statements program))
      (nodePositions (Source.statements program) 0 (scope (Source.statements program))) entries := by
  rcases preorder_compile h with ⟨rows, same, described⟩
  have flat : (Node.root (nodes entries)).preorder = (0, .loop 0 (.once false)) :: Node.preorderAll 1 (nodes entries) :=
    rfl
  rw [flat, preorderAll_nodes] at same
  obtain rfl := List.tail_eq_of_cons_eq same
  refine (List.forall₂_map_right_iff.1 described).imp ?_
  rintro position entry ⟨_, text, found, labels⟩
  generalize line : position + 1 = number at labels
  cases labels with
  | operation denotes => exact ⟨line.symm, text, found, denotes⟩

theorem StraightLine.lines (h : List.Forall₂ (Enters statements) positions entries) :
    entries.map Prod.fst = positions.map (· + 1) := by
  induction h with
  | nil => rfl
  | cons enters _ ih => rw [List.map_cons, List.map_cons, enters.line, ih]

/-- Reserved arithmetic is no statement. -/
theorem StraightLine.ne_arithmetic (h : List.Forall₂ (Enters statements) positions entries) {entry : Nat × Operation}
    (mem : entry ∈ entries) (kind : Arithmetic) (target : String) (operand : Operand) :
    entry.2 ≠ .arithmetic kind target operand := by
  intro same
  induction h with
  | nil => cases mem
  | cons enters _ ih =>
      rcases List.mem_cons.1 mem with rfl | mem
      · rcases enters.operation with ⟨text, _, denotes⟩
        rw [same] at denotes
        cases denotes
      · exact ih mem

theorem pairwise_nodePositions (statements : List String) (start stop : Nat) :
    (nodePositions statements start stop).Pairwise (· < ·) :=
  List.Pairwise.filter _ (List.pairwise_lt_range' 1)

end

/-! ## Runs -/

namespace StraightLine

/-- What is left of a run that has carried out all operations. -/
structure Succeeds (entries : List (Nat × Operation)) (run : Run) : Prop where
  outcome : run.outcome = .finished
  places : run.events.map Event.place = (0, true) :: ((entries.map fun entry => (entry.1, false)) ++ [(0, false)])
  cleared : ∀ name, (run.store.get? name).isSome ↔ .clear name ∈ entries.map Prod.snd
  values : ∀ name value, run.store.get? name = some value → entries.length < 2 ^ 63 →
    value.toInt = balance name (entries.map Prod.snd).reverse

/-- What is left of a run that has carried out the operations in front of the first one that offends. -/
structure FailsAt (entries : List (Nat × Operation)) (index : Nat) (name : String) (run : Run) : Prop where
  offends : Offends (entries.map Prod.snd) index name
  first : ∀ earlier other, earlier < index → ¬ Offends (entries.map Prod.snd) earlier other
  outcome : run.outcome = .failed (.undefinedVariable name)
  places : run.events.map Event.place = (0, true) :: (entries.take index).map fun entry => (entry.1, false)
  store : Operation.applyAll .empty ((entries.map Prod.snd).take index) = .ok run.store

section
variable {entries front : List (Nat × Operation)} {entry : Nat × Operation} {middle final : Store}
  {error : RuntimeError}

theorem succeeds (carried : Operation.applyAll .empty (entries.map Prod.snd) = .ok final) (more : Nat) :
    Succeeds entries (execute (entries.length + 2 + more) .empty (Node.root (nodes entries))) := by
  rcases execute_of_applyAll carried more with ⟨outcome, rfl, places⟩
  refine ⟨outcome, places, Operation.isSome_applyAll_iff carried, ?_⟩
  intro name value found few
  exact Operation.value_applyAll carried found (by rwa [List.length_map])

theorem exists_failsAt (carried : Operation.applyAll .empty (front.map Prod.snd) = .ok middle)
    (fails : entry.2.apply middle = .error error)
    (plain : ∀ kind target operand, entry.2 ≠ .arithmetic kind target operand) (back : List (Nat × Operation))
    (more : Nat) :
    ∃ name, FailsAt (front ++ entry :: back) front.length name
      (execute ((front ++ entry :: back).length + 2 + more) .empty (Node.root (nodes (front ++ entry :: back)))) := by
  have length : (front.map Prod.snd).length = front.length := List.length_map _
  have split : (front ++ entry :: back).map Prod.snd = front.map Prod.snd ++ entry.2 :: back.map Prod.snd :=
    List.map_append
  rcases exists_offends carried fails plain (back.map Prod.snd) with ⟨name, rfl, offends⟩
  rcases execute_of_failure carried fails back more with ⟨outcome, rfl, places⟩
  rw [length] at offends
  refine ⟨name, split ▸ offends, ?_, outcome, ?_, ?_⟩
  · intro earlier other early before
    rw [split] at before
    exact not_offends_of_applyAll carried _ _ (before.of_append (length.symm ▸ early))
  · rw [List.take_left]
    exact places
  · rw [split, ← length, List.take_left]
    exact carried

end
end StraightLine

/-- What happens when a program is run that has no loops, and so is a list of operations on ascending lines, which are
those of its statements in scope.

It succeeds if and only if no operation offends.  If it succeeds, the root is entered, each operation is carried out
once, in order, and the root is left; a variable then has a value if it is cleared at all, and the value is the number
of times that it is counted up behind the last statement that clears it, less the number of times that it is counted
down there.  If it does not succeed, it comes to its end at the first operation that offends: the variable of this
operation is reported, there are no events but those in front of it, and the store is the one that the operations in
front of it lead to. -/
theorem execute_straightLine {program : String} {mode : Mode} {entries : List (Nat × Operation)}
    (h : compile mode program = .ok (Node.root (StraightLine.nodes entries))) :
    List.Forall₂ (Enters (Source.statements program))
        (nodePositions (Source.statements program) 0 (scope (Source.statements program))) entries ∧
      (entries.map Prod.fst).Pairwise (· < ·) ∧
      ∀ more,
        let run := execute (entries.length + 2 + more) .empty (Node.root (StraightLine.nodes entries))
        (run.outcome = .finished ↔ ∀ index name, ¬ Offends (entries.map Prod.snd) index name) ∧
          (run.outcome = .finished → StraightLine.Succeeds entries run) ∧
          (run.outcome ≠ .finished → ∃ index name, StraightLine.FailsAt entries index name run) := by
  have enters := StraightLine.enters h
  refine ⟨enters, ?_, ?_⟩
  · rw [StraightLine.lines enters]
    exact (pairwise_nodePositions ..).map _ fun _ _ below => Nat.succ_lt_succ below
  intro more
  rcases StraightLine.exists_failure .empty entries with ⟨final, carried⟩ |
    ⟨front, entry, back, middle, error, rfl, carried, fails⟩
  · -- everything is carried out
    have succeeds := StraightLine.succeeds carried more
    exact ⟨⟨fun _ => not_offends_of_applyAll carried, fun _ => succeeds.outcome⟩, fun _ => succeeds,
      absurd succeeds.outcome⟩
  · -- there is a first operation that fails
    have plain := StraightLine.ne_arithmetic enters (show entry ∈ front ++ entry :: back by simp)
    rcases StraightLine.exists_failsAt carried fails plain back more with ⟨name, failsAt⟩
    have unfinished : (execute ((front ++ entry :: back).length + 2 + more) .empty
        (Node.root (StraightLine.nodes (front ++ entry :: back)))).outcome ≠ .finished := by
      rw [failsAt.outcome]
      nofun
    exact ⟨iff_of_false unfinished fun none => none _ _ failsAt.offends, fun finished => absurd finished unfinished,
      fun _ => ⟨_, name, failsAt⟩⟩

/-- A variable that is cleared only behind the statement that counts it. -/
theorem execute_straightLine_offence :
    let entries : List (Nat × Operation) := [(1, .clear "x"), (3, .increment "x"), (4, .increment "y"), (5, .clear "y")]
    let run := execute 9 .empty (Node.root (StraightLine.nodes entries))
    compile .strict "clear x;;incr x;incr y;clear y" = .ok (Node.root (StraightLine.nodes entries)) ∧
      run.outcome ≠ .finished ∧ ∃ index name, StraightLine.FailsAt entries index name run := by
  intro entries run
  have compiled : compile .strict "clear x;;incr x;incr y;clear y" = .ok (Node.root (StraightLine.nodes entries)) :=
    rfl
  have unfinished : run.outcome ≠ .finished := by decide
  rcases (execute_straightLine compiled).2.2 3 with ⟨_, _, failed⟩
  exact ⟨compiled, unfinished, failed unfinished⟩

end CounterLang
