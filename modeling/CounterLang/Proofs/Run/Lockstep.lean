import CounterLang.Proofs.Run.Origin
import CounterLang.Proofs.Run.Reads
import Mathlib.Data.List.Forall2

/-!
# Lockstep — what a run does not depend on, and what it leaves alone

A tree reads and writes no other variables than its own.  From stores that agree on the variables of the tree it
does the same, step by step, and goes wrong in the same way; and whatever it does not write keeps its value, or
keeps having none.

- `Node.variables`       : the variables that the operations and the conditions of a tree name
- `Node.written`         : the variables that it may write
- `Store.Agree`          : two stores do not differ on some variables
- `Machine.Alike`        : two machines stand at the same point of the same forest, in stores that agree
- `Machine.Alike.run`    : they run in lockstep
- `Machine.Path.frame`   : no step changes what is not written anywhere
- `execute_lockstep`     : the same for the runs of a tree
-/

namespace CounterLang

/-! ## Variables of a tree -/

/-- The variable that an operation gives a value to; reserved arithmetic never does. -/
def Operation.written : Operation → List String
  | clear target | increment target | decrement target => [target]
  | arithmetic _ _ _ => []

/-- The variables that a node names: the target of an operation, or the operands of a condition. -/
def Label.variables : Label → List String
  | operation _ op => [op.target]
  | loop _ condition => condition.reads

def Label.written : Label → List String
  | operation _ op => op.written
  | loop _ _ => []

def Node.variables (tree : Node) : List String :=
  (Node.labels [tree]).flatMap Label.variables

def Node.written (tree : Node) : List String :=
  (Node.labels [tree]).flatMap Label.written

/-- Triggers name no variables, whether they have fired or not. -/
theorem Label.Fired.variables {earlier later : Label} (h : earlier.Fired later) :
    later.variables = earlier.variables := by
  cases h with
  | operation => rfl
  | loop condition =>
      cases condition with
      | refl => rfl
      | fire => rfl

theorem Label.Fired.written {earlier later : Label} (h : earlier.Fired later) :
    later.written = earlier.written := by
  cases h <;> rfl

/-! ## Stores that agree -/

/-- Each of some variables has the same value in both stores, or has none in either. -/
def Store.Agree (names : List String) (first second : Store) : Prop :=
  ∀ name ∈ names, first.get? name = second.get? name

section
variable {names : List String} {first second changed : Store} {op : Operation} {condition : Condition}
  {error : RuntimeError}

namespace Store.Agree

theorem read (h : Agree names first second) {name : String} (known : name ∈ names) :
    first.read name = second.read name := by
  simp only [Store.read, h name known]

theorem resolve (h : Agree names first second) {operand : Operand}
    (known : ∀ name ∈ operand.reads, name ∈ names) : first.resolve operand = second.resolve operand := by
  cases operand with
  | literal value => rfl
  | var name => exact h.read (known name (List.mem_singleton_self name))

theorem set (h : Agree names first second) (target : String) (value : Int64) :
    Agree names (first.set target value) (second.set target value) := by
  intro name mem
  rw [Store.get?_set, Store.get?_set, h name mem]

theorem holds (h : Agree names first second) (known : ∀ name ∈ condition.reads, name ∈ names) :
    condition.holds first = condition.holds second := by
  cases condition with
  | once fired => rfl
  | compare comparison left right =>
      have leftSame : first.resolve left = second.resolve left :=
        h.resolve fun name mem => known name (List.mem_append_left _ mem)
      have rightSame : first.resolve right = second.resolve right :=
        h.resolve fun name mem => known name (List.mem_append_right _ mem)
      simp only [Condition.holds, leftSame, rightSame]

/-- An operation does the same to both stores, and leaves them in agreement. -/
theorem apply (h : Agree names first second) (known : op.target ∈ names) (result : op.apply first = .ok changed) :
    ∃ changed', op.apply second = .ok changed' ∧ Agree names changed changed' := by
  rcases Operation.apply_cases result with ⟨target, rfl, rfl⟩ | ⟨target, value, rfl, found, rfl⟩ |
    ⟨target, value, rfl, found, rfl⟩
  · exact ⟨_, rfl, h.set target 0⟩
  · have found' : second.get? target = some value := (h target known).symm.trans found
    exact ⟨_, Store.read_bind_eq_ok_iff.2 ⟨value, found', rfl⟩, h.set target _⟩
  · have found' : second.get? target = some value := (h target known).symm.trans found
    exact ⟨_, Store.read_bind_eq_ok_iff.2 ⟨value, found', rfl⟩, h.set target _⟩

theorem apply_error (h : Agree names first second) (known : op.target ∈ names)
    (result : op.apply first = .error error) : op.apply second = .error error := by
  cases op with
  | clear target => cases result
  | increment target =>
      rcases Store.read_bind_eq_error_iff.1 result with ⟨missing, same⟩
      exact Store.read_bind_eq_error_iff.2 ⟨(h target known).symm.trans missing, same⟩
  | decrement target =>
      rcases Store.read_bind_eq_error_iff.1 result with ⟨missing, same⟩
      exact Store.read_bind_eq_error_iff.2 ⟨(h target known).symm.trans missing, same⟩
  | arithmetic kind target operand => exact result

end Store.Agree

/-- An operation changes only what it writes. -/
theorem Operation.get?_apply {name : String} (result : op.apply first = .ok changed) (free : name ∉ op.written) :
    changed.get? name = first.get? name := by
  rcases Operation.apply_cases result with ⟨target, rfl, rfl⟩ | ⟨target, value, rfl, _, rfl⟩ |
    ⟨target, value, rfl, _, rfl⟩
  all_goals
    have other : name ≠ target := fun same => free (List.mem_singleton.2 same)
    rw [Store.get?_set, if_neg other]

end

/-! ## Machines in lockstep -/

/-- The machine stands in a forest that names no other variables. -/
def Machine.Names (names : List String) (machine : Machine) : Prop :=
  ∀ label ∈ Node.labels machine.forest, ∀ name ∈ label.variables, name ∈ names

/-- Two machines stand at the same point of the same forest, and their stores agree on some variables. -/
structure Machine.Alike (names : List String) (first second : Machine) : Prop where
  before : first.before = second.before
  after : first.after = second.after
  frames : first.frames = second.frames
  store : Store.Agree names first.store second.store

section
variable {names : List String} {machine first second next last : Machine} {point : Point} {action : Action}
  {error : RuntimeError} {events : List Event}

/-- What is done at a point in one store is done in the other. -/
theorem Point.Moves.alike {store other : Store} (h : point.Moves store action next)
    (agree : Store.Agree names store other) (known : ∀ name ∈ point.node.label.variables, name ∈ names) :
    ∃ next', point.Moves other action next' ∧ next.Alike names next' := by
  cases h with
  | applied result =>
      rcases agree.apply (known _ (List.mem_singleton_self _)) result with ⟨changed', result', agree'⟩
      exact ⟨_, .applied result', rfl, rfl, rfl, agree'⟩
  | entered result =>
      exact ⟨_, .entered ((agree.holds known).symm.trans result), rfl, rfl, rfl, agree⟩
  | left result =>
      exact ⟨_, .left ((agree.holds known).symm.trans result), rfl, rfl, rfl, agree⟩

/-- What goes wrong at a point in one store goes wrong in the other. -/
theorem Point.Fails.alike {store other : Store} (h : point.Fails store error)
    (agree : Store.Agree names store other) (known : ∀ name ∈ point.node.label.variables, name ∈ names) :
    point.Fails other error := by
  cases h with
  | operation result => exact .operation (agree.apply_error (known _ (List.mem_singleton_self _)) result)
  | loop result => exact .loop ((agree.holds known).symm.trans result)

namespace Machine

theorem Names.of_step (h : machine.Names names) (step : machine.step = .next action next) : next.Names names := by
  intro label mem name named
  rcases (fired_of_step step).exists_label mem with ⟨origin, found, fired⟩
  rw [fired.variables] at named
  exact h origin found name named

theorem Names.of_point (h : machine.Names names) (faced : machine.point? = some point) :
    ∀ name ∈ point.node.label.variables, name ∈ names := by
  rcases exists_origin (.refl _) faced with ⟨origin, found, fired⟩
  rw [fired.variables]
  exact h origin found

namespace Alike

/-- The point that a machine faces does not depend on its store. -/
theorem point? (h : first.Alike names second) : first.point? = second.point? := by
  simp only [Machine.point?, h.before, h.after, h.frames]

theorem tree (h : first.Alike names second) : first.tree = second.tree := by
  simp only [Machine.tree, Machine.forest, h.before, h.after, h.frames]

theorem step_next (h : first.Alike names second) (known : first.Names names)
    (step : first.step = .next action next) :
    ∃ next', second.step = .next action next' ∧ next.Alike names next' := by
  rcases step_eq_next_iff.1 step with ⟨point, faced, moves⟩
  rcases moves.alike h.store (known.of_point faced) with ⟨next', moves', alike⟩
  exact ⟨next', step_eq_next_iff.2 ⟨point, h.point?.symm.trans faced, moves'⟩, alike⟩

theorem step_failed (h : first.Alike names second) (known : first.Names names) (step : first.step = .failed error) :
    second.step = .failed error := by
  rcases step_eq_failed_iff.1 step with ⟨point, faced, fails⟩
  exact step_eq_failed_iff.2 ⟨point, h.point?.symm.trans faced, fails.alike h.store (known.of_point faced)⟩

theorem step_finished (h : first.Alike names second) (step : first.step = .finished) : second.step = .finished := by
  rcases second with ⟨store, before, after, frames⟩
  obtain ⟨none, outside⟩ := eq_nil_of_finished step
  obtain rfl : [] = after := none.symm.trans h.after
  obtain rfl : [] = frames := outside.symm.trans h.frames
  rfl

/-- Machines that are alike do the same as long as they run, and end in the same way. -/
theorem run (h : first.Alike names second) (known : first.Names names) (limit : Nat) :
    List.Forall₂ (fun a b => a.action = b.action ∧ Store.Agree names a.store b.store)
        (first.run limit).events (second.run limit).events ∧
      (first.run limit).outcome = (second.run limit).outcome ∧
        (first.run limit).machine.Alike names (second.run limit).machine := by
  induction limit, first using run_induction generalizing second with
  | finished step =>
      rw [run_of_finished step, run_of_finished (h.step_finished step)]
      exact ⟨.nil, rfl, h⟩
  | failed step =>
      rw [run_of_failed step, run_of_failed (h.step_failed known step)]
      exact ⟨.nil, rfl, h⟩
  | stopped step =>
      rcases h.step_next known step with ⟨next', step', alike⟩
      rw [run_zero_of_next step, run_zero_of_next step']
      exact ⟨.nil, rfl, alike⟩
  | step step ih =>
      rcases h.step_next known step with ⟨next', step', alike⟩
      rw [run_succ_of_next step, run_succ_of_next step']
      rcases ih alike (known.of_step step) with ⟨events, outcome, there⟩
      exact ⟨.cons ⟨rfl, alike.store⟩ events, outcome, there⟩

end Alike

/-! ## Variables that are left alone -/

/-- No path changes what is not written anywhere in the forest. -/
theorem Path.frame (h : Path machine events last) {name : String}
    (free : ∀ label ∈ Node.labels machine.forest, name ∉ label.written) :
    last.store.get? name = machine.store.get? name := by
  induction h with
  | refl => rfl
  | @step machine next last action events step _ ih =>
      have later : ∀ label ∈ Node.labels next.forest, name ∉ label.written := by
        intro label mem
        rcases (fired_of_step step).exists_label mem with ⟨origin, found, fired⟩
        rw [fired.written]
        exact free origin found
      have first : next.store.get? name = machine.store.get? name := by
        rcases step_eq_next_iff.1 step with ⟨point, faced, moves⟩
        rcases exists_origin (.refl _) faced with ⟨origin, found, fired⟩
        have here := free origin found
        rw [← fired.written] at here
        cases moves with
        | applied result => exact Operation.get?_apply result here
        | entered _ => rfl
        | left _ => rfl
      exact (ih later).trans first

end Machine
end

/-! ## Executions -/

/-- Two executions of a tree, in stores that agree on the variables of the tree, take the same steps one by one,
end in the same way, and leave the tree with the same triggers fired; at each event, and in the end, the stores
still agree on these variables.  In any execution a variable that the tree does not write stays as it was. -/
theorem execute_lockstep {tree : Node} {first second : Store} (agree : Store.Agree tree.variables first second)
    (limit : Nat) :
    (let one := execute limit first tree
      let other := execute limit second tree
      List.Forall₂ (fun a b => a.action = b.action ∧ Store.Agree tree.variables a.store b.store)
          one.events other.events ∧
        one.outcome = other.outcome ∧ one.tree = other.tree ∧ Store.Agree tree.variables one.store other.store) ∧
      ∀ store : Store, ∀ name ∉ tree.written,
        (∀ event ∈ (execute limit store tree).events, event.store.get? name = store.get? name) ∧
          (execute limit store tree).store.get? name = store.get? name := by
  constructor
  · have alike : (Machine.start first tree).Alike tree.variables (Machine.start second tree) :=
      ⟨rfl, rfl, rfl, agree⟩
    have known : (Machine.start first tree).Names tree.variables := fun label mem name named =>
      List.mem_flatMap.2 ⟨label, mem, named⟩
    rcases alike.run known limit with ⟨events, outcome, there⟩
    exact ⟨events, outcome, there.tree, there.store⟩
  · intro store name free
    have nowhere : ∀ label ∈ Node.labels (Machine.start store tree).forest, name ∉ label.written :=
      fun label mem written => free (List.mem_flatMap.2 ⟨label, mem, written⟩)
    constructor
    · intro event mem
      rcases Machine.exists_path_of_mem_run mem with ⟨earlier, middle, path, same⟩
      rw [← same]
      exact path.frame nowhere
    · exact (Machine.path_run (Machine.start store tree) limit).frame nowhere

/-- Leftovers in the store do not show: a loop that counts a variable down, one that tests a variable without a
value, and reserved arithmetic behind it. -/
theorem execute_lockstep_leftover :
    let tree := Node.root
      [.loop 1 (.compare .greaterThan (.var "x") (.literal 0)) [.operation 2 (.decrement "x")],
       .loop 3 (.compare .lessThan (.var "y") (.literal 0)) [.operation 4 (.arithmetic .add "z" (.var "left"))]]
    let first := Store.empty.set "x" 2
    let second := first.set "left" 7
    Store.Agree tree.variables first second ∧
      (∀ limit, (execute limit first tree).outcome = (execute limit second tree).outcome) ∧
        (execute 9 first tree).outcome = .failed (.undefinedVariable "y") ∧
          (execute 9 second tree).store.get? "left" = some 7 := by
  intro tree first second
  have agree : Store.Agree tree.variables first second := by
    intro name mem
    have other : name ≠ "left" := by
      rintro rfl
      exact absurd mem (by decide)
    simp [second, Store.get?_set, other]
  refine ⟨agree, fun limit => (execute_lockstep agree limit).1.2.1, rfl, ?_⟩
  exact ((execute_lockstep agree 9).2 second "left" (by decide)).2

end CounterLang
