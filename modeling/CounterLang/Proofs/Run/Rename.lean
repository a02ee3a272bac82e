import CounterLang.Proofs.Node.Rename
import CounterLang.Proofs.Run.Lockstep
import Mathlib.Data.Set.Function

/-!
# Rename — runs whose variables have other names

A tree whose variables have other names does, in a store whose variables have these names, what it does with its own
names, step by step.  Different variables must keep different names, or a value that belongs to one of them would be
found under another; of names that are never looked at nothing is asked.

- `Store.Names`           : no other variables have a value
- `Store.rename`          : a store under other names, in their order
- `Store.toList_rename`   : its entries are the old ones, each under its new name
- `Store.rename_set`      : setting a variable may wait until the store is renamed
- `Operation.apply_rename`, `Condition.holds_rename` : what is done and what is tested, renamed
- `Machine.rename`        : a machine, its tree and its store renamed
- `Machine.step_rename`   : its next step is the old one, renamed
- `Machine.run_rename`    : so is its run
-/

namespace CounterLang

/-! ## Stores under other names -/

/-- An entry under the name that a function finds for its own. -/
def Entries.rename (image : String → String) (entry : String × Int64) : String × Int64 :=
  (image entry.1, entry.2)

namespace Store

/-- No other variables have a value. -/
def Names (names : List String) (store : Store) : Prop :=
  ∀ entry ∈ store.toList, entry.1 ∈ names

/-- The same values under other names.  Of two entries that come to have the same name the first one counts. -/
def rename (image : String → String) (store : Store) : Store :=
  store.toList.foldr (fun entry renamed => renamed.set (image entry.1) entry.2) empty

end Store

section
variable {image : String → String} {names : List String} {entries : List (String × Int64)} {name other : String}
  {store changed : Store} {value : Int64}

/-! ### Looking up -/

/-- Under its new name each variable is found with its value. -/
theorem Entries.lookup_rename (injective : Set.InjOn image {name | name ∈ names})
    (within : ∀ entry ∈ entries, entry.1 ∈ names) (known : name ∈ names) :
    (entries.map (rename image)).lookup (image name) = entries.lookup name := by
  induction entries with
  | nil => rfl
  | cons entry rest ih =>
      have later := ih fun entry mem => within entry (List.mem_cons_of_mem _ mem)
      have same : image name = image entry.1 ↔ name = entry.1 :=
        injective.eq_iff known (within entry List.mem_cons_self)
      simp only [List.map_cons, rename, lookup_cons, same, later]
      exact (lookup_cons entry.1 name entry.2 rest).symm

/-- No value is found under a name that no variable comes to have. -/
theorem Entries.lookup_rename_eq_none (within : ∀ entry ∈ entries, entry.1 ∈ names)
    (strange : ∀ name ∈ names, image name ≠ other) : (entries.map (rename image)).lookup other = none := by
  refine List.lookup_eq_none_iff.2 ?_
  intro entry mem
  rcases List.mem_map.1 mem with ⟨old, found, rfl⟩
  exact bne_iff_ne.2 (Ne.symm (strange old.1 (within old found)))

namespace Store

theorem get?_foldr_set (entries : List (String × Int64)) (name : String) :
    (entries.foldr (fun entry renamed => renamed.set (image entry.1) entry.2) empty).get? name =
      (entries.map (Entries.rename image)).lookup name := by
  induction entries with
  | nil => rfl
  | cons entry rest ih =>
      rw [List.foldr_cons, get?_set, ih, List.map_cons]
      exact (Entries.lookup_cons _ _ _ _).symm

/-- Each variable has its value under its new name. -/
theorem get?_rename (injective : Set.InjOn image {name | name ∈ names}) (within : store.Names names)
    (known : name ∈ names) : (store.rename image).get? (image name) = store.get? name := by
  rw [rename, get?_foldr_set]
  exact Entries.lookup_rename injective within known

/-- Only new names have values. -/
theorem get?_rename_eq_none (within : store.Names names) (strange : ∀ name ∈ names, image name ≠ other) :
    (store.rename image).get? other = none := by
  rw [rename, get?_foldr_set]
  exact Entries.lookup_rename_eq_none within strange

theorem read_rename (injective : Set.InjOn image {name | name ∈ names}) (within : store.Names names)
    (known : name ∈ names) :
    (store.rename image).read (image name) = (store.read name).mapError (RuntimeError.rename image) := by
  rw [read, get?_rename injective within known, read]
  cases store.get? name <;> rfl

theorem resolve_rename (injective : Set.InjOn image {name | name ∈ names}) (within : store.Names names)
    {operand : Operand} (known : ∀ name ∈ operand.reads, name ∈ names) :
    (store.rename image).resolve (operand.rename image) =
      (store.resolve operand).mapError (RuntimeError.rename image) := by
  cases operand with
  | literal value => rfl
  | var name => exact read_rename injective within (known name (List.mem_singleton_self name))

/-! ### Setting -/

theorem Names.set (h : store.Names names) (known : name ∈ names) : (store.set name value).Names names := by
  intro entry mem
  rcases Entries.mem_of_mem_set mem with rfl | mem
  · exact known
  · exact h entry mem

/-- Setting a variable may wait until the store is renamed. -/
theorem rename_set (injective : Set.InjOn image {name | name ∈ names}) (within : store.Names names)
    (known : name ∈ names) :
    (store.set name value).rename image = (store.rename image).set (image name) value := by
  apply ext_get?
  intro other
  rw [get?_set]
  by_cases isImage : ∃ old ∈ names, image old = other
  · rcases isImage with ⟨old, oldKnown, rfl⟩
    have same : image old = image name ↔ old = name := injective.eq_iff oldKnown known
    rw [get?_rename injective (within.set known) oldKnown, get?_rename injective within oldKnown, get?_set]
    simp only [same]
  · -- a name that no variable comes to have is in neither store, and it is not the one that is set
    have strange : ∀ old ∈ names, image old ≠ other := fun old mem same => isImage ⟨old, mem, same⟩
    rw [get?_rename_eq_none (within.set known) strange, get?_rename_eq_none within strange,
      if_neg (Ne.symm (strange name known))]

end Store

/-! ### Entries -/

/-- A name that is not there yet is put somewhere among the others. -/
theorem Entries.set_perm (absent : ∀ entry ∈ entries, entry.1 ≠ name) :
    (set name value entries).Perm ((name, value) :: entries) := by
  induction entries with
  | nil => exact .refl _
  | cons entry rest ih =>
      have later := ih fun entry mem => absent entry (List.mem_cons_of_mem _ mem)
      rw [set]
      split
      next before => exact .refl _
      next notBefore =>
        rw [if_neg (Ne.symm (absent entry List.mem_cons_self))]
        exact (later.cons entry).trans (.swap ..)

/-- The entries of a renamed store are the old ones, each under its new name; their order is that of the new names. -/
theorem Store.toList_rename (injective : Set.InjOn image {name | name ∈ names}) (within : store.Names names) :
    (store.rename image).toList.Perm (store.toList.map fun entry => (image entry.1, entry.2)) := by
  rcases store with ⟨entries, ascending⟩
  change ∀ entry ∈ entries, entry.1 ∈ names at within
  change (entries.foldr (fun entry renamed => Store.set renamed (image entry.1) entry.2) empty).entries.Perm
    (entries.map (Entries.rename image))
  induction entries with
  | nil => exact .refl _
  | cons entry rest ih =>
      obtain ⟨least, ascending⟩ := List.pairwise_cons.1 ascending
      have later := ih ascending fun entry mem => within entry (List.mem_cons_of_mem _ mem)
      -- the name of the first entry differs from the others, and so do their new names
      have absent : ∀ renamed ∈ rest.map (Entries.rename image), renamed.1 ≠ image entry.1 := by
        intro renamed mem same
        rcases List.mem_map.1 mem with ⟨old, found, rfl⟩
        have equal : old.1 = entry.1 :=
          injective (within old (List.mem_cons_of_mem _ found)) (within entry List.mem_cons_self) same
        exact String.ne_of_lt (least old found) equal.symm
      refine (Entries.set_perm fun renamed mem => absent renamed (later.mem_iff.1 mem)).trans ?_
      exact later.cons _

/-! ## Operations and conditions -/

section
variable {op : Operation} {condition : Condition}

theorem Operation.names_apply (result : op.apply store = .ok changed) (within : store.Names names)
    (known : op.target ∈ names) : changed.Names names := by
  rcases apply_cases result with ⟨target, rfl, rfl⟩ | ⟨target, value, rfl, _, rfl⟩ | ⟨target, value, rfl, _, rfl⟩
  all_goals exact within.set known

/-- What an operation does, it does under the new names. -/
theorem Operation.apply_rename (injective : Set.InjOn image {name | name ∈ names}) (within : store.Names names)
    (known : op.target ∈ names) :
    (op.rename image).apply (store.rename image) =
      ((op.apply store).map (Store.rename image)).mapError (RuntimeError.rename image) := by
  -- the target is looked up under its new name and set under it, and nothing else in the store is touched
  have set (value : Int64) :
      (store.set op.target value).rename image = (store.rename image).set (image op.target) value :=
    Store.rename_set injective within known
  have read := Store.read_rename injective within known
  cases op with
  | clear target => exact congrArg Except.ok (set 0).symm
  | increment target =>
      simp only [Operation.target] at read set
      simp only [Operation.rename, apply, read]
      cases store.read target with
      | error error => rfl
      | ok value => exact congrArg Except.ok (set (value + 1)).symm
  | decrement target =>
      simp only [Operation.target] at read set
      simp only [Operation.rename, apply, read]
      cases store.read target with
      | error error => rfl
      | ok value => exact congrArg Except.ok (set (value - 1)).symm
  | arithmetic kind target operand => rfl

/-- A test turns out as it does under the old names. -/
theorem Condition.holds_rename (injective : Set.InjOn image {name | name ∈ names}) (within : store.Names names)
    (known : ∀ name ∈ condition.reads, name ∈ names) :
    (condition.rename image).holds (store.rename image) =
      (condition.holds store).mapError (RuntimeError.rename image) := by
  cases condition with
  | once fired => rfl
  | compare comparison left right =>
      have leftSame := Store.resolve_rename injective within fun name mem => known name (List.mem_append_left _ mem)
      have rightSame := Store.resolve_rename injective within fun name mem => known name (List.mem_append_right _ mem)
      simp only [Condition.rename, holds, leftSame, rightSame]
      cases store.resolve left with
      | error error => rfl
      | ok leftValue => cases store.resolve right <;> rfl

end
end

/-! ## Machines and runs under other names -/

section
variable (image : String → String)

def Action.rename : Action → Action
  | entered line => entered line
  | left line => left line
  | applied line op => applied line (op.rename image)

@[simp] theorem Action.line_rename (action : Action) : (action.rename image).line = action.line := by
  cases action <;> rfl

@[simp] theorem Action.looping_rename (action : Action) : (action.rename image).looping = action.looping := by
  cases action <;> rfl

def Point.rename (point : Point) : Point where
  before := point.before.map (Node.rename image)
  node := point.node.rename image
  after := point.after.map (Node.rename image)
  frames := point.frames.map (Frame.rename image)

def Machine.rename (machine : Machine) : Machine where
  store := machine.store.rename image
  before := machine.before.map (Node.rename image)
  after := machine.after.map (Node.rename image)
  frames := machine.frames.map (Frame.rename image)

def Step.rename : Step → Step
  | finished => finished
  | failed error => failed (error.rename image)
  | next action machine => next (action.rename image) (machine.rename image)

def Event.rename (event : Event) : Event :=
  ⟨event.action.rename image, event.store.rename image⟩

def Outcome.rename : Outcome → Outcome
  | finished => finished
  | failed error => failed (error.rename image)
  | stopped => stopped

def Run.rename (run : Run) : Run :=
  ⟨run.events.map (Event.rename image), run.outcome.rename image, run.machine.rename image⟩

theorem Machine.tree_rename (machine : Machine) : (machine.rename image).tree = machine.tree.rename image := by
  have whole : (machine.rename image).forest = machine.forest.map (Node.rename image) := by
    rw [forest, forest, ← plug_rename]
    simp [Machine.rename]
  rw [tree, tree, whole]
  cases machine.forest <;> simp

end

/-- No other variables are named in the forest that a machine stands in, and none have a value in its store. -/
structure Machine.Knows (names : List String) (machine : Machine) : Prop where
  forest : machine.Names names
  store : machine.store.Names names

section
variable {image : String → String} {names : List String} {machine next : Machine} {point : Point} {store : Store}
  {action : Action} {error : RuntimeError}

theorem Point.Moves.names_store (h : point.Moves store action next) (within : store.Names names)
    (known : ∀ name ∈ point.node.label.variables, name ∈ names) : next.store.Names names := by
  cases h with
  | applied result => exact Operation.names_apply result within (known _ (List.mem_singleton_self _))
  | entered _ => exact within
  | left _ => exact within

/-- What is done at a point is done at the renamed point. -/
theorem Point.Moves.rename (h : point.Moves store action next) (injective : Set.InjOn image {name | name ∈ names})
    (within : store.Names names) (known : ∀ name ∈ point.node.label.variables, name ∈ names) :
    (point.rename image).Moves (store.rename image) (action.rename image) (next.rename image) := by
  cases h with
  | @applied before after frames line op changed result =>
      have renamed := Operation.apply_rename injective within (known op.target (List.mem_singleton_self _))
      rw [result] at renamed
      simp only [Point.rename, Machine.rename, List.map_cons, Node.rename_operation]
      exact .applied renamed
  | @entered before after children frames line condition result =>
      have renamed : (condition.rename image).holds (store.rename image) = _ :=
        Condition.holds_rename injective within known
      rw [result] at renamed
      simp only [Point.rename, Machine.rename, List.map_cons, List.map_nil, Node.rename_loop, Frame.rename,
        ← Condition.tested_rename]
      exact .entered renamed
  | @left before after children frames line condition result =>
      have renamed : (condition.rename image).holds (store.rename image) = _ :=
        Condition.holds_rename injective within known
      rw [result] at renamed
      simp only [Point.rename, Machine.rename, List.map_cons, Node.rename_loop, ← Condition.tested_rename]
      exact .left renamed

/-- What goes wrong at a point goes wrong at the renamed point. -/
theorem Point.Fails.rename (h : point.Fails store error) (injective : Set.InjOn image {name | name ∈ names})
    (within : store.Names names) (known : ∀ name ∈ point.node.label.variables, name ∈ names) :
    (point.rename image).Fails (store.rename image) (error.rename image) := by
  cases h with
  | @operation before after frames line op error result =>
      have renamed := Operation.apply_rename injective within (known op.target (List.mem_singleton_self _))
      rw [result] at renamed
      simp only [Point.rename, Node.rename_operation]
      exact .operation renamed
  | @loop before after children frames line condition error result =>
      have renamed : (condition.rename image).holds (store.rename image) = _ :=
        Condition.holds_rename injective within known
      rw [result] at renamed
      simp only [Point.rename, Node.rename_loop]
      exact .loop renamed

namespace Machine

theorem point?_rename (faced : machine.point? = some point) :
    (machine.rename image).point? = some (point.rename image) := by
  rcases machine with ⟨store, before, after, frames⟩
  cases after with
  | cons node rest =>
      obtain rfl := Option.some.inj faced
      rfl
  | nil =>
      cases frames with
      | nil => cases faced
      | cons frame frames =>
          obtain rfl := Option.some.inj faced
          simp only [Machine.rename, point?, List.map_nil, List.map_cons, ← List.map_reverse, Frame.fill_rename]
          rfl

theorem Knows.of_step (h : machine.Knows names) (step : machine.step = .next action next) : next.Knows names := by
  refine ⟨h.forest.of_step step, ?_⟩
  rcases step_eq_next_iff.1 step with ⟨point, faced, moves⟩
  exact moves.names_store h.store (h.forest.of_point faced)

/-- The next step of a renamed machine is the next step, renamed. -/
theorem step_rename (injective : Set.InjOn image {name | name ∈ names}) (h : machine.Knows names) :
    (machine.rename image).step = machine.step.rename image := by
  rcases machine.step_cases with ⟨none, outside, step⟩ |
    ⟨point, faced, ⟨error, step, fails⟩ | ⟨action, next, step, moves⟩⟩
  · rcases machine with ⟨store, before, after, frames⟩
    obtain rfl : after = [] := none
    obtain rfl : frames = [] := outside
    rfl
  -- in the other cases the renamed machine faces the renamed point, whose variables are all known
  · rw [step]
    have renamed := fails.rename injective h.store (h.forest.of_point faced)
    exact step_eq_failed_iff.2 ⟨_, point?_rename faced, renamed⟩
  · rw [step]
    have renamed := moves.rename injective h.store (h.forest.of_point faced)
    exact step_eq_next_iff.2 ⟨_, point?_rename faced, renamed⟩

/-- The run of a renamed machine is its run, renamed. -/
theorem run_rename {machine : Machine} (injective : Set.InjOn image {name | name ∈ names})
    (h : machine.Knows names) (limit : Nat) :
    (machine.rename image).run limit = (machine.run limit).rename image := by
  have renamed := step_rename injective h
  induction limit, machine using run_induction with
  | finished step =>
      rw [step] at renamed
      rw [run_of_finished step, run_of_finished renamed]
      rfl
  | failed step =>
      rw [step] at renamed
      rw [run_of_failed step, run_of_failed renamed]
      rfl
  | stopped step =>
      rw [step] at renamed
      rw [run_zero_of_next step, run_zero_of_next renamed]
      rfl
  | step step ih =>
      rw [step] at renamed
      -- the machine behind the step knows no other names, either
      have known := h.of_step step
      rw [run_succ_of_next step, run_succ_of_next renamed, ih known (step_rename injective known)]
      rfl

end Machine

/-- The run of a renamed tree from a renamed store. -/
theorem execute_rename {tree : Node} (injective : Set.InjOn image {name | name ∈ names})
    (named : ∀ name ∈ tree.variables, name ∈ names) (within : store.Names names) (limit : Nat) :
    execute limit (store.rename image) (tree.rename image) = (execute limit store tree).rename image := by
  have known : (Machine.start store tree).Knows names :=
    ⟨fun label mem name here => named name (List.mem_flatMap.2 ⟨label, mem, here⟩), within⟩
  exact Machine.run_rename injective known limit

end
end CounterLang
