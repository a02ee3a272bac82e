import CounterLang.Proofs.Run.Reads
import Mathlib.Algebra.Group.Nat.Defs

/-!
# Counting — a store is told from the operations that have been carried out

Several trees are executed one after the other on one store, which starts out empty; each execution goes on as
long as it can, or is abandoned at some event.  At each moment the store is told from the operations carried out
so far: a variable has a value if it has ever been cleared, and the value is the number of times it has been
counted up since, less the number of times it has been counted down.

- `Moment`          : the operations carried out so far, and the store
- `balance`         : what the operations amount to for one variable
- `Moment.Counted`  : the store is what the operations amount to
- `Call`            : one execution, of any tree and of any length
- `Call.moments`    : all moments of a sequence of executions
- `counting_law`    : the law of counting, for all of these moments
-/

namespace CounterLang

/-! ## Moments -/

/-- The operation that an action carries out, if it carries out one. -/
def Action.operation? : Action → Option Operation
  | applied _ op => some op
  | entered _ | left _ => none

structure Moment where
  /-- The operations carried out so far, latest first. -/
  operations : List Operation
  store : Store

namespace Moment

/-- Nothing has been carried out, and no variable has a value. -/
def start : Moment :=
  ⟨[], .empty⟩

/-- The moment of an event. -/
def next (moment : Moment) (event : Event) : Moment :=
  ⟨event.action.operation?.toList ++ moment.operations, event.store⟩

/-- The moments of some events, in order. -/
def along (moment : Moment) : List Event → List Moment
  | [] => []
  | event :: events => moment.next event :: (moment.next event).along events

/-- The moment of the last of some events. -/
def behind (moment : Moment) (events : List Event) : Moment :=
  events.foldl next moment

end Moment

/-! ## Balances -/

/-- The number of times a variable has been counted up since it was last cleared, less the number of times it
has been counted down, by operations of which the latest comes first. -/
def balance (name : String) (operations : List Operation) : Int :=
  let since := operations.takeWhile (· ≠ .clear name)
  since.count (.increment name) - since.count (.decrement name)

section
variable {name target : String} {operations : List Operation}

theorem balance_clear : balance name (.clear name :: operations) = 0 := by
  simp [balance]

theorem balance_increment : balance name (.increment name :: operations) = balance name operations + 1 := by
  simp [balance]
  omega

theorem balance_decrement : balance name (.decrement name :: operations) = balance name operations - 1 := by
  simp [balance]
  omega

/-- Operations on other variables do not matter. -/
theorem balance_of_ne {op : Operation} (other : op.target ≠ name) :
    balance name (op :: operations) = balance name operations := by
  cases op <;> simp_all [balance, Operation.target]

/-- A balance is no larger than the number of operations, in either direction. -/
theorem balance_bounds (name : String) (operations : List Operation) :
    -(operations.length : Int) ≤ balance name operations ∧ balance name operations ≤ operations.length := by
  have up := List.count_le_length (a := Operation.increment name) (l := operations.takeWhile (· ≠ .clear name))
  have down := List.count_le_length (a := Operation.decrement name) (l := operations.takeWhile (· ≠ .clear name))
  have part := (List.takeWhile_sublist (l := operations) (· ≠ .clear name)).length_le
  simp only [balance]
  omega

end

/-! ## The law of one operation -/

namespace Moment

/-- A variable has a value if and only if it has been cleared, and the value is its balance, which wraps around
at either end of the range of words. -/
def Counted (moment : Moment) : Prop :=
  ∀ name, moment.store.get? name =
    if .clear name ∈ moment.operations then some (Int64.ofInt (balance name moment.operations)) else none

theorem counted_start : start.Counted := by
  intro name
  simp [start, Store.get?_empty]

theorem Counted.isSome_iff {moment : Moment} (h : moment.Counted) {name : String} :
    (moment.store.get? name).isSome ↔ .clear name ∈ moment.operations := by
  rw [h name]
  split <;> simp_all

/-- A value is the balance, wrapped around, and the balance itself as long as it fits into a word. -/
theorem Counted.value {moment : Moment} (h : moment.Counted) {name : String} {value : Int64}
    (found : moment.store.get? name = some value) :
    value = Int64.ofInt (balance name moment.operations) ∧
      (moment.operations.length < 2 ^ 63 → value.toInt = balance name moment.operations) := by
  have wrapped : value = Int64.ofInt (balance name moment.operations) := by
    have cleared : .clear name ∈ moment.operations := h.isSome_iff.1 (by simp [found])
    have law := h name
    rw [found, if_pos cleared] at law
    exact Option.some.inj law
  refine ⟨wrapped, ?_⟩
  intro few
  have bounds := balance_bounds name moment.operations
  rw [wrapped]
  exact Int64.toInt_ofInt_of_le (by omega) (by omega)

/-- The law survives each operation: the variable that it works on comes to have its new balance, and all other
variables keep theirs. -/
theorem Counted.apply {op : Operation} {operations : List Operation} {store changed : Store}
    (h : Counted ⟨operations, store⟩) (applied : op.apply store = .ok changed) :
    Counted ⟨op :: operations, changed⟩ := by
  -- a variable that is counted has a value already, so that it has been cleared
  have cleared : ∀ target value, store.get? target = some value →
      .clear target ∈ operations ∧ value = Int64.ofInt (balance target operations) := by
    intro target value found
    exact ⟨h.isSome_iff.1 (by simp [found]), (h.value found).1⟩
  have others : ∀ name, op.target ≠ name → changed.get? name = store.get? name →
      changed.get? name = if .clear name ∈ op :: operations then
        some (Int64.ofInt (balance name (op :: operations))) else none := by
    intro name other same
    have kept : .clear name ∈ op :: operations ↔ .clear name ∈ operations := by
      cases op <;> simp_all [Operation.target, eq_comm]
    rw [same, balance_of_ne other]
    simpa only [kept] using h name
  intro name
  rcases Operation.apply_cases applied with ⟨target, rfl, rfl⟩ | ⟨target, value, rfl, found, rfl⟩ |
    ⟨target, value, rfl, found, rfl⟩
  · by_cases same : name = target
    · subst same
      simp [Store.get?_set, balance_clear]
    · exact others name (Ne.symm same) (by simp [Store.get?_set, same])
  · by_cases same : name = target
    · subst same
      rcases cleared name value found with ⟨before, rfl⟩
      simp [Store.get?_set, balance_increment, before, Int64.ofInt_add]
    · exact others name (Ne.symm same) (by simp [Store.get?_set, same])
  · by_cases same : name = target
    · subst same
      rcases cleared name value found with ⟨before, rfl⟩
      simp [Store.get?_set, balance_decrement, before, Int64.ofInt_sub]
    · exact others name (Ne.symm same) (by simp [Store.get?_set, same])

/-! ## The law of steps and of paths -/

theorem Counted.moves {moment : Moment} {point : Point} {action : Action} {next : Machine} (h : moment.Counted)
    (moves : point.Moves moment.store action next) : (moment.next ⟨action, next.store⟩).Counted := by
  cases moves with
  | applied result => exact h.apply result
  | entered _ => exact h
  | left _ => exact h

/-- Along a path the law holds at each event, and behind it the store is that of the machine that is reached. -/
theorem Counted.path {moment : Moment} {machine last : Machine} {events : List Event} (h : moment.Counted)
    (path : machine.Path events last) (same : machine.store = moment.store) :
    (∀ later ∈ moment.along events, later.Counted) ∧ (moment.behind events).Counted ∧
      (moment.behind events).store = last.store := by
  induction path generalizing moment with
  | refl => exact ⟨by simp [along], h, same.symm⟩
  | @step _ next _ action _ step _ ih =>
      rcases Machine.step_eq_next_iff.1 step with ⟨point, _, moves⟩
      rw [same] at moves
      have first := h.moves moves
      rcases ih first rfl with ⟨all, final, there⟩
      exact ⟨List.forall_mem_cons.2 ⟨first, all⟩, final, there⟩

/-! ## Operations are never taken back -/

/-- What has been carried out at one moment has been carried out at another one, too. -/
def Before (earlier later : Moment) : Prop :=
  earlier.operations <:+ later.operations

theorem Before.trans {earlier middle later : Moment} (first : Before earlier middle) (second : Before middle later) :
    Before earlier later :=
  List.IsSuffix.trans first second

theorem before_next (moment : Moment) (event : Event) : Before moment (moment.next event) :=
  List.suffix_append _ _

theorem before_of_mem_along {moment later : Moment} {events : List Event} (h : later ∈ moment.along events) :
    Before moment later := by
  induction events generalizing moment with
  | nil => cases h
  | cons event events ih =>
      rcases List.mem_cons.1 h with rfl | h
      · exact before_next moment event
      · exact (before_next moment event).trans (ih h)

theorem before_behind (moment : Moment) (events : List Event) : Before moment (moment.behind events) := by
  induction events generalizing moment with
  | nil => exact List.suffix_rfl
  | cons event events ih => exact (before_next moment event).trans (ih _)

theorem along_before_behind {moment later : Moment} {events : List Event} (h : later ∈ moment.along events) :
    Before later (moment.behind events) := by
  induction events generalizing moment with
  | nil => cases h
  | cons event events ih =>
      rcases List.mem_cons.1 h with rfl | h
      · exact before_behind _ events
      · exact ih h

theorem pairwise_along (moment : Moment) (events : List Event) : (moment.along events).Pairwise Before := by
  induction events generalizing moment with
  | nil => exact .nil
  | cons event events ih => exact .cons (fun _ mem => before_of_mem_along mem) (ih _)

/-- Where the law holds, a variable that has a value once keeps having one. -/
theorem Before.isSome {earlier later : Moment} (h : Before earlier later) (first : earlier.Counted)
    (second : later.Counted) {name : String} (present : (earlier.store.get? name).isSome) :
    (later.store.get? name).isSome := by
  have cleared : .clear name ∈ later.operations := h.subset (first.isSome_iff.1 present)
  exact second.isSome_iff.2 cleared

end Moment

/-! ## Executions -/

/-- One execution of a tree, which is abandoned at the event behind the first `limit` ones. -/
structure Call where
  tree : Node
  limit : Nat

namespace Call

open Moment

def run (call : Call) (store : Store) : Run :=
  execute call.limit store call.tree

/-- The events of an execution, with the one that it is abandoned at. -/
def events (call : Call) (store : Store) : List Event :=
  (execute (call.limit + 1) store call.tree).events

/-- The moment when an execution is over. -/
def ended (call : Call) (moment : Moment) : Moment :=
  ⟨(moment.behind (call.events moment.store)).operations, (call.run moment.store).store⟩

/-- The moment when a sequence of executions is over. -/
def allEnded (moment : Moment) (calls : List Call) : Moment :=
  calls.foldl (fun moment call => call.ended moment) moment

/-- The moments of a sequence of executions: in front of the first of them, at each event, and whenever one of
them is over. -/
def moments (moment : Moment) : List Call → List Moment
  | [] => [moment]
  | call :: calls => moment :: moment.along (call.events moment.store) ++ moments (call.ended moment) calls

/-- The law holds at each event of an execution and when it is over, if it holds in front of it. -/
theorem counted {moment : Moment} (call : Call) (h : moment.Counted) :
    (∀ later ∈ moment.along (call.events moment.store), later.Counted) ∧ (call.ended moment).Counted := by
  have path := Machine.path_run (Machine.start moment.store call.tree) call.limit
  rcases h.path path rfl with ⟨all, final, there⟩
  refine ⟨all, ?_⟩
  -- the last event and the machine that is left agree on the store
  have same : call.ended moment = moment.behind (call.events moment.store) := by
    rw [ended, show (call.run moment.store).store = _ from there.symm]
    rfl
  rw [same]
  exact final

theorem counted_moments {moment : Moment} (h : moment.Counted) (calls : List Call) :
    ∀ later ∈ moments moment calls, later.Counted := by
  induction calls generalizing moment with
  | nil => simpa [moments] using h
  | cons call calls ih =>
      rcases call.counted h with ⟨all, final⟩
      rw [moments]
      refine List.forall_mem_append.2 ⟨List.forall_mem_cons.2 ⟨h, all⟩, ih final⟩

theorem counted_allEnded {moment : Moment} (h : moment.Counted) (calls : List Call) :
    (allEnded moment calls).Counted := by
  induction calls generalizing moment with
  | nil => exact h
  | cons call calls ih => exact ih (call.counted h).2

/-- A variable that an execution fails to find is not in the store that it leaves. -/
theorem missing_of_failed {call : Call} {store : Store} {name : String}
    (h : (call.run store).outcome = .failed (.undefinedVariable name)) : (call.run store).store.get? name = none := by
  rcases Machine.step_eq_failed_iff.1 (Machine.step_of_run_failed h) with ⟨point, _, fails⟩
  rcases fails.cases with ⟨_, _, missing, same⟩ | ⟨_, _, _, _, _, other⟩
  · obtain rfl := RuntimeError.undefinedVariable.inj same
    exact missing
  · cases other

theorem before_ended (moment : Moment) (call : Call) : Before moment (call.ended moment) :=
  before_behind moment _

theorem before_of_mem_moments {moment later : Moment} {calls : List Call} (h : later ∈ moments moment calls) :
    Before moment later := by
  induction calls generalizing moment with
  | nil =>
      obtain rfl := List.mem_singleton.1 h
      exact List.suffix_rfl
  | cons call calls ih =>
      rw [moments] at h
      rcases List.mem_append.1 h with h | h
      · rcases List.mem_cons.1 h with rfl | h
        · exact List.suffix_rfl
        · exact before_of_mem_along h
      · exact (before_ended moment call).trans (ih h)

theorem pairwise_moments (moment : Moment) (calls : List Call) : (moments moment calls).Pairwise Before := by
  induction calls generalizing moment with
  | nil => exact List.pairwise_singleton ..
  | cons call calls ih =>
      rw [moments]
      refine List.pairwise_append.2 ⟨.cons (fun _ mem => before_of_mem_along mem) (pairwise_along ..), ih _, ?_⟩
      intro earlier here later there
      refine Before.trans ?_ (before_of_mem_moments there)
      rcases List.mem_cons.1 here with rfl | here
      · exact before_ended ..
      · exact along_before_behind here

end Call

/-! ## The law of counting -/

/-- Whatever trees are executed one after the other, and however far, starting from an empty store: at each moment
a variable has a value if and only if it has been cleared, and the value is its balance, wrapped around at the
ends of the range of words, which fewer than 2⁶³ operations do not reach.  So no variable ever loses its value; and
a variable that an execution fails to find has never been cleared, and is not in the store that is left. -/
theorem counting_law (calls : List Call) :
    (∀ moment ∈ Call.moments .start calls, ∀ name,
        ((moment.store.get? name).isSome ↔ .clear name ∈ moment.operations) ∧
          ∀ value, moment.store.get? name = some value →
            value = Int64.ofInt (balance name moment.operations) ∧
              (moment.operations.length < 2 ^ 63 → value.toInt = balance name moment.operations)) ∧
      (Call.moments .start calls).Pairwise (fun earlier later =>
        ∀ name, (earlier.store.get? name).isSome → (later.store.get? name).isSome) ∧
      ∀ call name, (Call.run call (Call.allEnded .start calls).store).outcome = .failed (.undefinedVariable name) →
        let moment := call.ended (Call.allEnded .start calls)
        .clear name ∉ moment.operations ∧ moment.store.get? name = none := by
  have counted := Call.counted_moments Moment.counted_start calls
  refine ⟨?_, ?_, ?_⟩
  · intro moment mem name
    exact ⟨(counted moment mem).isSome_iff, fun _ => (counted moment mem).value⟩
  · refine (Call.pairwise_moments .start calls).imp_of_mem ?_
    intro earlier later here there before name
    exact before.isSome (counted earlier here) (counted later there)
  · intro call name fails moment
    have missing : moment.store.get? name = none := Call.missing_of_failed fails
    have law : moment.Counted := (call.counted (Call.counted_allEnded Moment.counted_start calls)).2
    refine ⟨?_, missing⟩
    intro cleared
    have present := law.isSome_iff.2 cleared
    simp [missing] at present

/-- An execution that is abandoned when it has counted up once, and one that finds another variable missing. -/
theorem counting_law_abandoned :
    let first : Call := ⟨Node.root [.operation 1 (.clear "x"), .operation 2 (.increment "x"),
      .operation 3 (.increment "x")], 2⟩
    let second : Call := ⟨.operation 1 (.decrement "y"), 5⟩
    (second.run (Call.allEnded .start [first]).store).outcome = .failed (.undefinedVariable "y") ∧
      .clear "y" ∉ (second.ended (Call.allEnded .start [first])).operations ∧
      (second.ended (Call.allEnded .start [first])).store.get? "y" = none ∧
      ∃ moment ∈ Call.moments .start [first], moment.operations = [.increment "x", .clear "x"] ∧
        ∃ value, moment.store.get? "x" = some value ∧ value.toInt = 1 := by
  intro first second
  rcases counting_law [first] with ⟨values, _, failures⟩
  have fails : (second.run (Call.allEnded .start [first]).store).outcome = .failed (.undefinedVariable "y") := rfl
  rcases failures second "y" fails with ⟨never, missing⟩
  refine ⟨fails, never, missing, ?_⟩
  have mem : first.ended .start ∈ Call.moments .start [first] := by simp [Call.moments]
  have value : (first.ended .start).store.get? "x" = some 1 := rfl
  exact ⟨_, mem, rfl, 1, value, (((values _ mem "x").2 _ value).2 (by decide)).trans (by decide)⟩

end CounterLang
