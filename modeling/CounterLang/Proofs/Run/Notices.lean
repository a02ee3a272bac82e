import CounterLang.Proofs.Interpreter.Recorder
import CounterLang.Proofs.Run.Counting
import CounterLang.Proofs.Run.Snapshots
import CounterLang.Proofs.Store.Entries

/-!
# Notices — what a run reports of its events

A run that is watched records events, and the same run reports notices; nothing but the steps of the machine ties the
two together.  They never get out of step: there is one notice for each event, except for the events of loops that are
over, and one more when the run has finished, which tells how many variables have been cleared.

- `Machine.notices_eq`         : the notices of a machine, told from its run
- `Node.isOver`                : an event is that of a loop that is over
- `Logs`                       : the record of an event, told from the node that the event comes from
- `Machine.Path.forall₂_logs`  : the records of a path are those of its events
- `Machine.Path.size`          : the number of variables behind a path
- `Interpreter.exists_runsTo`  : the interpreter reports the notices of a run
- `notices_records`            : the records of a run, and its events
-/

namespace CounterLang

/-! ## Events and records -/

/-- The variable that an action clears, if it clears one. -/
def Action.cleared? : Action → Option String
  | applied _ (.clear name) => some name
  | _ => none

def Node.isLoop : Node → Bool
  | operation _ _ => false
  | loop _ _ _ => true

/-- Whether an event, found with its address, comes from a loop that it does not lead into. -/
def Node.isOver (tree : Node) (entry : List Nat × Event) : Bool :=
  (tree.descendant? entry.1).any isLoop && !entry.2.looping

/-- The record of an event, found with its address: it tells of the node there. -/
inductive Logs (tree : Node) : List Nat × Event → Log.Record → Prop where
  | looping {address : List Nat} {event : Event} {line : Nat} {condition : Condition} {children : List Node} :
      tree.descendant? address = some (.loop line condition children) → event.line = line → event.looping = true →
        Logs tree (address, event)
          ⟨.trace, "condition passed, looping inside", [("line", toString line)]⟩
  | applied {address : List Nat} {event : Event} {line : Nat} {op : Operation} :
      tree.descendant? address = some (.operation line op) → event.line = line → event.looping = false →
        Logs tree (address, event)
          ⟨.trace, "applied", [("line", toString line), ("kind", op.keyword), ("target", op.target)]⟩

section
variable {machine last : Machine} {events : List Event} {tree : Node} {entry : List Nat × Event}
  {record : Log.Record}

theorem Logs.level (h : Logs tree entry record) : record.level = .trace := by
  cases h <;> rfl

theorem Logs.levels {entries : List (List Nat × Event)} {records : List Log.Record}
    (h : List.Forall₂ (Logs tree) entries records) : ∀ record ∈ records, record.level = .trace :=
  ((List.forall₂_and_left _ _).1 (h.flip.imp fun _ _ logs => ⟨Logs.level logs, logs⟩)).1

/-! ## Notices and events -/

/-- A machine reports its events, and that it has finished if it has. -/
theorem Machine.notices_eq (limit : Nat) (machine : Machine) :
    machine.notices limit =
      reports (machine.run limit).events ++
        (if (machine.run limit).outcome = .finished then [.finished (machine.run limit).store.size] else []) := by
  induction limit, machine using run_induction with
  | @finished limit _ step => cases limit <;> simp [notices, step, run_of_finished step, Run.store, reports]
  | @failed limit _ _ step => cases limit <;> simp [notices, step, run_of_failed step, reports]
  | stopped step => simp [notices, step, run_zero_of_next step, reports]
  | step step ih =>
      rw [run_succ_of_next step, Run.cons, reports_cons, List.append_assoc]
      simp only [notices, step]
      exact congrArg _ ih

/-- What an event is reported as, if it is reported at all. -/
theorem Machine.Path.logs_cases (h : Path machine events last) (origin : Fired [tree] machine.forest)
    (mem : entry ∈ machine.located events) :
    (tree.isOver entry = true ∧ entry.2.notice? = none) ∨
      ∃ notice, tree.isOver entry = false ∧ entry.2.notice? = some notice ∧
        Logs tree entry notice.record := by
  rcases List.getElem?_of_mem mem with ⟨position, found⟩
  rcases entry with ⟨address, event⟩
  rcases h.exists_moves origin found with ⟨before, point, next, node, _, moves, _, here, fired⟩
  rcases event with ⟨action, store⟩
  -- the node at the address is of the same kind as the one that the step is taken at
  cases moves with
  | applied _ =>
      cases fired with
      | operation _ => exact .inr ⟨_, by simp [Node.isOver, here, Node.isLoop], rfl, .applied here rfl rfl⟩
  | entered _ =>
      cases fired with
      | loop _ _ _ => exact .inr ⟨_, by simp [Node.isOver, Event.looping, Action.looping], rfl, .looping here rfl rfl⟩
  | left _ =>
      cases fired with
      | loop _ _ _ => exact .inl ⟨by simp [Node.isOver, here, Node.isLoop, Event.looping, Action.looping], rfl⟩

/-- The events of a path, but for those of loops that are over, and the notices of them belong together. -/
theorem Machine.Path.forall₂_logs (h : Path machine events last) (origin : Fired [tree] machine.forest) :
    List.Forall₂ (Logs tree) ((machine.located events).filter fun entry => !tree.isOver entry)
      ((reports events).map Run.Notice.record) := by
  have told : reports events = (machine.located events).filterMap (Event.notice? ∘ Prod.snd) := by
    conv_lhs => rw [← h.map_snd_located, reports, List.filterMap_map]
  rw [told]
  have cases : ∀ entry ∈ machine.located events, _ := fun _ mem => h.logs_cases origin mem
  -- from here on it does not matter that the events are those of a path
  generalize machine.located events = entries at cases ⊢
  induction entries with
  | nil => exact .nil
  | cons entry entries ih =>
      have rest := ih fun entry mem => cases entry (List.mem_cons_of_mem _ mem)
      rcases cases entry List.mem_cons_self with ⟨isOver, unsaid⟩ | ⟨notice, isOver, said, logs⟩
      · rw [List.filterMap_cons_none (f := Event.notice? ∘ Prod.snd) unsaid,
          List.filter_cons_of_neg (by simp [isOver])]
        exact rest
      · rw [List.filterMap_cons_some (f := Event.notice? ∘ Prod.snd) said,
          List.filter_cons_of_pos (by simp [isOver])]
        exact .cons logs rest

/-! ## The number of variables -/

theorem Moment.mem_operations_behind {moment : Moment} {op : Operation} :
    op ∈ (moment.behind events).operations ↔
      op ∈ moment.operations ∨ ∃ event ∈ events, event.action.operation? = some op := by
  induction events generalizing moment with
  | nil => simp [Moment.behind]
  | cons event events ih =>
      have first : op ∈ (moment.next event).operations ↔
          event.action.operation? = some op ∨ op ∈ moment.operations := by
        simp [Moment.next, Option.mem_toList]
      rw [Moment.behind, List.foldl_cons, ← Moment.behind, ih, first]
      simp only [List.mem_cons, exists_eq_or_imp]
      tauto

theorem Action.cleared?_eq_some_iff {action : Action} {name : String} :
    action.cleared? = some name ↔ action.operation? = some (.clear name) := by
  cases action with
  | entered line => simp [cleared?, operation?]
  | left line => simp [cleared?, operation?]
  | applied line op => cases op <;> simp [cleared?, operation?]

/-- Behind a path from an empty store as many variables have a value as have been cleared. -/
theorem Machine.Path.size (h : Path machine events last) (none : machine.store = .empty) :
    last.store.size = (events.filterMap fun event => event.action.cleared?).dedup.length := by
  rcases Moment.counted_start.path h none with ⟨_, counted, same⟩
  refine Store.size_eq fun name => ?_
  rw [← same, counted.isSome_iff, Moment.mem_operations_behind]
  simp [Moment.start, Action.cleared?_eq_some_iff]

end

/-! ## What the interpreter reports -/

/-- With a limit that is larger by one a run that is not stopped has no further events. -/
theorem execute_succ_of_ne_stopped {limit : Nat} {store : Store} {tree : Node}
    (unstopped : (execute limit store tree).outcome ≠ .stopped) :
    (execute (limit + 1) store tree).events = (execute limit store tree).events := by
  rcases run : execute limit store tree with ⟨events, outcome, final⟩
  rcases Machine.run_eq_iff.1 run with ⟨last, left, path, rfl, ends⟩
  have longer : execute (events.length + left + 1) store tree = _ := path.run (left + 1)
  rw [run] at unstopped
  rw [longer]
  cases ends with
  | finished step => simp [Machine.run_of_finished step]
  | failed step => simp [Machine.run_of_failed step]
  | stopped step => exact absurd rfl unstopped

/-- Under the eyes of a recorder the interpreter reports the notices of a run with the same limit.  If it is stopped,
it may have reported the event that it is stopped at as well. -/
theorem Interpreter.exists_runsTo (limit : Nat) (tree : Node) :
    ∃ back, RunsTo (.recorder limit) (some []) tree back ∧
      back.noted = (execute limit .empty tree).events.map Event.sighting ∧
        back.outcome = (execute limit .empty tree).outcome ∧
          ((execute limit .empty tree).outcome = .stopped ∨ back.interpreter.log = notices limit .empty tree) := by
  have runs := (comesTo_execute limit .empty tree).runsTo
  have reported : notices limit .empty tree = _ := (Machine.start .empty tree).notices_eq limit
  rw [show (Machine.start .empty tree).run limit = execute limit .empty tree from rfl] at reported
  rw [reported]
  refine ⟨_, runs, ?_⟩
  cases outcome : (execute limit .empty tree).outcome with
  | finished =>
      have same := execute_succ_of_ne_stopped (by rw [outcome]; nofun)
      exact ⟨rfl, rfl, .inr (by rw [same]; rfl)⟩
  | failed error =>
      have same := execute_succ_of_ne_stopped (by rw [outcome]; nofun)
      exact ⟨rfl, rfl, .inr (by simp [same, Return.conclude])⟩
  | stopped => exact ⟨rfl, rfl, .inl rfl⟩

/-! ## Records of a run -/

/-- A run from an empty store, told from its events, each of them with the address of the node that it comes from.
If the events of loops that are over are left out, there is one record for each of the others, in order: for an event
that leads into a loop, with the line of the loop, and for the event of an operation, with its line, its keyword and
its target.  Behind these there is one more record if and only if the run has finished, and it tells how many
different variables have been cleared.  There are no other records, so a step that fails has none.

The interpreter, which reports each step and tells its observer afterwards, reports the same under the eyes of a
recorder, as long as it is not stopped. -/
theorem notices_records (limit : Nat) (tree : Node) :
    let run := execute limit .empty tree
    let located := (Machine.start .empty tree).located run.events
    let names := run.events.filterMap fun event => event.action.cleared?
    located.map Prod.snd = run.events ∧
      ∃ told, (notices limit .empty tree).map Run.Notice.record =
          told ++ (if run.outcome = .finished then
            [⟨.debug, "program finished", [("variables", toString names.dedup.length)]⟩] else []) ∧
        (∀ record ∈ told, record.level = .trace) ∧
        List.Forall₂ (Logs tree) (located.filter fun entry => !tree.isOver entry) told ∧
          ∃ back, Interpreter.RunsTo (.recorder limit) (some []) tree back ∧
            back.noted = run.events.map Event.sighting ∧ back.outcome = run.outcome ∧
              (run.outcome = .stopped ∨ back.interpreter.log = notices limit .empty tree) := by
  have observed := Interpreter.exists_runsTo limit tree
  rcases run : execute limit .empty tree with ⟨events, outcome, final⟩
  rcases Machine.run_eq_iff.1 run with ⟨last, left, path, _, ends⟩
  have logs := path.forall₂_logs (.refl [tree])
  rw [run] at observed
  refine ⟨path.map_snd_located, _, ?_, Logs.levels logs, logs, observed⟩
  have told : (Machine.start .empty tree).notices limit =
      reports events ++ (if outcome = .finished then [.finished final.store.size] else []) := by
    rw [Machine.notices_eq, show Machine.run limit (Machine.start .empty tree) = _ from run]
    rfl
  rw [notices, told, List.map_append]
  congr 1
  split
  next finished =>
    obtain rfl : final = last := ends.eq_of_ne_stopped (by rw [show outcome = .finished from finished]; nofun)
    rw [List.map_singleton, Run.Notice.record, ← path.size rfl]
  next _ => rfl

end CounterLang
