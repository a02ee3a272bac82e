import CounterLang.Proofs.Interpreter.Recorder
import CounterLang.Proofs.Run.Reads
import CounterLang.Proofs.Run.Rounds

/-!
# Snapshots — the store from one event to the next

Every event carries the store behind its step, and nothing happens to the store between two events.  The event of an
operation tells of a store in which one variable has changed; the event of a loop, of the store that was there before.
A step that fails has no event, and leaves the store of the last one.

- `Operation.Changes`       : what an operation changes in a store
- `Node.Emits`              : an event of a node, in front of which there is a given store
- `snapshots`               : the stores of a run, in front of each event and behind the last
- `Machine.Path.exists_moves` : each event on a path comes from a step at some node of the tree
- `execute_snapshots`       : the stores of an execution
-/

namespace CounterLang

/-! ## What an event tells of the store -/

/-- The value that an operation gives to its target, told from the one that it finds there. -/
def Operation.value? : Operation → Option Int64 → Option Int64
  | clear _, _ => some 0
  | increment _, found => found.map (· + 1)
  | decrement _, found => found.map (· - 1)
  | arithmetic _ _ _, _ => none

/-- The target of an operation comes to have its new value, and all other variables stay as they are. -/
structure Operation.Changes (op : Operation) (before after : Store) : Prop where
  target : ∃ value, op.value? (before.get? op.target) = some value ∧ after.get? op.target = some value
  others : ∀ name, name ≠ op.target → after.get? name = before.get? name

/-- What an event tells of the node that it comes from, and of the store in front of it. -/
inductive Node.Emits (before : Store) : Node → Event → Prop where
  | operation {line : Nat} {op : Operation} {after : Store} :
      op.Changes before after → Emits before (.operation line op) ⟨.applied line op, after⟩
  | entered {line : Nat} {condition : Condition} {children : List Node} :
      Emits before (.loop line condition children) ⟨.entered line, before⟩
  | left {line : Nat} {condition : Condition} {children : List Node} :
      Emits before (.loop line condition children) ⟨.left line, before⟩

/-- The stores in front of each of some events, and the one behind the last of them. -/
def snapshots (store : Store) (events : List Event) : List Store :=
  store :: events.map Event.store

section
variable {op : Operation} {store changed : Store} {point : Point} {action : Action} {machine next last : Machine}
  {events : List Event} {event : Event} {node tree : Node} {position : Nat} {address : List Nat}

/-- Setting the target to its new value is all that it takes. -/
theorem Operation.changes_set (op : Operation) {value : Int64} (new : op.value? (store.get? op.target) = some value) :
    op.Changes store (store.set op.target value) where
  target := ⟨value, new, by rw [Store.get?_set, if_pos rfl]⟩
  others name other := by rw [Store.get?_set, if_neg other]

theorem Operation.changes_of_apply (result : op.apply store = .ok changed) : op.Changes store changed := by
  rcases Operation.apply_cases result with ⟨target, rfl, rfl⟩ | ⟨target, value, rfl, found, rfl⟩ |
    ⟨target, value, rfl, found, rfl⟩
  · exact changes_set (.clear target) rfl
  · exact changes_set (.increment target) (by simp [value?, Operation.target, found])
  · exact changes_set (.decrement target) (by simp [value?, Operation.target, found])

/-! ## Steps and paths -/

/-- A step tells of the node that it is taken at, now and before the triggers of this node have fired. -/
theorem Point.Moves.emits (h : point.Moves store action next) (fired : Fired [node] [point.node]) :
    node.Emits store ⟨action, next.store⟩ := by
  cases h with
  | applied result =>
      cases fired with
      | operation _ => exact .operation (Operation.changes_of_apply result)
  | entered _ =>
      cases fired with
      | loop _ _ _ => exact .entered
  | left _ =>
      cases fired with
      | loop _ _ _ => exact .left

namespace Machine

/-- Each event on a path comes from a step, taken with the store in front of the event, at a node that has been at the
address of the event from the beginning. -/
theorem Path.exists_moves (h : Path machine events last) (origin : Fired [tree] machine.forest)
    (found : (machine.located events)[position]? = some (address, event)) :
    ∃ (before : Store) (point : Point) (next : Machine) (node : Node),
      (snapshots machine.store events)[position]? = some before ∧ point.Moves before event.action next ∧
        next.store = event.store ∧ tree.descendant? address = some node ∧ Fired [node] [point.node] := by
  induction h generalizing position with
  | refl => simp [located] at found
  | @step machine next last action events step _ ih =>
      rcases step_eq_next_iff.1 step with ⟨point, faced, moves⟩
      rw [located_cons faced step] at found
      cases position with
      | zero =>
          obtain ⟨rfl, rfl⟩ := Prod.mk.inj (Option.some.inj found)
          rw [← forest_of_point? faced] at origin
          obtain ⟨node, there, fired⟩ := Point.exists_origin origin
          exact ⟨machine.store, point, next, node, rfl, moves, rfl, there, fired⟩
      | succ position => exact ih (origin.trans (fired_of_step step)) found

/-- The last of the stores on a path is that of the machine that it leads to. -/
theorem Path.getLast?_snapshots (h : Path machine events last) :
    (snapshots machine.store events).getLast? = some last.store := by
  induction h with
  | refl => rfl
  | step _ _ ih =>
      rw [snapshots, List.map_cons, List.getLast?_cons_cons]
      exact ih

end Machine
end

/-! ## Executions -/

/-- Every event of an execution comes from a node of the tree.  The event of a loop carries the store in front of it,
which is that of the event before or the one that the execution has started with; the event of an operation carries
this store, changed by that operation in its target alone.  An execution that comes to an end, be it an error, leaves
the store of its last event.  The interpreter that goes down into the tree comes back with the same outcome and the same
store, from wherever in the tree it is, and its observer has been told of these events and no others. -/
theorem execute_snapshots (limit : Nat) (store : Store) (tree : Node) :
    let run := execute limit store tree
    let located := (Machine.start store tree).located run.events
    located.map Prod.snd = run.events ∧
      (∀ (position : Nat) (address : List Nat) (event : Event), located[position]? = some (address, event) →
        ∃ before node, (snapshots store run.events)[position]? = some before ∧
          tree.descendant? address = some node ∧ node.Emits before event) ∧
      (run.outcome ≠ .stopped → (snapshots store run.events).getLast? = some run.store) ∧
      ∃ back, Interpreter.ComesTo (.recorder limit) (.watched store) tree back ∧ back.outcome = run.outcome ∧
        back.noted = run.events.map Event.sighting ∧ back.interpreter.store = run.store := by
  have comes := Interpreter.comesTo_execute limit store tree
  rcases run : execute limit store tree with ⟨events, outcome, final⟩
  rcases Machine.run_eq_iff.1 run with ⟨last, left, path, _, ends⟩
  rw [run] at comes
  refine ⟨path.map_snd_located, ?_, ?_, _, comes, rfl, rfl, rfl⟩
  · intro position address event found
    rcases path.exists_moves (.refl [tree]) found with ⟨before, point, next, node, there, moves, same, here, fired⟩
    refine ⟨before, node, there, here, ?_⟩
    have emitted := moves.emits fired
    rwa [same] at emitted
  · intro ended
    obtain rfl := ends.eq_of_ne_stopped ended
    exact path.getLast?_snapshots

/-- An error in the second round of a loop: the operation that fails has no event, and the store is that of the event
before it; the event of the operation in the first round tells of one more. -/
theorem execute_snapshots_failing :
    let tree := Node.root [.operation 1 (.clear "x"), .loop 2 (.compare .notEqual (.var "x") (.literal 5))
      [.operation 3 (.increment "x"), .loop 4 (.compare .equal (.var "x") (.literal 2)) [.operation 5 (.decrement "y")]]]
    let run := execute 20 .empty tree
    run.outcome = .failed (.undefinedVariable "y") ∧
      (snapshots .empty run.events).getLast? = some run.store ∧
        (Operation.increment "x").Changes (Store.empty.set "x" 0) (Store.empty.set "x" 1) := by
  intro tree run
  have fails : run.outcome = .failed (.undefinedVariable "y") := rfl
  rcases execute_snapshots 20 .empty tree with ⟨_, events, ended, _⟩
  refine ⟨fails, ended (by rw [show (execute 20 .empty tree).outcome = _ from fails]; nofun), ?_⟩
  rcases events 3 [0, 1] ⟨.applied 3 (.increment "x"), Store.empty.set "x" 1⟩ rfl with
    ⟨before, node, there, _, emitted⟩
  obtain rfl : Store.empty.set "x" 0 = before := Option.some.inj there
  cases emitted with
  | operation changes => exact changes

end CounterLang
