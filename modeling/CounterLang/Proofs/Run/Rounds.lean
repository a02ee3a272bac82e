import CounterLang.Proofs.Node.Address
import CounterLang.Proofs.Run.Origin

/-!
# Rounds — a trigger fires when its loop is entered

Each event of a run comes from a node, and the node has an address in the tree.  A trigger fires in the very step
that enters its loop, and never again.  So a loop with a trigger is entered at most once, however often the run
comes back to it.

- `Machine.located`       : events, each with the address of the node that it comes from
- `rounds`                : how often the loop at some place is entered
- `Point.exists_origin`   : where the node at a point has been from the beginning
- `Point.Moves.fired?`    : what a step does to a trigger
- `Machine.Path.fired?`   : a trigger has fired as often as its loop has been entered
- `execute_fired?`        : the same for a run of a tree
-/

namespace CounterLang

/-! ## Events and where they come from -/

/-- The address of the node at a point. -/
def Point.address (point : Point) : List Nat :=
  CounterLang.address point.before.length point.frames

/-- The next events of a machine, each with the address of the node that it comes from. -/
def Machine.located (machine : Machine) : List Event → List (List Nat × Event)
  | [] => []
  | event :: events =>
    match machine.point?, machine.step with
    | some point, .next _ next => (point.address, event) :: next.located events
    | _, _ => []

/-- How often the loop at some place is entered. -/
def rounds {Place : Type} [DecidableEq Place] (place : Place) (events : List (Place × Event)) : Nat :=
  events.countP fun entry => entry.1 = place ∧ entry.2.looping

section
variable {store : Store} {point : Point} {action : Action} {machine next last : Machine} {event : Event}
  {events : List Event} {tree tree' : Node} {path : List Nat} {fired : Bool}

theorem Machine.located_cons (faced : machine.point? = some point) (step : machine.step = .next action next) :
    machine.located (event :: events) = (point.address, event) :: next.located events := by
  simp [located, faced, step]

theorem rounds_cons (address : List Nat) (event : Event) (entries : List (List Nat × Event)) :
    rounds path ((address, event) :: entries) =
      (if address = path ∧ event.looping then 1 else 0) + rounds path entries := by
  simp [rounds, List.countP_cons, Nat.add_comm]

theorem rounds_append {Place : Type} [DecidableEq Place] (place : Place) (front back : List (Place × Event)) :
    rounds place (front ++ back) = rounds place front + rounds place back :=
  List.countP_append

/-- No event of a path is left out. -/
theorem Machine.Path.map_snd_located (h : Path machine events last) :
    (machine.located events).map Prod.snd = events := by
  induction h with
  | refl => rfl
  | step step _ ih =>
      rcases step_eq_next_iff.1 step with ⟨point, faced, _⟩
      rw [located_cons faced step, List.map_cons, ih]

/-- The node at a point has been at its address from the beginning. -/
theorem Point.exists_origin (origin : Fired [tree] point.forest) :
    ∃ node, tree.descendant? point.address = some node ∧ Fired [node] [point.node] := by
  obtain ⟨later, whole⟩ := origin.exists_tree
  exact (whole ▸ origin).exists_descendant? (descendant?_plug whole)

/-! ## Triggers and rounds -/

/-- A test fires the trigger of a loop if and only if the loop is entered, and fires no other trigger. -/
theorem fired?_tested {before after children : List Node} {line : Nat} {condition : Condition} {frames : List Frame}
    {round : Bool} (result : condition.holds store = .ok round)
    (whole : plug (before.reverse ++ .loop line condition children :: after) frames = [tree])
    (whole' : plug (before.reverse ++ .loop line condition.tested children :: after) frames = [tree'])
    (found : tree.fired? path = some fired) :
    ∃ fired', tree'.fired? path = some fired' ∧
      fired'.toNat = fired.toNat + if address before.length frames = path ∧ round then 1 else 0 := by
  by_cases here : address before.length frames = path
  · subst here
    rw [fired?_plug whole] at found
    cases condition with
    | once old =>
        obtain rfl : old = fired := Option.some.inj found
        -- the loop is entered just if its trigger has not fired yet
        obtain rfl : (!old) = round := Except.ok.inj result
        refine ⟨true, fired?_plug whole', ?_⟩
        cases old <;> simp
    | compare comparison left right => cases found
  · refine ⟨fired, (fired?_elsewhere whole whole' (Ne.symm here)).trans found, ?_⟩
    simp [here]

/-- A step fires a trigger if and only if it enters its loop. -/
theorem Point.Moves.fired? (h : point.Moves store action next) (whole : point.forest = [tree])
    (whole' : next.forest = [tree']) (found : tree.fired? path = some fired) :
    ∃ fired', tree'.fired? path = some fired' ∧
      fired'.toNat = fired.toNat + if point.address = path ∧ action.looping then 1 else 0 := by
  cases h with
  | @applied before after frames line op changed _ =>
      have same : [tree] = [tree'] := by
        rw [← whole, ← whole']
        simp [Machine.forest, Point.forest]
      obtain rfl := (List.cons.inj same).1
      exact ⟨fired, found, by simp [Action.looping]⟩
  | entered result => exact fired?_tested result whole whole' found
  | @left before after children frames line condition result =>
      refine fired?_tested result whole ?_ found
      simpa [Machine.forest] using whole'

/-- A trigger has fired at the end of a path as often as it had at the start and its loop has been entered since. -/
theorem Machine.Path.fired? (h : Path machine events last) (whole : machine.forest = [tree])
    (found : tree.fired? path = some fired) :
    ∃ tree' fired', last.forest = [tree'] ∧ tree'.fired? path = some fired' ∧
      fired'.toNat = fired.toNat + rounds path (machine.located events) := by
  induction h generalizing tree fired with
  | refl => exact ⟨tree, fired, whole, found, rfl⟩
  | step step _ ih =>
      rcases step_eq_next_iff.1 step with ⟨point, faced, moves⟩
      obtain ⟨tree', whole'⟩ := Fired.exists_tree (whole ▸ fired_of_step step)
      rcases moves.fired? ((forest_of_point? faced).trans whole) whole' found with ⟨fired', found', once⟩
      rcases ih whole' found' with ⟨tree'', fired'', whole'', found'', more⟩
      refine ⟨tree'', fired'', whole'', found'', ?_⟩
      rw [located_cons faced step, rounds_cons, more, once, Nat.add_assoc]
      rfl

/-! ## Executions -/

/-- An execution leaves one tree behind. -/
theorem forest_execute (limit : Nat) (store : Store) (tree : Node) :
    (execute limit store tree).machine.forest = [(execute limit store tree).tree] := by
  have path := Machine.path_run (Machine.start store tree) limit
  obtain ⟨later, whole⟩ := Fired.exists_tree (path.fired : Fired [tree] _)
  have whole' : (execute limit store tree).machine.forest = [later] := whole
  rw [Run.tree, Machine.tree, whole']
  rfl

/-- An execution changes nothing in its tree but triggers that fire. -/
theorem fired_execute (limit : Nat) (store : Store) (tree : Node) : Fired [tree] [(execute limit store tree).tree] := by
  rw [← forest_execute]
  exact (Machine.path_run (Machine.start store tree) limit).fired

/-- What has fired at some event of an execution has fired at all later ones. -/
theorem fired_execute_add (limit more : Nat) (store : Store) (tree : Node) :
    Fired [(execute limit store tree).tree] [(execute (limit + more) store tree).tree] := by
  obtain ⟨events, path⟩ := Machine.exists_path_run_add (Machine.start store tree) limit more
  rw [← forest_execute, ← forest_execute]
  exact path.fired

/-- A trigger fires in the course of an execution if and only if its loop is entered.  The event that the execution
is stopped at counts as well. -/
theorem execute_fired? (limit : Nat) (store : Store) (found : tree.fired? path = some fired) :
    ∃ fired', (execute limit store tree).tree.fired? path = some fired' ∧
      fired'.toNat = fired.toNat +
        rounds path ((Machine.start store tree).located (execute (limit + 1) store tree).events) := by
  have path := Machine.path_run (Machine.start store tree) limit
  rcases path.fired? rfl found with ⟨later, fired', whole, found', once⟩
  have same : [(execute limit store tree).tree] = [later] := (forest_execute limit store tree).symm.trans whole
  rw [(List.cons.inj same).1]
  exact ⟨fired', found', once⟩

/-- The loop that an execution starts with is tested in any case. -/
theorem execute_trigger (limit : Nat) (store : Store) (line : Nat) (fired : Bool) (children : List Node) :
    ∃ children', (execute limit store (.loop line (.once fired) children)).tree =
      .loop line (.once true) children' := by
  have tested : (execute 0 store (.loop line (.once fired) children)).tree = .loop line (.once true) children := by
    cases fired <;> rfl
  have later := fired_execute_add 0 limit store (.loop line (.once fired) children)
  rw [tested, Nat.zero_add] at later
  obtain ⟨condition, children', same, kept⟩ := later.exists_loop
  cases kept
  exact ⟨children', same⟩

/-- A loop whose trigger has fired is left at once, and is not changed any more. -/
theorem execute_of_fired (limit : Nat) (store : Store) (line : Nat) (children : List Node) :
    execute limit store (.loop line (.once true) children) =
      ⟨[⟨.left line, store⟩].take limit, if limit = 0 then .stopped else .finished,
        ⟨store, [.loop line (.once true) children], [], []⟩⟩ := by
  cases limit with
  | zero => rfl
  | succ limit =>
      have left : (Machine.start store (.loop line (.once true) children)).step =
        .next (.left line) ⟨store, [.loop line (.once true) children], [], []⟩ := rfl
      rw [execute, Machine.run_succ_of_next left, Machine.run_of_finished rfl]
      simp [Run.cons]

end
end CounterLang
