import CounterLang.Proofs.Run.Lockstep
import CounterLang.Proofs.Run.Rounds
import CounterLang.Proofs.Run.Transport

/-!
# Body — the children of a loop, carried out one by one

A child runs in the body of its loop as it does on its own; the addresses of its events only go on up to the loop.
When it has come to its end, there has been exactly one event in which the child as a whole was carried out, and the
machine stands in front of the next child.

- `Completes`                     : a tree that is run from a store comes to its end
- `completions`                   : how often the node at some place has been carried out
- `Machine.Path.located_within`   : where the events of a machine come from, in larger surroundings
- `Machine.Path.completions_root` : a tree is carried out once in a run to its end
- `Covers`                        : the events of a loop that carries out some of its children
- `exists_path_child`             : a child that completes is carried out in its loop
- `path_operation`                : so is an operation that can be applied
-/

namespace CounterLang

/-- A tree that is run from a store comes to its end, without an error. -/
def Completes (store : Store) (tree : Node) : Prop :=
  ∃ limit, (execute limit store tree).outcome = .finished

/-- How often the node at some place has been carried out: an operation when it has been applied, and a loop when it
has been left. -/
def completions (place : List Nat) (entries : List (List Nat × Event)) : Nat :=
  entries.countP fun entry => entry.1 = place ∧ entry.2.looping = false

/-- No operation of a forest gives a value to a variable. -/
def Unwritten (name : String) (nodes : List Node) : Prop :=
  ∀ label ∈ Node.labels nodes, name ∉ label.written

instance (name : String) (nodes : List Node) : Decidable (Unwritten name nodes) :=
  inferInstanceAs (Decidable (∀ label ∈ Node.labels nodes, name ∉ label.written))

section
variable {machine middle next last : Machine} {store : Store} {point : Point} {action : Action} {tree : Node}
  {events later : List Event} {outer : Surroundings} {place : List Nat} {name : String} {nodes nodes' : List Node}

theorem unwritten_append {front back : List Node} :
    Unwritten name (front ++ back) ↔ Unwritten name front ∧ Unwritten name back := by
  simp only [Unwritten, labels_append, List.forall_mem_append]

theorem Fired.unwritten (h : Fired nodes nodes') (free : Unwritten name nodes) : Unwritten name nodes' := by
  intro label mem
  rcases h.exists_label mem with ⟨old, found, fired⟩
  rw [fired.written]
  exact free old found

theorem Fired.length_eq (h : Fired nodes nodes') : nodes'.length = nodes.length := by
  induction h with
  | nil => rfl
  | operation _ ih => simp [ih]
  | loop _ _ _ _ ih => simp [ih]

theorem completions_cons (address : List Nat) (event : Event) (entries : List (List Nat × Event)) :
    completions place ((address, event) :: entries) =
      (if address = place ∧ event.looping = false then 1 else 0) + completions place entries := by
  simp [completions, List.countP_cons, Nat.add_comm]

theorem completions_append (place : List Nat) (front back : List (List Nat × Event)) :
    completions place (front ++ back) = completions place front + completions place back :=
  List.countP_append

namespace Machine

/-! ## Paths one behind the other -/

theorem Path.trans (first : Path machine events middle) (second : Path middle later last) :
    Path machine (events ++ later) last := by
  induction first with
  | refl => exact second
  | step step _ ih => exact .step step (ih second)

theorem Path.located_append (h : Path machine events middle) (later : List Event) :
    machine.located (events ++ later) = machine.located events ++ middle.located later := by
  induction h with
  | refl => rfl
  | step step _ ih =>
      rcases step_eq_next_iff.1 step with ⟨point, faced, _⟩
      rw [List.cons_append, located_cons faced step, located_cons faced step, ih, List.cons_append]

end Machine

/-! ## Addresses in larger surroundings -/

/-- In larger surroundings the address of a node goes on up to the top of these. -/
theorem Point.address_within (whole : point.forest = [tree]) :
    (point.within outer).address = point.address ++ CounterLang.address outer.before.length outer.frames := by
  rcases point with ⟨before, node, after, frames⟩
  induction frames generalizing before node after with
  | nil =>
      obtain ⟨rfl, _, _⟩ := eq_of_top whole
      simp [Point.within, Point.address, Surroundings.around, CounterLang.address]
  | cons frame frames ih =>
      have parent := ih frame.before (frame.fill (before.reverse ++ node :: after)) frame.after whole
      simpa [Point.within, Point.address, Surroundings.around, CounterLang.address] using parent

namespace Machine

theorem Path.located_within (h : Path machine events last) (whole : machine.forest = [tree]) :
    (machine.within outer).located events =
      (machine.located events).map fun entry =>
        (entry.1 ++ address outer.before.length outer.frames, entry.2) := by
  induction h generalizing tree with
  | refl => rfl
  | step step _ ih =>
      rcases step_eq_next_iff.1 step with ⟨point, faced, _⟩
      obtain ⟨tree', whole'⟩ := Fired.exists_tree (whole ▸ fired_of_step step)
      have here := @Point.address_within point tree outer ((forest_of_point? faced).trans whole)
      rw [located_cons (point?_within faced) (step_within step), located_cons faced step, List.map_cons, here,
        ih whole']

end Machine

/-! ## Trees that are carried out -/

/-- A step at the top of a tree that does not lead into it is the last one, and no other step is. -/
theorem Point.Moves.completes (h : point.Moves store action next) (whole : point.forest = [tree]) :
    (if point.address = [] ∧ action.looping = false then 1 else 0) + next.point?.isSome.toNat = 1 := by
  cases h with
  | @applied before after frames line op changed _ =>
      cases frames with
      | nil =>
          obtain ⟨_, rfl, _⟩ := eq_of_top whole
          rfl
      | cons frame frames => cases after <;> simp [Point.address, CounterLang.address, Machine.point?]
  | @entered before after children frames line condition _ =>
      cases children <;> simp [Action.looping, Machine.point?]
  | @left before after children frames line condition _ =>
      cases frames with
      | nil =>
          obtain ⟨_, rfl, _⟩ := eq_of_top whole
          rfl
      | cons frame frames => cases after <;> simp [Point.address, CounterLang.address, Machine.point?]

/-- A tree is carried out once on a path to its end. -/
theorem Machine.Path.completions_root (h : Path machine events last) (whole : machine.forest = [tree]) :
    completions [] (machine.located events) + last.point?.isSome.toNat = machine.point?.isSome.toNat := by
  induction h generalizing tree with
  | refl => simp [located, completions]
  | @step machine next last action events step _ ih =>
      rcases step_eq_next_iff.1 step with ⟨point, faced, moves⟩
      obtain ⟨tree', whole'⟩ := Fired.exists_tree (whole ▸ fired_of_step step)
      have once := moves.completes ((forest_of_point? faced).trans whole)
      rw [located_cons faced step, completions_cons, Nat.add_assoc, ih whole', faced]
      exact once

/-- A tree that completes leads a machine to where nothing is left to do. -/
theorem Completes.exists_path (h : Completes store tree) :
    ∃ events left tree', Machine.Path (Machine.start store tree) events ⟨left, [tree'], [], []⟩ ∧
      Fired [tree] [tree'] := by
  rcases h with ⟨limit, finished⟩
  rcases run : execute limit store tree with ⟨events, outcome, final⟩
  rcases Machine.run_eq_iff.1 run with ⟨last, _, path, _, ends⟩
  rw [run] at finished
  cases ends with
  | failed _ => cases finished
  | stopped _ => cases finished
  | finished step =>
      rcases final with ⟨left, before, after, frames⟩
      obtain ⟨rfl, rfl⟩ : after = [] ∧ frames = [] := Machine.eq_nil_of_finished step
      have fired : Fired [tree] (before.reverse ++ []) := path.fired
      obtain ⟨tree', same⟩ := fired.exists_tree
      obtain rfl : before = [tree'] := by simpa using congrArg List.reverse same
      exact ⟨events, left, tree', path, same ▸ fired⟩

/-! ## Children of a loop -/

/-- The events of a loop that carries out so many of its children, from some position on: each of them once, and no
other child; the loop itself is not tested. -/
structure Covers (first number : Nat) (entries : List (List Nat × Event)) : Prop where
  once : ∀ index, completions [index] entries = if first ≤ index ∧ index < first + number then 1 else 0
  inside : rounds [] entries = 0

theorem Covers.nil (first : Nat) : Covers first 0 [] where
  once index := by
    have nowhere : ¬ (first ≤ index ∧ index < first + 0) := by omega
    rw [if_neg nowhere]
    rfl
  inside := rfl

theorem Covers.append {first number more : Nat} {front back : List (List Nat × Event)}
    (h : Covers first number front) (further : Covers (first + number) more back) :
    Covers first (number + more) (front ++ back) where
  once index := by
    rw [completions_append, h.once, further.once]
    split_ifs <;> omega
  inside := by rw [rounds_append, h.inside, further.inside]

/-- A child covers its own position, in whatever way it is carried out. -/
theorem Covers.child {position : Nat} {entries : List (List Nat × Event)} (once : completions [] entries = 1) :
    Covers position 1 (entries.map fun entry => (entry.1 ++ [position], entry.2)) where
  once index := by
    rw [completions, List.countP_map]
    by_cases here : index = position
    · subst here
      rw [if_pos (by omega), ← once, completions]
      exact List.countP_congr fun entry _ => by simp
    · rw [if_neg (by omega), List.countP_eq_zero]
      intro entry _
      have elsewhere : entry.1 ++ [position] ≠ [index] := by
        intro same
        have last := congrArg List.getLast? same
        rw [List.getLast?_concat] at last
        exact here (Option.some.inj last).symm
      simp [elsewhere]
  inside := by
    rw [rounds, List.countP_map, List.countP_eq_zero]
    intro entry _
    simp

/-- A child that completes is carried out in the body of its loop, and the machine comes to stand behind it.  What the
child does not write keeps its value. -/
theorem exists_path_child {child : Node} (h : Completes store child) (before rest : List Node) (frame : Frame) :
    let machine : Machine := ⟨store, before, child :: rest, [frame]⟩
    ∃ events left child', machine.Path events ⟨left, child' :: before, rest, [frame]⟩ ∧ Fired [child] [child'] ∧
      (Unwritten name [child] → left.get? name = store.get? name) ∧
        Covers before.length 1 (machine.located events) := by
  intro machine
  rcases h.exists_path with ⟨events, left, child', path, fired⟩
  let outer : Surroundings := ⟨before, rest, [frame]⟩
  have here : (Machine.start store child).within outer = machine := rfl
  have alone : (Machine.start store child).forest = [child] := rfl
  have inside : ((Machine.start store child).within outer).Path events
      (Machine.within outer ⟨left, [child'], [], []⟩) := path.within
  have located : ((Machine.start store child).within outer).located events =
      ((Machine.start store child).located events).map fun entry => (entry.1 ++ [before.length], entry.2) :=
    path.located_within alone
  rw [here] at inside located
  refine ⟨events, left, child', inside, fired, fun free => path.frame free, ?_⟩
  rw [located]
  exact Covers.child (path.completions_root alone)

/-- An operation that can be applied is carried out in the body of its loop. -/
theorem path_operation {line : Nat} {op : Operation} {changed : Store} (h : op.apply store = .ok changed)
    (before rest : List Node) (frame : Frame) :
    let machine : Machine := ⟨store, before, .operation line op :: rest, [frame]⟩
    let events : List Event := [⟨.applied line op, changed⟩]
    machine.Path events ⟨changed, .operation line op :: before, rest, [frame]⟩ ∧
      Covers before.length 1 (machine.located events) := by
  intro machine events
  have step : machine.step = .next (.applied line op) ⟨changed, .operation line op :: before, rest, [frame]⟩ :=
    Machine.step_eq_next_iff.2 ⟨_, rfl, .applied h⟩
  refine ⟨.step step .refl, ?_⟩
  rw [Machine.located_cons rfl step]
  exact @Covers.child before.length [([], ⟨.applied line op, changed⟩)] rfl

end
end CounterLang
