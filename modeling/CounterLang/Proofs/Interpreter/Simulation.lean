import CounterLang.Proofs.Interpreter.Watched

/-!
# Simulation — the interpreter and the machine

The interpreter goes down into a tree, and the machine goes from point to point; both do the same.  In front of some
nodes, whatever stands around them, a machine goes along one event for each test and each operation that the
interpreter comes to while it visits the nodes, and is observed in the same way.  When the interpreter has finished,
the machine stands behind the nodes.  When the interpreter comes back early, out of any number of loops, the machine
has come to its end, and the forest that it leaves is the one that the interpreter leaves.

- `Place`                      : where some nodes stand among others
- `Follows`                    : a machine does what an interpreter does
- `visitAll?_follows`          : so it is for a list of nodes, if it is for each node
- `visit?_follows`             : so it is for each node
- `settles_visit?`             : the interpreter comes back if the machine comes to an end
- `Interpreter.comesTo_iff`    : what the interpreter comes to is the end of the machine
-/

namespace CounterLang

open Interpreter (Return visit? visitAll? ComesTo)

/-! ## Places -/

/-- Where some nodes stand: the siblings in front of them, nearest first, those behind them, and the loops around. -/
structure Place where
  before : List Node
  after : List Node
  frames : List Frame

namespace Place

/-- A machine in front of some nodes at a place. -/
def facing (place : Place) (store : Store) (nodes : List Node) : Machine :=
  ⟨store, place.before, nodes ++ place.after, place.frames⟩

/-- A machine behind some nodes at a place. -/
def behind (place : Place) (store : Store) (nodes : List Node) : Machine :=
  ⟨store, nodes.reverse ++ place.before, place.after, place.frames⟩

/-- The whole forest, with some nodes at a place. -/
def forest (place : Place) (nodes : List Node) : List Node :=
  plug (place.before.reverse ++ (nodes ++ place.after)) place.frames

/-- The place of the first of some nodes. -/
def first (place : Place) (rest : List Node) : Place :=
  { place with after := rest ++ place.after }

/-- The place of the nodes behind a first one. -/
def later (place : Place) (node : Node) : Place :=
  { place with before := node :: place.before }

/-- The place of the children of a loop. -/
def body (place : Place) (line : Nat) (condition : Condition) : Place :=
  ⟨[], [], ⟨place.before, line, condition, place.after⟩ :: place.frames⟩

variable {place : Place} {store : Store} {line : Nat} {condition : Condition}

theorem forest_facing (nodes : List Node) : (place.facing store nodes).forest = place.forest nodes := rfl

theorem behind_later (node : Node) (nodes : List Node) :
    (place.later node).behind store nodes = place.behind store (node :: nodes) := by
  simp [behind, later]

theorem forest_later (node : Node) (nodes : List Node) :
    (place.later node).forest nodes = place.forest (node :: nodes) := by
  simp [forest, later]

theorem forest_body (children : List Node) :
    (place.body line condition).forest children = place.forest [.loop line condition children] := by
  simp [forest, body, plug, Frame.fill]

theorem forest_behind (nodes : List Node) : (place.behind store nodes).forest = place.forest nodes := by
  simp [behind, forest, Machine.forest]

/-- A machine in front of a node faces it. -/
theorem point?_facing (place : Place) (store : Store) (node : Node) (rest : List Node) :
    (place.facing store (node :: rest)).point? =
      some ⟨place.before, node, rest ++ place.after, place.frames⟩ := rfl

/-- So does a machine behind the children of a loop. -/
theorem point?_behind_body (place : Place) (store : Store) (line : Nat) (condition : Condition)
    (children : List Node) : ((place.body line condition).behind store children).point? =
      some ⟨place.before, .loop line condition children, place.after, place.frames⟩ := by
  simp [behind, body, Machine.point?, Frame.fill]

end Place

/-! ## What the interpreter does, the machine does -/

/-- A machine in front of some nodes does what an interpreter does that visits them and comes back: it goes to behind
the nodes, with one event at least for each of them, or it comes to its end. -/
inductive Follows {σ : Type} (observer : Observer σ) (place : Place) (interpreter : Interpreter σ)
    (nodes : List Node) : Return σ (List Node) → Prop where
  | finished {events : List Event} {after : Interpreter σ} {passed : List Node} :
      nodes.length ≤ events.length →
        Watched.Path observer (place.facing interpreter.store nodes) interpreter events
          (place.behind after.store passed) after →
          Follows observer place interpreter nodes ⟨after, passed, .finished⟩
  | unfinished {events : List Event} {after : Interpreter σ} {passed : List Node} {outcome : Outcome} :
      outcome ≠ .finished →
        Watched.Halts observer (place.facing interpreter.store nodes) interpreter events
          ⟨after, place.forest passed, outcome⟩ →
          Follows observer place interpreter nodes ⟨after, passed, outcome⟩

/-- The same return from a node, seen as the return from a list of one node. -/
def Interpreter.Return.single {σ : Type} (back : Return σ Node) : Return σ (List Node) :=
  { back with tree := [back.tree] }

section
variable {σ : Type} {observer : Observer σ} {place : Place} {interpreter : Interpreter σ} {node : Node}
  {nodes : List Node}

theorem Interpreter.Return.single_ofNotified (told : Except (Interpreter σ) (Interpreter σ)) :
    (ofNotified node told).single = ofNotified [node] told := by
  cases told <;> rfl

/-- If a machine does what an interpreter does at each node, it does what an interpreter does at a list of nodes. -/
theorem visitAll?_follows {visit? : Interpreter σ → Node → Option (Return σ Node)}
    (follows : ∀ place interpreter node back, visit? interpreter node = some back →
      Follows observer place interpreter [node] back.single)
    {back : Return σ (List Node)} (h : interpreter.visitAll? visit? nodes = some back) :
    Follows observer place interpreter nodes back := by
  induction nodes generalizing place interpreter back with
  | nil =>
      obtain rfl := Option.some.inj h
      have path : Watched.Path observer (place.facing interpreter.store []) interpreter []
          (place.behind interpreter.store []) interpreter := .refl
      exact .finished (by simp) path
  | cons node rest ih =>
      rw [visitAll?] at h
      split at h
      next _ => cases h
      next between visited came =>
        rcases Option.map_eq_some_iff.1 h with ⟨further, cameLater, rfl⟩
        cases follows (place.first rest) _ _ _ came with
        | unfinished unfinished _ => exact absurd rfl unfinished
        | finished moved path =>
            have followsLater : Follows observer (place.later visited) between rest further := ih cameLater
            cases followsLater with
            | finished movedLater pathLater =>
                rw [Place.behind_later] at pathLater
                refine .finished ?_ (path.trans pathLater)
                simp only [List.length_cons, List.length_append, List.length_nil] at moved ⊢
                omega
            | unfinished unfinished halts =>
                rw [Place.forest_later] at halts
                exact .unfinished unfinished (path.halts halts)
      next between visited outcome unfinished came =>
        obtain rfl := Option.some.inj h
        cases follows (place.first rest) _ _ _ came with
        | finished _ _ => exact absurd rfl unfinished
        | unfinished unfinished halts => exact .unfinished unfinished halts

/-- A single step behind a node is one that the observer is told of. -/
theorem Follows.of_step {store : Store} {action : Action} {passed : List Node}
    (step : (place.facing interpreter.store [node]).step = .next action (place.behind store passed)) :
    Follows observer place interpreter [node] (.ofNotified passed (interpreter.see observer ⟨action, store⟩)) := by
  cases sees : interpreter.see observer ⟨action, store⟩ with
  | error seen =>
      have halts := Watched.Halts.here (.stopped step sees)
      rw [Place.forest_behind] at halts
      exact .unfinished nofun halts
  | ok seen =>
      have path := Watched.Path.step step sees .refl
      obtain ⟨_, _, rfl⟩ := Interpreter.see_eq_ok_iff.1 sees
      exact .finished (by simp) path

/-- Only a test that gives an answer changes a condition. -/
theorem Condition.tested_of_error {condition : Condition} {store : Store} {error : RuntimeError}
    (h : condition.holds store = .error error) : condition.tested = condition := by
  cases condition with
  | once fired => cases h
  | compare comparison left right => rfl

namespace Interpreter

variable {store : Store} {line : Nat} {op : Operation} {condition : Condition} {children passed : List Node}
  {error : RuntimeError} {seen between : Interpreter σ} {outcome : Outcome} {back : Return σ (List Node)}

/-! ## Visits case by case -/

/-- A node that is not finished is the last one that is visited. -/
theorem visitAll?_cons_of_unfinished {visit? : Interpreter σ → Node → Option (Return σ Node)} {visited : Node}
    (came : visit? interpreter node = some ⟨between, visited, outcome⟩) (unfinished : outcome ≠ .finished)
    (rest : List Node) :
    interpreter.visitAll? visit? (node :: rest) = some ⟨between, visited :: rest, outcome⟩ := by
  rw [visitAll?, came]
  cases outcome with
  | finished => exact absurd rfl unfinished
  | failed error => rfl
  | stopped => rfl

theorem visitAll?_cons_of_finished {visit? : Interpreter σ → Node → Option (Return σ Node)} {visited : Node}
    (came : visit? interpreter node = some ⟨between, visited, .finished⟩) (rest : List Node) :
    interpreter.visitAll? visit? (node :: rest) =
      (between.visitAll? visit? rest).map fun back => { back with tree := visited :: back.tree } := by
  rw [visitAll?, came]

theorem visit?_operation_of_error (result : op.apply interpreter.store = .error error) (bound : Nat) :
    visit? observer (bound + 1) interpreter (.operation line op) =
      some ⟨interpreter, .operation line op, .failed error⟩ := by
  rw [visit?, result]

theorem visit?_operation_of_ok (result : op.apply interpreter.store = .ok store) (bound : Nat) :
    visit? observer (bound + 1) interpreter (.operation line op) =
      some (.ofNotified (.operation line op) (interpreter.see observer ⟨.applied line op, store⟩)) := by
  rw [visit?, result]
  rfl

theorem visit?_loop_of_error (result : condition.holds interpreter.store = .error error) (bound : Nat) :
    visit? observer (bound + 1) interpreter (.loop line condition children) =
      some ⟨interpreter, .loop line condition.tested children, .failed error⟩ := by
  rw [visit?, test, result]

theorem visit?_loop_of_false (result : condition.holds interpreter.store = .ok false) (bound : Nat) :
    visit? observer (bound + 1) interpreter (.loop line condition children) =
      some (.ofNotified (.loop line condition.tested children)
        (interpreter.see observer ⟨.left line, interpreter.store⟩)) := by
  rw [visit?, test, result, see_left]

theorem visit?_loop_of_stopped (result : condition.holds interpreter.store = .ok true)
    (sees : interpreter.see observer ⟨.entered line, interpreter.store⟩ = .error seen) (bound : Nat) :
    visit? observer (bound + 1) interpreter (.loop line condition children) =
      some ⟨seen, .loop line condition.tested children, .stopped⟩ := by
  have told : (interpreter.report (.looping line)).notify observer line true = .error seen := sees
  rw [visit?, test, result]
  simp only [told]

/-- Behind a body that is finished the loop is visited again. -/
theorem visit?_loop_of_finished {bound : Nat} (result : condition.holds interpreter.store = .ok true)
    (sees : interpreter.see observer ⟨.entered line, interpreter.store⟩ = .ok seen)
    (came : seen.visitAll? (visit? observer bound) children = some ⟨between, passed, .finished⟩) :
    visit? observer (bound + 1) interpreter (.loop line condition children) =
      visit? observer bound between (.loop line condition.tested passed) := by
  have told : (interpreter.report (.looping line)).notify observer line true = .ok seen := sees
  rw [visit?, test, result]
  simp only [told, came]

/-- A body that is not finished is the end of the visit. -/
theorem visit?_loop_of_unfinished {bound : Nat} (result : condition.holds interpreter.store = .ok true)
    (sees : interpreter.see observer ⟨.entered line, interpreter.store⟩ = .ok seen)
    (came : seen.visitAll? (visit? observer bound) children = some ⟨between, passed, outcome⟩)
    (unfinished : outcome ≠ .finished) :
    visit? observer (bound + 1) interpreter (.loop line condition children) =
      some ⟨between, .loop line condition.tested passed, outcome⟩ := by
  have told : (interpreter.report (.looping line)).notify observer line true = .ok seen := sees
  rw [visit?, test, result]
  simp only [told, came]

theorem visit?_loop_of_none {bound : Nat} (result : condition.holds interpreter.store = .ok true)
    (sees : interpreter.see observer ⟨.entered line, interpreter.store⟩ = .ok seen)
    (came : seen.visitAll? (visit? observer bound) children = none) :
    visit? observer (bound + 1) interpreter (.loop line condition children) = none := by
  have told : (interpreter.report (.looping line)).notify observer line true = .ok seen := sees
  rw [visit?, test, result]
  simp only [told, came]

end Interpreter

/-! ## Loops -/

/-- A machine in front of a loop that goes round enters the body. -/
theorem Place.step_of_true (place : Place) {store : Store} {condition : Condition}
    (result : condition.holds store = .ok true) (line : Nat) (children : List Node) :
    (place.facing store [.loop line condition children]).step =
      .next (.entered line) ((place.body line condition.tested).facing store children) :=
  Machine.step_eq_next_iff.2
    ⟨_, place.point?_facing store _ [], by simpa [facing, body] using .entered result⟩

namespace Follows

variable {line : Nat} {condition : Condition} {children passed : List Node} {seen between : Interpreter σ}
  {outcome : Outcome} {back : Return σ (List Node)}

/-- A loop that goes round is its body, and then the loop again. -/
theorem again (body : Follows observer (place.body line condition.tested) seen children ⟨between, passed, .finished⟩)
    (result : condition.holds interpreter.store = .ok true)
    (sees : interpreter.see observer ⟨.entered line, interpreter.store⟩ = .ok seen)
    (further : Follows observer place between [.loop line condition.tested passed] back) :
    Follows observer place interpreter [.loop line condition children] back := by
  have step := place.step_of_true result line children
  cases body with
  | unfinished unfinished _ => exact absurd rfl unfinished
  | finished _ inside =>
      obtain ⟨_, _, rfl⟩ := Interpreter.see_eq_ok_iff.1 sees
      have path := Watched.Path.step step sees inside
      -- behind its body the machine faces the loop again
      have faced := place.point?_behind_body between.store line condition.tested passed
      cases further with
      | finished moved outside =>
          have moves := List.ne_nil_of_length_pos moved
          refine .finished ?_ (path.trans (outside.of_point? moves faced rfl))
          simp
      | unfinished unfinished halts =>
          exact .unfinished unfinished (path.halts (halts.of_point? rfl faced rfl))

/-- If the interpreter does not finish the body of a loop, it comes back from the loop as well. -/
theorem early
    (body : Follows observer (place.body line condition.tested) seen children ⟨between, passed, outcome⟩)
    (result : condition.holds interpreter.store = .ok true)
    (sees : interpreter.see observer ⟨.entered line, interpreter.store⟩ = .ok seen)
    (unfinished : outcome ≠ .finished) :
    Follows observer place interpreter [.loop line condition children]
      ⟨between, [.loop line condition.tested passed], outcome⟩ := by
  have step := place.step_of_true result line children
  cases body with
  | finished _ _ => exact absurd rfl unfinished
  | unfinished _ halts =>
      obtain ⟨_, _, rfl⟩ := Interpreter.see_eq_ok_iff.1 sees
      rw [Place.forest_body] at halts
      exact .unfinished unfinished (.step step sees halts)

end Follows

/-! ## Nodes -/

section
variable {line : Nat} {bound : Nat} {back : Return σ Node}

theorem visit?_operation_follows {op : Operation}
    (h : visit? observer (bound + 1) interpreter (.operation line op) = some back) :
    Follows observer place interpreter [.operation line op] back.single := by
  have faced := place.point?_facing interpreter.store (.operation line op) []
  cases result : op.apply interpreter.store with
  | error error =>
      obtain rfl := Option.some.inj ((Interpreter.visit?_operation_of_error result bound).symm.trans h)
      exact .unfinished nofun (.here (.failed (Machine.step_eq_failed_iff.2 ⟨_, faced, .operation result⟩)))
  | ok store =>
      have step : (place.facing interpreter.store [.operation line op]).step =
          .next (.applied line op) (place.behind store [.operation line op]) :=
        Machine.step_eq_next_iff.2 ⟨_, faced, .applied result⟩
      obtain rfl := Option.some.inj ((Interpreter.visit?_operation_of_ok result bound).symm.trans h)
      rw [Interpreter.Return.single_ofNotified]
      exact .of_step step

theorem visit?_loop_follows {condition : Condition} {children : List Node}
    (follows : ∀ place interpreter node back, visit? observer bound interpreter node = some back →
      Follows observer place interpreter [node] back.single)
    (h : visit? observer (bound + 1) interpreter (.loop line condition children) = some back) :
    Follows observer place interpreter [.loop line condition children] back.single := by
  have faced := place.point?_facing interpreter.store (.loop line condition children) []
  cases result : condition.holds interpreter.store with
  | error error =>
      obtain rfl := Option.some.inj ((Interpreter.visit?_loop_of_error result bound).symm.trans h)
      rw [Condition.tested_of_error result]
      exact .unfinished nofun (.here (.failed (Machine.step_eq_failed_iff.2 ⟨_, faced, .loop result⟩)))
  | ok round =>
      cases round with
      | false =>
          have step : (place.facing interpreter.store [.loop line condition children]).step =
              .next (.left line) (place.behind interpreter.store [.loop line condition.tested children]) :=
            Machine.step_eq_next_iff.2 ⟨_, faced, .left result⟩
          obtain rfl := Option.some.inj ((Interpreter.visit?_loop_of_false result bound).symm.trans h)
          rw [Interpreter.Return.single_ofNotified]
          exact .of_step step
      | true =>
          have step := place.step_of_true result line children
          cases sees : interpreter.see observer ⟨.entered line, interpreter.store⟩ with
          | error seen =>
              have halts := Watched.Halts.here (.stopped step sees)
              rw [Place.forest_facing, Place.forest_body] at halts
              obtain rfl := Option.some.inj ((Interpreter.visit?_loop_of_stopped result sees bound).symm.trans h)
              exact .unfinished nofun halts
          | ok seen =>
              cases came : seen.visitAll? (visit? observer bound) children with
              | none => cases (Interpreter.visit?_loop_of_none result sees came).symm.trans h
              | some inside =>
                  rcases inside with ⟨between, passed, outcome⟩
                  have body : Follows observer (place.body line condition.tested) seen children _ :=
                    visitAll?_follows follows came
                  by_cases finished : outcome = .finished
                  · subst finished
                    rw [Interpreter.visit?_loop_of_finished result sees came] at h
                    exact body.again result sees (follows _ _ _ _ h)
                  · rw [Interpreter.visit?_loop_of_unfinished result sees came finished] at h
                    obtain rfl := Option.some.inj h
                    exact body.early result sees finished

/-- A machine does what an interpreter does that visits a node. -/
theorem visit?_follows (h : visit? observer bound interpreter node = some back) :
    Follows observer place interpreter [node] back.single := by
  induction bound generalizing place interpreter node back with
  | zero => cases h
  | succ bound ih =>
      cases node with
      | operation line op => exact visit?_operation_follows h
      | loop line condition children => exact visit?_loop_follows (fun _ _ _ _ => ih) h

end

/-! ## The interpreter comes back -/

/-- There is one result under every bound that is large enough. -/
def Settles {α : Type} (result? : Nat → Option α) : Prop :=
  ∃ enough result, ∀ bound, enough ≤ bound → result? bound = some result

/-- A function that needs one more call at first settles if the rest of it does. -/
theorem Settles.of_succ {α : Type} {result? : Nat → Option α} (h : Settles fun bound => result? (bound + 1)) :
    Settles result? := by
  rcases h with ⟨enough, result, settled⟩
  refine ⟨enough + 1, result, ?_⟩
  intro bound large
  cases bound with
  | zero => omega
  | succ bound => exact settled bound (by omega)

section
variable {events : List Event} {back : Return σ (List Node)} {limit : Nat}

/-- If the interpreter comes back from each node in front of which a machine comes to its end in time, it comes back
from a list of nodes in front of which one does. -/
theorem settles_visitAll?
    (settles : ∀ (place : Place) (interpreter : Interpreter σ) (node : Node) events back, events.length ≤ limit →
      Watched.Halts observer (place.facing interpreter.store [node]) interpreter events back →
        Settles fun bound => visit? observer bound interpreter node)
    (inTime : events.length ≤ limit)
    (halts : Watched.Halts observer (place.facing interpreter.store nodes) interpreter events back) :
    Settles fun bound => interpreter.visitAll? (visit? observer bound) nodes := by
  induction nodes generalizing place interpreter events with
  | nil => exact ⟨0, _, fun _ _ => rfl⟩
  | cons node rest ih =>
      rcases settles (place.first rest) interpreter node events back inTime halts with ⟨enough, first, came⟩
      have follows : Follows observer (place.first rest) interpreter [node] first.single :=
        visit?_follows (came enough (Nat.le_refl _))
      rcases first with ⟨between, visited, outcome⟩
      cases follows with
      | unfinished unfinished _ =>
          refine ⟨enough, ⟨between, visited :: rest, outcome⟩, ?_⟩
          intro bound large
          exact Interpreter.visitAll?_cons_of_unfinished (came bound large) unfinished rest
      | finished moved path =>
          rcases path.exists_halts halts with ⟨later, rfl, behind⟩
          have inTimeLater : later.length ≤ limit := by
            rw [List.length_append] at inTime
            omega
          have haltsLater :
              Watched.Halts observer ((place.later visited).facing between.store rest) between later back := behind
          rcases ih inTimeLater haltsLater with ⟨enoughLater, further, cameLater⟩
          refine ⟨max enough enoughLater, { further with tree := visited :: further.tree }, ?_⟩
          intro bound large
          have whole := Interpreter.visitAll?_cons_of_finished (came bound (by omega)) rest
          exact whole.trans (congrArg (Option.map _) (cameLater bound (by omega)))

/-- If the interpreter comes back from each node in front of which a machine comes to its end in time, it comes back
from a loop that goes round if the machine comes to its end behind the test. -/
theorem settles_loop {line : Nat} {condition : Condition} {children : List Node} {seen : Interpreter σ}
    (result : condition.holds interpreter.store = .ok true)
    (sees : interpreter.see observer ⟨.entered line, interpreter.store⟩ = .ok seen)
    (settles : ∀ (place : Place) (interpreter : Interpreter σ) (node : Node) events back, events.length ≤ limit →
      Watched.Halts observer (place.facing interpreter.store [node]) interpreter events back →
        Settles fun bound => visit? observer bound interpreter node)
    (inTime : events.length ≤ limit)
    (halts : Watched.Halts observer ((place.body line condition.tested).facing seen.store children) seen events back) :
    Settles fun bound => visit? observer (bound + 1) interpreter (.loop line condition children) := by
  rcases settles_visitAll? settles inTime halts with ⟨enough, ⟨between, passed, outcome⟩, came⟩
  have body : Follows observer (place.body line condition.tested) seen children ⟨between, passed, outcome⟩ :=
    visitAll?_follows (fun _ _ _ _ => visit?_follows) (came enough (Nat.le_refl _))
  cases body with
  | unfinished unfinished _ =>
      refine ⟨enough, ⟨between, .loop line condition.tested passed, outcome⟩, ?_⟩
      intro bound large
      exact Interpreter.visit?_loop_of_unfinished result sees (came bound large) unfinished
  | finished _ path =>
      rcases path.exists_halts halts with ⟨later, rfl, haltsBehind⟩
      have inTimeLater : later.length ≤ limit := by
        rw [List.length_append] at inTime
        omega
      -- behind the body the machine faces the loop again
      have faced := place.point?_behind_body between.store line condition.tested passed
      have haltsAgain := haltsBehind.of_point? faced (place.point?_facing between.store _ []) rfl
      rcases settles place between _ later back inTimeLater haltsAgain with ⟨enoughAgain, again, cameAgain⟩
      refine ⟨max enough enoughAgain, again, ?_⟩
      intro bound large
      exact (Interpreter.visit?_loop_of_finished result sees (came bound (by omega))).trans
        (cameAgain bound (by omega))

/-- If a machine in front of a node comes to its end, the interpreter comes back from the node. -/
theorem settles_visit? (place : Place)
    (halts : Watched.Halts observer (place.facing interpreter.store [node]) interpreter events back) :
    Settles fun bound => visit? observer bound interpreter node := by
  -- a visit of the body, and each further visit of a loop, comes at least one event later
  induction length : events.length using Nat.strongRecOn generalizing place interpreter node events back with
  | _ length ih =>
      refine .of_succ ?_
      cases node with
      | operation line op =>
          cases result : op.apply interpreter.store with
          | error error => exact ⟨0, _, fun bound _ => Interpreter.visit?_operation_of_error result bound⟩
          | ok store => exact ⟨0, _, fun bound _ => Interpreter.visit?_operation_of_ok result bound⟩
      | loop line condition children =>
          cases result : condition.holds interpreter.store with
          | error error => exact ⟨0, _, fun bound _ => Interpreter.visit?_loop_of_error result bound⟩
          | ok round =>
              cases round with
              | false => exact ⟨0, _, fun bound _ => Interpreter.visit?_loop_of_false result bound⟩
              | true =>
                  cases sees : interpreter.see observer ⟨.entered line, interpreter.store⟩ with
                  | error seen => exact ⟨0, _, fun bound _ => Interpreter.visit?_loop_of_stopped result sees bound⟩
                  | ok seen =>
                      have entered := Watched.Path.step (place.step_of_true result line children) sees .refl
                      rcases entered.exists_halts halts with ⟨later, rfl, inside⟩
                      obtain ⟨_, _, rfl⟩ := Interpreter.see_eq_ok_iff.1 sees
                      refine settles_loop result sees ?_ (Nat.le_refl later.length) inside
                      intro place interpreter node events back fewer halts
                      exact ih events.length (by simp at length; omega) place halts rfl

end

/-! ## Trees -/

namespace Interpreter

variable {back : Return σ Node} {forest : Return σ (List Node)} {events : List Event}

/-- If the interpreter comes back from a tree, a machine in front of the tree comes to the same end. -/
theorem exists_halts_of_visit? {bound : Nat} (h : visit? observer bound interpreter node = some back) :
    ∃ events, Watched.Halts observer (Machine.start interpreter.store node) interpreter events back.single := by
  have follows : Follows observer ⟨[], [], []⟩ interpreter [node] back.single := visit?_follows h
  rcases back with ⟨after, tree, outcome⟩
  cases follows with
  | finished _ path => exact ⟨_, path.halts (.here (.finished rfl))⟩
  | unfinished _ halts => exact ⟨_, halts⟩

/-- What the interpreter comes to is the end of a machine in front of the same tree. -/
theorem comesTo_iff :
    ComesTo observer interpreter node back ↔
      ∃ events, Watched.Halts observer (Machine.start interpreter.store node) interpreter events back.single := by
  constructor
  · rintro ⟨enough, came⟩
    exact exists_halts_of_visit? (came enough (Nat.le_refl _))
  · rintro ⟨events, halts⟩
    rcases settles_visit? ⟨[], [], []⟩ halts with ⟨enough, there, came⟩
    rcases exists_halts_of_visit? (came enough (Nat.le_refl _)) with ⟨_, haltsThere⟩
    have same := (haltsThere.unique halts).2
    rcases there with ⟨after, tree, outcome⟩
    rcases back with ⟨_, _, _⟩
    cases same
    exact ⟨enough, came⟩

/-- The interpreter comes to one result only. -/
theorem ComesTo.unique {there : Return σ Node} (h : ComesTo observer interpreter node back)
    (h' : ComesTo observer interpreter node there) : back = there := by
  rcases h with ⟨enough, came⟩
  rcases h' with ⟨enoughThere, cameThere⟩
  have result := came (max enough enoughThere) (by omega)
  have resultThere := cameThere (max enough enoughThere) (by omega)
  exact Option.some.inj (result.symm.trans resultThere)

/-- A bound that is enough stays enough. -/
theorem comesTo_of_visit? {bound : Nat} (h : visit? observer bound interpreter node = some back) :
    ComesTo observer interpreter node back :=
  comesTo_iff.2 (exists_halts_of_visit? h)

/-- If a machine in front of a tree comes to its end, the interpreter comes to the tree that the machine leaves. -/
theorem comesTo_of_halts (interpreter : Interpreter σ)
    (h : Watched.Halts observer (Machine.start interpreter.store node) interpreter events forest) :
    ComesTo observer interpreter node { forest with tree := forest.tree.headD (Node.root []) } := by
  rcases settles_visit? ⟨[], [], []⟩ h with ⟨enough, back, came⟩
  rcases exists_halts_of_visit? (came enough (Nat.le_refl _)) with ⟨_, halts⟩
  obtain rfl := (halts.unique h).2
  exact ⟨enough, came⟩

end Interpreter
end
end CounterLang
