import CounterLang.Proofs.Run.Body
import CounterLang.Proofs.Run.Halts
import CounterLang.Proofs.Run.Guards
import CounterLang.Proofs.Run.Sequence

/-!
# Evaluates — forests carried out from one store to another

A forest without triggers is carried out node by node: an operation changes the store, and a loop is its body and
then the loop again, for as long as its comparison holds.  Nothing in the forest itself is changed by that.  What is
carried out in this sense is a path of the machine, whatever stands around the forest, and around it a root comes to
its end.

- `Evaluates`                : a forest is carried out from one store to another, told by its events
- `Evaluates.append`         : forests that are carried out one behind the other
- `Evaluates.path`           : a machine goes along these events, in any surroundings
- `Evaluates.halts_root`     : the root of a forest that is carried out comes to its end
- `Evaluates.halts_failed`   : so it does behind a node that fails, with the error of this node
-/

namespace CounterLang

/-- A forest is carried out from one store to another, with an event for each operation and each test. -/
inductive Evaluates : Store → List Node → List Event → Store → Prop where
  | nil {store : Store} :
      Evaluates store [] [] store
  | operation {store changed final : Store} {line : Nat} {op : Operation} {rest : List Node} {events : List Event} :
      op.apply store = .ok changed → Evaluates changed rest events final →
        Evaluates store (.operation line op :: rest) (⟨.applied line op, changed⟩ :: events) final
  /-- The loop goes round, and is tested again behind its body. -/
  | entered {store middle final : Store} {line : Nat} {comparison : Comparison} {left right : Operand}
      {children rest : List Node} {inner later : List Event} :
      comparison.Decides left right store true → Evaluates store children inner middle →
        Evaluates middle (.loop line (.compare comparison left right) children :: rest) later final →
          Evaluates store (.loop line (.compare comparison left right) children :: rest)
            (⟨.entered line, store⟩ :: (inner ++ later)) final
  | left {store final : Store} {line : Nat} {comparison : Comparison} {left right : Operand}
      {children rest : List Node} {events : List Event} :
      comparison.Decides left right store false → Evaluates store rest events final →
        Evaluates store (.loop line (.compare comparison left right) children :: rest)
          (⟨.left line, store⟩ :: events) final

section
variable {store middle final : Store} {nodes front back : List Node} {node : Node} {events first second : List Event}
  {machine other last : Machine} {line : Nat} {op : Operation} {error : RuntimeError}

/-! ## From a machine to another one that faces the same node -/

/-- Where a machine stands makes no difference to its steps, as long as it faces the same node. -/
theorem Machine.Path.of_point? (h : machine.Path events last) (moved : events ≠ [])
    (faced : other.point? = machine.point?) (same : other.store = machine.store) : other.Path events last := by
  cases h with
  | refl => exact absurd rfl moved
  | step step path => exact .step ((step_congr faced same).trans step) path

namespace Evaluates

theorem append (h : Evaluates store front first middle) (further : Evaluates middle back second final) :
    Evaluates store (front ++ back) (first ++ second) final := by
  induction h with
  | nil => exact further
  | operation result _ ih => exact .operation result (ih further)
  | entered holds body _ _ ih =>
      have again := Evaluates.entered holds body (ih further)
      simpa using again
  | left ended _ ih => exact .left ended (ih further)

/-- A node is not passed without an event. -/
theorem events_ne_nil (h : Evaluates store (node :: nodes) events final) : events ≠ [] := by
  cases h with
  | operation _ _ => simp
  | entered _ _ _ => simp
  | left _ _ => simp

/-! ## Paths -/

/-- A machine in front of a forest goes along its events, and comes to stand behind the forest. -/
theorem path (h : Evaluates store nodes events final) (before rest : List Node) (frames : List Frame) :
    Machine.Path ⟨store, before, nodes ++ rest, frames⟩ events
      ⟨final, nodes.reverse ++ before, rest, frames⟩ := by
  induction h generalizing before rest frames with
  | nil => exact .refl
  | @operation store changed final line op nodes events result _ ih =>
      have step : Machine.step ⟨store, before, .operation line op :: (nodes ++ rest), frames⟩ =
          .next (.applied line op) ⟨changed, .operation line op :: before, nodes ++ rest, frames⟩ :=
        Machine.step_eq_next_iff.2 ⟨_, rfl, .applied result⟩
      simpa using Machine.Path.step step (ih (.operation line op :: before) rest frames)
  | @entered store middle final line comparison left right children nodes inner later holds _ again ihBody ihAgain =>
      let loop := Node.loop line (.compare comparison left right) children
      let frame : Frame := ⟨before, line, .compare comparison left right, nodes ++ rest⟩
      have step : Machine.step ⟨store, before, loop :: (nodes ++ rest), frames⟩ =
          .next (.entered line) ⟨store, [], children, frame :: frames⟩ :=
        Machine.step_eq_next_iff.2 ⟨_, rfl, .entered (Condition.holds_compare_eq_ok_iff.2 holds)⟩
      have body := ihBody [] [] (frame :: frames)
      simp only [List.append_nil] at body
      -- behind its body the machine faces the loop again
      have faced : Machine.point? ⟨middle, children.reverse, [], frame :: frames⟩ =
          Machine.point? ⟨middle, before, loop :: (nodes ++ rest), frames⟩ := by
        simp [Machine.point?, Frame.fill, frame, loop]
      have back := (ihAgain before rest frames).of_point? again.events_ne_nil faced rfl
      exact .step step (body.trans back)
  | @left store final line comparison left right children nodes events ended _ ih =>
      let loop := Node.loop line (.compare comparison left right) children
      have step : Machine.step ⟨store, before, loop :: (nodes ++ rest), frames⟩ =
          .next (.left line) ⟨store, loop :: before, nodes ++ rest, frames⟩ :=
        Machine.step_eq_next_iff.2 ⟨_, rfl, .left (Condition.holds_compare_eq_ok_iff.2 ended)⟩
      simpa [loop] using Machine.Path.step step (ih (loop :: before) rest frames)

/-! ## Roots -/

/-- A machine enters the root of a forest, and goes along the events of the part of it that is carried out. -/
theorem path_root (h : Evaluates store nodes events final) (rest : List Node) :
    (Machine.start store (Node.root (nodes ++ rest))).Path (⟨.entered 0, store⟩ :: events)
      ⟨final, nodes.reverse, rest, [Frame.root]⟩ := by
  have entered : (Machine.start store (Node.root (nodes ++ rest))).step =
      .next (.entered 0) ⟨store, [], nodes ++ rest, [Frame.root]⟩ := rfl
  have inside := h.path [] rest [Frame.root]
  rw [List.append_nil] at inside
  exact .step entered inside

/-- The root of a forest that is carried out comes to its end. -/
theorem halts_root (h : Evaluates store nodes events final) :
    (Machine.start store (Node.root nodes)).Halts (⟨.entered 0, store⟩ :: (events ++ [⟨.left 0, final⟩]))
      ⟨.ok (), ⟨final, [.loop 0 (.once true) nodes], [], []⟩⟩ := by
  have inside := h.path_root []
  rw [List.append_nil] at inside
  -- the trigger of the root has fired when its body is left
  have faced : Machine.point? ⟨final, nodes.reverse, [], [Frame.root]⟩ =
      some ⟨[], .loop 0 (.once true) nodes, [], []⟩ := by
    simp [Machine.point?, Frame.root, Frame.fill]
  have exit : Machine.step ⟨final, nodes.reverse, [], [Frame.root]⟩ =
      .next (.left 0) ⟨final, [.loop 0 (.once true) nodes], [], []⟩ :=
    Machine.step_eq_next_iff.2 ⟨_, faced, .left rfl⟩
  exact inside.halts (.step exit (.finished rfl))

/-- Where a node fails behind the part that is carried out, the root comes to its end with this error. -/
theorem halts_failed (h : Evaluates store front events middle) (fails : op.apply middle = .error error) :
    (Machine.start store (Node.root (front ++ .operation line op :: back))).Halts (⟨.entered 0, store⟩ :: events)
      ⟨.error error, ⟨middle, front.reverse, .operation line op :: back, [Frame.root]⟩⟩ := by
  have step : Machine.step ⟨middle, front.reverse, .operation line op :: back, [Frame.root]⟩ = .failed error :=
    Machine.step_eq_failed_iff.2 ⟨_, rfl, .operation fails⟩
  have whole := (h.path_root (.operation line op :: back)).halts (.failed step)
  rwa [List.append_nil] at whole

end Evaluates
end
end CounterLang
