import CounterLang.Proofs.Node.Triggers
import CounterLang.Proofs.Run.Steps

/-!
# Origin — where the nodes that a machine meets come from

A step changes nothing in the forest that a machine stands in but a trigger, which may fire.  So each node that is
met in the course of a run has been in the forest from the beginning, and what is known of all nodes of a forest is
known of each step of its runs.

- `Point.Moves.fired`       : what a step changes in the forest
- `Machine.Path.fired`      : what a path changes in the forest
- `Machine.exists_origin`   : a node that a machine faces is one of the forest that it has started in
-/

namespace CounterLang

section
variable {store : Store} {point : Point} {action : Action} {machine next last : Machine} {events : List Event}

theorem Point.label_mem (point : Point) : point.node.label ∈ Node.labels point.forest := by
  refine mem_labels_plug ?_ point.frames
  rw [labels_append]
  exact List.mem_append_right _ (label_mem_labels_cons point.node point.after)

theorem Condition.fired_tested (condition : Condition) : condition.Fired condition.tested := by
  cases condition with
  | once fired =>
      cases fired with
      | false => exact .fire
      | true => exact .refl
  | compare comparison left right => exact .refl

/-- A test may fire the trigger of a loop, and changes nothing else around it. -/
theorem fired_tested_loop (before after children : List Node) (line : Nat) (condition : Condition)
    (frames : List Frame) :
    Fired (plug (before.reverse ++ .loop line condition children :: after) frames)
      (plug (before.reverse ++ .loop line condition.tested children :: after) frames) := by
  have loop : Fired (.loop line condition children :: after) (.loop line condition.tested children :: after) :=
    .loop condition.fired_tested (.refl _) (.refl _)
  exact ((Fired.refl before.reverse).append loop).plug frames

/-- A step changes nothing in a forest but the trigger that it tests. -/
theorem Point.Moves.fired (h : point.Moves store action next) : Fired point.forest next.forest := by
  cases h with
  | @applied before after frames line op changed _ =>
      have same : Machine.forest ⟨changed, .operation line op :: before, after, frames⟩ =
          Point.forest ⟨before, .operation line op, after, frames⟩ := by
        simp [Machine.forest, Point.forest]
      rw [same]
      exact .refl _
  | @entered before after children frames line condition _ =>
      exact fired_tested_loop before after children line condition frames
  | @left before after children frames line condition _ =>
      simpa [Machine.forest, Point.forest] using fired_tested_loop before after children line condition frames

namespace Machine

theorem fired_of_step (step : machine.step = .next action next) : Fired machine.forest next.forest := by
  rcases step_eq_next_iff.1 step with ⟨point, faced, moves⟩
  rw [← forest_of_point? faced]
  exact moves.fired

/-- Along a path nothing changes in the forest but triggers that fire. -/
theorem Path.fired (h : Path machine events last) : Fired machine.forest last.forest := by
  induction h with
  | refl => exact .refl _
  | step step _ ih => exact (fired_of_step step).trans ih

/-- A node that a machine faces is one of the forest that it has started in. -/
theorem exists_origin {nodes : List Node} (h : Fired nodes machine.forest) (faced : machine.point? = some point) :
    ∃ origin ∈ Node.labels nodes, origin.Fired point.node.label := by
  refine h.exists_label ?_
  rw [← forest_of_point? faced]
  exact point.label_mem

end Machine
end

end CounterLang
