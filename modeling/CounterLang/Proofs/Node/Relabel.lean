import CounterLang.Node.Frame

/-!
# Relabel — trees whose lines or conditions are changed

A relabelling changes what the nodes of a tree say of themselves and leaves alone what makes up the tree: its
shape and its operations.  Moving a tree to other lines is a relabelling, and so is forgetting its lines.

- `Relabelling`             : what becomes of lines and of conditions
- `Relabelling.node`        : a tree, relabelled everywhere
- `Relabelling.shift`       : all lines increased by the same number
- `Relabelling.unlined`     : all lines forgotten
- `Relabelling.frame`       : a surrounding loop, relabelled with its siblings
- `Relabelling.plug_frame`  : a forest may be relabelled before or after it is put together
-/

namespace CounterLang

structure Relabelling where
  line : Nat → Nat := id
  condition : Condition → Condition := id

namespace Relabelling

/-! ## Trees -/

mutual

def node (change : Relabelling) : Node → Node
  | .operation line op => .operation (change.line line) op
  | .loop line condition children =>
    .loop (change.line line) (change.condition condition) (change.nodes children)

def nodes (change : Relabelling) : List Node → List Node
  | [] => []
  | node :: rest => change.node node :: change.nodes rest

end

/-- All lines increased by a number. -/
def shift (amount : Nat) : Relabelling where
  line := (amount + ·)

/-- All lines forgotten; trees that agree then differ in their lines only. -/
def unlined : Relabelling where
  line := fun _ => 0

@[simp] theorem shift_line (amount line : Nat) : (shift amount).line line = amount + line := rfl

@[simp] theorem shift_condition (amount : Nat) (condition : Condition) :
    (shift amount).condition condition = condition := rfl

@[simp] theorem unlined_line (line : Nat) : unlined.line line = 0 := rfl

@[simp] theorem unlined_condition (condition : Condition) : unlined.condition condition = condition := rfl

variable (change : Relabelling)

/-- The trees of a forest are relabelled one by one. -/
theorem nodes_eq_map (nodes : List Node) : change.nodes nodes = nodes.map change.node := by
  induction nodes with
  | nil => rfl
  | cons node nodes ih => simp [Relabelling.nodes, ih]

@[simp] theorem node_operation (line : Nat) (op : Operation) :
    change.node (.operation line op) = .operation (change.line line) op := by
  rw [node]

@[simp] theorem node_loop (line : Nat) (condition : Condition) (children : List Node) :
    change.node (.loop line condition children) =
      .loop (change.line line) (change.condition condition) (children.map change.node) := by
  rw [node, nodes_eq_map]

/-! ## Frames -/

/-- A frame whose loop and siblings are relabelled. -/
def frame (frame : Frame) : Frame where
  before := frame.before.map change.node
  line := change.line frame.line
  condition := change.condition frame.condition
  after := frame.after.map change.node

@[simp] theorem fill_frame (frame : Frame) (body : List Node) :
    (change.frame frame).fill (body.map change.node) = change.node (frame.fill body) :=
  (change.node_loop frame.line frame.condition body).symm

theorem plug_frame (body : List Node) (frames : List Frame) :
    plug (body.map change.node) (frames.map change.frame) = (plug body frames).map change.node := by
  induction frames generalizing body with
  | nil => rfl
  | cons frame frames ih =>
      have filled : (change.frame frame).before.reverse ++
          (change.frame frame).fill (body.map change.node) :: (change.frame frame).after =
            (frame.before.reverse ++ frame.fill body :: frame.after).map change.node := by
        rw [fill_frame]
        simp [Relabelling.frame]
      simp only [List.map_cons, plug, filled, ih]

end Relabelling
end CounterLang
