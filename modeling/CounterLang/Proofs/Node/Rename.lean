import CounterLang.Evaluation
import CounterLang.Node.Frame

/-!
# Rename — trees whose variables have other names

Renaming gives each variable that a tree speaks of the name that a function finds for it.  Lines, numbers, triggers
and the shape of the tree stay as they are.

- `Operand.rename`, `Condition.rename`, `Operation.rename` : what is tested and what is done, renamed
- `Node.rename`             : a tree, renamed everywhere
- `Frame.rename`            : a surrounding loop, renamed with its siblings
- `RuntimeError.rename`     : an error that speaks of a renamed variable
-/

namespace CounterLang

/-! ## Statements -/

def Operand.rename (image : String → String) : Operand → Operand
  | literal value => literal value
  | var name => var (image name)

def Condition.rename (image : String → String) : Condition → Condition
  | once fired => once fired
  | compare comparison left right => compare comparison (left.rename image) (right.rename image)

def Operation.rename (image : String → String) : Operation → Operation
  | clear target => clear (image target)
  | increment target => increment (image target)
  | decrement target => decrement (image target)
  | arithmetic kind target operand => arithmetic kind (image target) (operand.rename image)

/-- Reserved arithmetic has no name of its own to change. -/
def RuntimeError.rename (image : String → String) : RuntimeError → RuntimeError
  | undefinedVariable name => undefinedVariable (image name)
  | notImplemented kind => notImplemented kind

/-! ## Trees -/

namespace Node

mutual

def rename (image : String → String) : Node → Node
  | operation line op => operation line (op.rename image)
  | loop line condition children => loop line (condition.rename image) (renameAll image children)

def renameAll (image : String → String) : List Node → List Node
  | [] => []
  | node :: rest => rename image node :: renameAll image rest

end

end Node

section
variable (image : String → String)

/-- The trees of a forest are renamed one by one. -/
theorem Node.renameAll_eq_map (nodes : List Node) : renameAll image nodes = nodes.map (rename image) := by
  induction nodes with
  | nil => rfl
  | cons node nodes ih => simp [renameAll, ih]

@[simp] theorem Node.rename_operation (line : Nat) (op : Operation) :
    (operation line op).rename image = .operation line (op.rename image) := by
  rw [rename]

@[simp] theorem Node.rename_loop (line : Nat) (condition : Condition) (children : List Node) :
    (loop line condition children).rename image =
      .loop line (condition.rename image) (children.map (rename image)) := by
  rw [rename, renameAll_eq_map]

@[simp] theorem Node.rename_root (children : List Node) :
    (root children).rename image = root (children.map (rename image)) :=
  rename_loop image 0 (.once false) children

/-- A trigger has no names, whether it has fired or not. -/
@[simp] theorem Condition.tested_rename (condition : Condition) :
    (condition.rename image).tested = condition.tested.rename image := by
  cases condition <;> rfl

/-- A frame whose loop and siblings are renamed. -/
def Frame.rename (frame : Frame) : Frame where
  before := frame.before.map (Node.rename image)
  line := frame.line
  condition := frame.condition.rename image
  after := frame.after.map (Node.rename image)

@[simp] theorem Frame.fill_rename (frame : Frame) (body : List Node) :
    (frame.rename image).fill (body.map (Node.rename image)) = (frame.fill body).rename image :=
  (Node.rename_loop image frame.line frame.condition body).symm

/-- Putting a forest together again may wait until its parts are renamed. -/
theorem plug_rename (body : List Node) (frames : List Frame) :
    plug (body.map (Node.rename image)) (frames.map (Frame.rename image)) =
      (plug body frames).map (Node.rename image) := by
  induction frames generalizing body with
  | nil => rfl
  | cons frame frames ih =>
      have filled : (frame.rename image).before.reverse ++
          (frame.rename image).fill (body.map (Node.rename image)) :: (frame.rename image).after =
            (frame.before.reverse ++ frame.fill body :: frame.after).map (Node.rename image) := by
        rw [Frame.fill_rename]
        simp [Frame.rename]
      simp only [List.map_cons, plug, filled, ih]

end
end CounterLang
