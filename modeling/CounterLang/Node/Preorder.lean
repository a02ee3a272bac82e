import CounterLang.Node

/-!
# Preorder — the nodes of a tree, one after the other

- `Label`                   : what a node is, apart from its children
- `Node.preorder`           : every node before its children, each with its depth
-/

namespace CounterLang

/-- A node without its children. -/
inductive Label
  | operation (line : Nat) (operation : Operation)
  | loop (line : Nat) (condition : Condition)
  deriving DecidableEq, Repr

namespace Node

mutual

/-- The labels of a tree whose root has the given depth, every node before its children. -/
def preorderAt (depth : Nat) : Node → List (Nat × Label)
  | operation line op => [(depth, .operation line op)]
  | loop line condition children => (depth, .loop line condition) :: preorderAll (depth + 1) children

/-- The labels of a forest whose roots all have the given depth. -/
def preorderAll (depth : Nat) : List Node → List (Nat × Label)
  | [] => []
  | node :: nodes => node.preorderAt depth ++ preorderAll depth nodes

end

/-- The labels of a whole tree, with depths counted from its root. -/
def preorder (node : Node) : List (Nat × Label) :=
  node.preorderAt 0

end Node
end CounterLang
