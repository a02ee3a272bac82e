import CounterLang.Proofs.Node.Triggers

/-!
# Address — where a node lies in a tree

A node is told from all others by its address: its position in the body of the loop around it, the position of that
loop in the body of the next one, and so on up to the root.  Nodes may be on the same line and look all alike, but
no two of them have the same address.

- `Node.descendant?`    : the node at an address
- `address`             : the address of a point, told from the loops around it
- `descendant?_plug`    : the node at a point is found at its address
- `Fired.exists_descendant?` : what is found at an address later on has been there before
- `Node.AlikeBut`       : two trees that differ at one address alone
- `Node.fired?`         : whether the trigger at an address has fired
-/

namespace CounterLang

/-! ## Addresses -/

/-- The node at an address, which is told from the node up to the root.  The root has the empty address. -/
def Node.descendant? (tree : Node) : List Nat → Option Node
  | [] => some tree
  | position :: address => (tree.descendant? address).bind fun parent => parent.children[position]?

/-- The address of a node at some position of its body, given the loops around it, innermost first.  At the top
there is but one node. -/
def address (position : Nat) : List Frame → List Nat
  | [] => []
  | frame :: frames => position :: address frame.before.length frames

section
variable {before after : List Node} {node node' tree tree' : Node} {frames : List Frame} {path inner : List Nat}

theorem descendant?_append (tree : Node) (inner outer : List Nat) :
    tree.descendant? (inner ++ outer) = (tree.descendant? outer).bind fun node => node.descendant? inner := by
  induction inner with
  | nil => simp [Node.descendant?]
  | cons position inner ih => simp [Node.descendant?, ih, Option.bind_assoc]

/-- At the top there is but one node. -/
theorem eq_of_top (h : before.reverse ++ node :: after = [tree]) : before = [] ∧ after = [] ∧ node = tree := by
  cases before with
  | nil =>
      obtain ⟨rfl, rfl⟩ := List.cons.inj h
      exact ⟨rfl, rfl, rfl⟩
  | cons last before =>
      have length := congrArg List.length h
      simp at length
      omega

/-- In a tree that is put together around a node, the node is found at its address. -/
theorem descendant?_plug (whole : plug (before.reverse ++ node :: after) frames = [tree]) :
    tree.descendant? (address before.length frames) = some node := by
  induction frames generalizing before node after with
  | nil =>
      obtain ⟨_, _, rfl⟩ := eq_of_top whole
      rfl
  | cons frame frames ih =>
      have parent := ih whole
      simp [address, Node.descendant?, parent, Frame.fill, Node.children]

end

/-! ## Addresses later on -/

section
variable {earlier later nodes : List Node} {node node' tree tree' : Node} {path : List Nat} {position : Nat}

namespace Fired

theorem label (h : Fired [node] [node']) : node.label.Fired node'.label := by
  cases h with
  | operation _ => exact .operation
  | loop condition _ _ => exact .loop condition

theorem children (h : Fired [node] [node']) : Fired node.children node'.children := by
  cases h with
  | operation _ => exact .nil
  | loop _ children _ => exact children

theorem exists_getElem? (h : Fired earlier later) (found : later[position]? = some node') :
    ∃ node, earlier[position]? = some node ∧ Fired [node] [node'] := by
  induction h generalizing position with
  | nil => simp at found
  | operation _ ih =>
      cases position with
      | zero =>
          obtain rfl := Option.some.inj found
          exact ⟨_, rfl, .refl _⟩
      | succ position => exact ih (by simpa using found)
  | loop condition children _ _ ihRest =>
      cases position with
      | zero =>
          obtain rfl := Option.some.inj found
          exact ⟨_, rfl, .loop condition children .nil⟩
      | succ position => exact ihRest (by simpa using found)

/-- What is found at an address later on has been there before, apart from triggers that have fired since. -/
theorem exists_descendant? (h : Fired [tree] [tree']) (found : tree'.descendant? path = some node') :
    ∃ node, tree.descendant? path = some node ∧ Fired [node] [node'] := by
  induction path generalizing node' with
  | nil =>
      obtain rfl : tree' = node' := Option.some.inj found
      exact ⟨tree, rfl, h⟩
  | cons position path ih =>
      rcases Option.bind_eq_some_iff.1 found with ⟨parent', foundParent, here⟩
      rcases ih foundParent with ⟨parent, there, fired⟩
      rcases fired.children.exists_getElem? here with ⟨node, child, fired⟩
      exact ⟨node, Option.bind_eq_some_iff.2 ⟨parent, there, child⟩, fired⟩

end Fired

theorem labels_subset_of_mem (mem : node ∈ nodes) : Node.labels [node] ⊆ Node.labels nodes := by
  rcases List.append_of_mem mem with ⟨front, back, rfl⟩
  change Node.labels [node] ⊆ Node.labels (front ++ ([node] ++ back))
  rw [labels_append front, labels_append [node]]
  intro label found
  exact List.mem_append_right _ (List.mem_append_left _ found)

/-- Whatever is found at an address is one of the nodes of the tree. -/
theorem labels_subset_of_descendant? (found : tree.descendant? path = some node) :
    Node.labels [node] ⊆ Node.labels [tree] := by
  induction path generalizing node with
  | nil =>
      obtain rfl : tree = node := Option.some.inj found
      exact List.Subset.refl _
  | cons position path ih =>
      rcases Option.bind_eq_some_iff.1 found with ⟨parent, foundParent, child⟩
      have inside : Node.labels [node] ⊆ Node.labels parent.children :=
        labels_subset_of_mem (List.mem_of_getElem? child)
      have below : Node.labels parent.children ⊆ Node.labels [parent] := by
        cases parent with
        | operation line op => exact List.nil_subset _
        | loop line condition children =>
            rw [labels_loop]
            intro label mem
            exact List.mem_cons_of_mem _ (List.mem_append_left _ mem)
      exact fun label mem => ih foundParent (below (inside mem))

end

/-! ## Trees that differ in one node -/

/-- Two trees are the same, in shape and in what their nodes are, apart from what they are at one address. -/
def Node.AlikeBut (spot : List Nat) (tree tree' : Node) : Prop :=
  ∀ path, path ≠ spot → (tree.descendant? path).map Node.label = (tree'.descendant? path).map Node.label

section
variable {before after : List Node} {node node' tree tree' : Node} {frames : List Frame} {spot : List Nat}

theorem alikeBut_of_children (same : node.children = node'.children) : Node.AlikeBut [] node node' := by
  intro path below
  rcases path.eq_nil_or_concat with rfl | ⟨path, position, rfl⟩
  · exact absurd rfl below
  · rw [List.concat_eq_append, descendant?_append, descendant?_append]
    simp [Node.descendant?, same]

/-- What differs inside of a loop differs in its place in the loop. -/
theorem Node.AlikeBut.fill (h : Node.AlikeBut spot node node') (frame : Frame) :
    Node.AlikeBut (spot ++ [before.length]) (frame.fill (before.reverse ++ node :: after))
      (frame.fill (before.reverse ++ node' :: after)) := by
  intro path elsewhere
  rcases path.eq_nil_or_concat with rfl | ⟨path, position, rfl⟩
  · rfl
  · rw [List.concat_eq_append] at elsewhere ⊢
    rw [descendant?_append, descendant?_append]
    simp only [Node.descendant?, Frame.fill, Node.children, Option.bind_some]
    rcases Nat.lt_trichotomy position before.length with left | rfl | right
    · simp [List.getElem?_append_left, left]
    · have inside : path ≠ spot := fun same => elsewhere (by rw [same])
      simpa using h path inside
    · obtain ⟨offset, rfl⟩ := Nat.exists_eq_add_of_lt right
      simp [List.getElem?_append_right, Nat.add_assoc]

/-- What differs at a point differs at its address in the whole tree. -/
theorem Node.AlikeBut.plug (h : Node.AlikeBut spot node node')
    (whole : CounterLang.plug (before.reverse ++ node :: after) frames = [tree])
    (whole' : CounterLang.plug (before.reverse ++ node' :: after) frames = [tree']) :
    Node.AlikeBut (spot ++ address before.length frames) tree tree' := by
  induction frames generalizing before node node' after spot with
  | nil =>
      obtain ⟨_, _, rfl⟩ := eq_of_top whole
      obtain ⟨_, _, rfl⟩ := eq_of_top whole'
      simpa [address] using h
  | cons frame frames ih =>
      have outside := ih (h.fill frame) whole whole'
      simpa [address] using outside

end

/-! ## Triggers at an address -/

/-- Whether a node is a trigger that has fired; it may be no trigger at all. -/
def Label.fired? : Label → Option Bool
  | loop _ (.once fired) => some fired
  | _ => none

/-- Whether the trigger at an address has fired, if there is one. -/
def Node.fired? (tree : Node) (address : List Nat) : Option Bool :=
  ((tree.descendant? address).map label).bind Label.fired?

section
variable {before after children : List Node} {line : Nat} {condition condition' : Condition} {tree tree' : Node}
  {frames : List Frame} {path : List Nat}

/-- The trigger at the address of a loop is that of its condition. -/
theorem fired?_plug (whole : plug (before.reverse ++ .loop line condition children :: after) frames = [tree]) :
    tree.fired? (address before.length frames) = (Label.loop line condition).fired? := by
  rw [Node.fired?, descendant?_plug whole]
  rfl

/-- A loop whose condition changes leaves all triggers alone but its own. -/
theorem fired?_elsewhere (whole : plug (before.reverse ++ .loop line condition children :: after) frames = [tree])
    (whole' : plug (before.reverse ++ .loop line condition' children :: after) frames = [tree'])
    (elsewhere : path ≠ address before.length frames) : tree'.fired? path = tree.fired? path := by
  have alike : Node.AlikeBut [] (.loop line condition children) (.loop line condition' children) :=
    alikeBut_of_children rfl
  rw [Node.fired?, Node.fired?, alike.plug whole whole' path elsewhere]

end
end CounterLang
