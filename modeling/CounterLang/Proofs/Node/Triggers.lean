import CounterLang.Node.Frame
import CounterLang.Node.Preorder

/-!
# Triggers — what becomes of a forest while it is run

While a forest is run its triggers fire, one after the other, and nothing else in it changes.  So whatever is met
on the way has been there from the beginning, at the same place, and says the same of itself; only of a trigger it
may say that it has fired since.

- `Fired`               : a forest, and the same forest with some more of its triggers fired
- `Fired.plug`          : triggers that fire inside of a forest fire in the whole of it
- `Node.labels`         : what the nodes of a forest are
- `Fired.exists_label`  : whatever a node is later, it is already
-/

namespace CounterLang

/-! ## Forests whose triggers fire -/

/-- A condition later on: it is what it was, or a trigger that has fired. -/
inductive Condition.Fired : Condition → Condition → Prop where
  | refl {condition : Condition} : Fired condition condition
  | fire : Fired (.once false) (.once true)

/-- A forest later on: some of its triggers may have fired, and all else is as it was. -/
inductive Fired : List Node → List Node → Prop where
  | nil : Fired [] []
  | operation {line : Nat} {op : Operation} {rest rest' : List Node} :
      Fired rest rest' → Fired (.operation line op :: rest) (.operation line op :: rest')
  | loop {line : Nat} {condition condition' : Condition} {children children' rest rest' : List Node} :
      condition.Fired condition' → Fired children children' → Fired rest rest' →
        Fired (.loop line condition children :: rest) (.loop line condition' children' :: rest')

theorem Condition.Fired.trans {a b c : Condition} (first : a.Fired b) (second : b.Fired c) : a.Fired c := by
  cases first with
  | refl => exact second
  | fire =>
      cases second with
      | refl => exact .fire

namespace Fired

variable {a b c front front' back back' body body' earlier later : List Node} {frames : List Frame}

theorem refl (nodes : List Node) : Fired nodes nodes := by
  induction nodes using Node.forest_induction with
  | nil => exact .nil
  | operation line op rest ih => exact .operation ih
  | loop line condition children rest ihChildren ihRest => exact .loop .refl ihChildren ihRest

theorem trans (first : Fired a b) (second : Fired b c) : Fired a c := by
  induction first generalizing c with
  | nil => exact second
  | operation _ ih =>
      cases second with
      | operation rest => exact .operation (ih rest)
  | loop condition _ _ ihChildren ihRest =>
      cases second with
      | loop condition' children rest =>
          exact .loop (condition.trans condition') (ihChildren children) (ihRest rest)

theorem append (first : Fired front front') (second : Fired back back') :
    Fired (front ++ back) (front' ++ back') := by
  induction first with
  | nil => exact second
  | operation _ ih => exact .operation ih
  | loop condition children _ _ ihRest => exact .loop condition children ihRest

/-- What a loop is later on. -/
theorem exists_loop {node : Node} {line : Nat} {condition : Condition} {children : List Node}
    (h : Fired [.loop line condition children] [node]) :
    ∃ condition' children', node = .loop line condition' children' ∧ condition.Fired condition' := by
  cases h with
  | loop condition _ _ => exact ⟨_, _, rfl, condition⟩

/-- A tree is one tree later on. -/
theorem exists_tree {tree : Node} {nodes : List Node} (h : Fired [tree] nodes) : ∃ later, nodes = [later] := by
  cases h with
  | operation rest =>
      cases rest
      exact ⟨_, rfl⟩
  | loop _ _ rest =>
      cases rest
      exact ⟨_, rfl⟩

/-- Triggers that fire in one tree of a forest fire in the forest. -/
theorem set {nodes : List Node} {tree later : Node} {index : Nat} (h : Fired [tree] [later])
    (found : nodes[index]? = some tree) : Fired nodes (nodes.set index later) := by
  induction nodes generalizing index with
  | nil => simp at found
  | cons node nodes ih =>
      cases index with
      | zero =>
          obtain rfl : node = tree := by simpa using found
          exact h.append (refl nodes)
      | succ index => exact (refl [node]).append (ih (by simpa using found))

/-- Triggers that fire inside of a forest fire in the whole of it. -/
theorem plug (h : Fired body body') (frames : List Frame) :
    Fired (CounterLang.plug body frames) (CounterLang.plug body' frames) := by
  induction frames generalizing body body' with
  | nil => exact h
  | cons frame frames ih =>
      have loop : Fired (frame.fill body :: frame.after) (frame.fill body' :: frame.after) :=
        .loop .refl h (refl _)
      exact ih ((refl frame.before.reverse).append loop)

end Fired

/-! ## Labels -/

/-- What a node is, apart from its children. -/
def Node.label : Node → Label
  | operation line op => .operation line op
  | loop line condition _ => .loop line condition

/-- What the nodes of a forest are, each before its children. -/
def Node.labels (nodes : List Node) : List Label :=
  (preorderAll 0 nodes).map Prod.snd

/-- What a node is later on. -/
inductive Label.Fired : Label → Label → Prop where
  | operation {line : Nat} {op : Operation} : Fired (.operation line op) (.operation line op)
  | loop {line : Nat} {condition condition' : Condition} :
      condition.Fired condition' → Fired (.loop line condition) (.loop line condition')

section
variable {line : Nat} {op : Operation} {condition : Condition} {children rest front back body : List Node}
  {node : Node} {label : Label} {frames : List Frame}

/-- What the nodes are does not depend on how deep they lie. -/
theorem map_snd_preorderAll (depth other : Nat) (nodes : List Node) :
    (Node.preorderAll depth nodes).map Prod.snd = (Node.preorderAll other nodes).map Prod.snd := by
  induction nodes using Node.forest_induction generalizing depth other with
  | nil => rfl
  | operation line op rest ih => simp [Node.preorderAll, Node.preorderAt, ih depth other]
  | loop line condition children rest ihChildren ihRest =>
      simp [Node.preorderAll, Node.preorderAt, ihChildren (depth + 1) (other + 1), ihRest depth other]

theorem labels_operation :
    Node.labels (.operation line op :: rest) = .operation line op :: Node.labels rest := rfl

theorem labels_loop :
    Node.labels (.loop line condition children :: rest) =
      .loop line condition :: (Node.labels children ++ Node.labels rest) := by
  simp only [Node.labels, Node.preorderAll, Node.preorderAt, List.map_append, List.map_cons]
  rw [map_snd_preorderAll (0 + 1) 0 children]
  rfl

@[simp] theorem labels_append (front back : List Node) :
    Node.labels (front ++ back) = Node.labels front ++ Node.labels back := by
  induction front using Node.forest_induction with
  | nil => rfl
  | operation line op rest ih => simp [labels_operation, ih]
  | loop line condition children rest _ ih => simp [labels_loop, ih]

theorem label_mem_labels_cons (node : Node) (rest : List Node) : node.label ∈ Node.labels (node :: rest) := by
  cases node <;> simp [Node.label, labels_operation, labels_loop]

theorem mem_labels_plug (h : label ∈ Node.labels body) (frames : List Frame) :
    label ∈ Node.labels (plug body frames) := by
  induction frames generalizing body with
  | nil => exact h
  | cons frame frames ih =>
      apply ih
      simp [Frame.fill, labels_loop, h]

end

/-- Whatever a node is later, it is already. -/
theorem Fired.exists_label {earlier later : List Node} (h : Fired earlier later) {label : Label}
    (mem : label ∈ Node.labels later) : ∃ old ∈ Node.labels earlier, old.Fired label := by
  induction h with
  | nil => cases mem
  | operation _ ih =>
      rw [labels_operation] at mem ⊢
      rcases List.mem_cons.1 mem with rfl | mem
      · exact ⟨_, List.mem_cons_self, .operation⟩
      · rcases ih mem with ⟨old, found, fired⟩
        exact ⟨old, List.mem_cons_of_mem _ found, fired⟩
  | loop condition _ _ ihChildren ihRest =>
      rw [labels_loop] at mem ⊢
      rcases List.mem_cons.1 mem with rfl | mem
      · exact ⟨_, List.mem_cons_self, .loop condition⟩
      · rcases List.mem_append.1 mem with mem | mem
        · rcases ihChildren mem with ⟨old, found, fired⟩
          exact ⟨old, List.mem_cons_of_mem _ (List.mem_append_left _ found), fired⟩
        · rcases ihRest mem with ⟨old, found, fired⟩
          exact ⟨old, List.mem_cons_of_mem _ (List.mem_append_right _ found), fired⟩

end CounterLang
