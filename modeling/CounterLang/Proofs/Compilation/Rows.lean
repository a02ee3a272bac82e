import CounterLang.Node.Preorder
import CounterLang.Proofs.Compilation.Faults
import Mathlib.Data.List.Forall2

/-!
# Rows — the nodes of a compiled tree, one for each statement

Read in preorder, a compiled tree has one node for each statement in scope that is neither empty nor an end.
The nodes follow each other like their statements; a node knows the line of its statement, lies as deep as
there are loops open in front of it, and is what its statement denotes.

- `Source.nodePositions`  : where the statements stand that have a node
- `Describes`             : a row of the traversal and the position it belongs to
- `Spans.describes`       : the rows of a forest belong to the positions that it spans
- `preorder_compile`      : the rows of a compiled tree belong to the positions in scope
-/

namespace CounterLang

open Statement (Denotes)
open Source

/-! ## Positions and rows -/

/-- Whether the statement at a position has a node: it is neither empty nor an end. -/
def Source.hasNode (statements : List String) (position : Nat) : Bool :=
  match statements[position]? with
  | some text => text != "" && text != "end"
  | none => false

/-- The positions from one up to, but without, another whose statements have nodes. -/
def Source.nodePositions (statements : List String) (start stop : Nat) : List Nat :=
  (List.range' start (stop - start)).filter (hasNode statements)

/-- The label of the node that a text stands for. -/
inductive Labels (line : Nat) : String → Label → Prop where
  | operation {text : String} {op : Operation} :
      Denotes text (.operation op) → Labels line text (.operation line op)
  | loop {text : String} {condition : Condition} :
      Denotes text (.opening condition) → Labels line text (.loop line condition)

/-- A row of a traversal that belongs to the statement at a position. -/
structure Describes (statements : List String) (position : Nat) (row : Nat × Label) : Prop where
  depth : (row.1 : Int) = 1 + Source.depth statements position
  label : ∃ text, statements[position]? = some text ∧ Labels (position + 1) text row.2

section
variable {statements : List String} {start middle stop : Nat} {text : String}

theorem nodePositions_self : nodePositions statements start start = [] := by
  simp [nodePositions]

theorem nodePositions_append (lower : start ≤ middle) (upper : middle ≤ stop) :
    nodePositions statements start stop =
      nodePositions statements start middle ++ nodePositions statements middle stop := by
  have split : List.range' start (stop - start) =
      List.range' start (middle - start) ++ List.range' middle (stop - middle) := by
    have joined := List.range'_append_1 (s := start) (m := middle - start) (n := stop - middle)
    rw [show start + (middle - start) = middle by omega] at joined
    calc
      List.range' start (stop - start) = List.range' start (middle - start + (stop - middle)) := by
        rw [show stop - start = middle - start + (stop - middle) by omega]
      _ = List.range' start (middle - start) ++ List.range' middle (stop - middle) := joined.symm
  rw [nodePositions, split, List.filter_append]
  rfl

theorem nodePositions_succ_of_hasNode (h : hasNode statements start = true) :
    nodePositions statements start (start + 1) = [start] := by
  simp [nodePositions, h]

theorem nodePositions_succ_of_not_hasNode (h : hasNode statements start = false) :
    nodePositions statements start (start + 1) = [] := by
  simp [nodePositions, h]

theorem not_hasNode_blank (found : statements[start]? = some "") : hasNode statements start = false := by
  simp [hasNode, found]

theorem not_hasNode_end (found : statements[start]? = some "end") : hasNode statements start = false := by
  simp [hasNode, found]

theorem hasNode_of_denotes {statement : Statement} (found : statements[start]? = some text)
    (denotes : Denotes text statement) (notEnd : statement ≠ .closing) : hasNode statements start = true := by
  have nonempty : text ≠ "" := by
    rintro rfl
    exact Statement.not_denotes_empty statement denotes
  have other : text ≠ "end" := by
    rintro rfl
    exact notEnd (denotes.unique .closing)
  simp [hasNode, found, nonempty, other]

end

/-! ## The rows of a forest -/

theorem preorderAll_append (level : Nat) (front back : List Node) :
    Node.preorderAll level (front ++ back) =
      Node.preorderAll level front ++ Node.preorderAll level back := by
  induction front with
  | nil => simp [Node.preorderAll]
  | cons node front ih => simp [Node.preorderAll, ih]

theorem Spans.describes {statements : List String} {start stop : Nat} {nodes : List Node} {level : Nat}
    (h : Spans statements start nodes stop) (height : (level : Int) = 1 + depth statements start) :
    List.Forall₂ (Describes statements) (nodePositions statements start stop)
      (Node.preorderAll level nodes) := by
  induction h generalizing level with
  -- positions and rows are cut at the same places: behind a statement without node, a leaf, or a loop
  | nil =>
      rw [nodePositions_self]
      exact .nil
  | @blank start stop nodes found rest ih =>
      have step := depth_succ_blank found
      rw [nodePositions_append (Nat.le_succ start) rest.le, nodePositions_succ_of_not_hasNode
        (not_hasNode_blank found)]
      exact ih (by omega)
  | @operation start stop nodes text op found denotes rest ih =>
      have step := depth_succ found denotes
      simp only [Statement.rise] at step
      rw [nodePositions_append (Nat.le_succ start) rest.le, nodePositions_succ_of_hasNode
        (hasNode_of_denotes found denotes (by simp))]
      refine List.Forall₂.cons ⟨height, text, found, .operation denotes⟩ ?_
      exact ih (by omega)
  | @loop start close stop children nodes text condition found denotes children' close' rest
      ihChildren ihRest =>
      have opened := depth_succ found denotes
      have closed := Spans.depth_close found denotes children' close'
      have inner := children'.le
      have outer := rest.le
      simp only [Statement.rise] at opened
      -- the positions of a loop are its head, those in its body, and its end, which has no node
      rw [nodePositions_append (Nat.le_succ start) (by omega), nodePositions_append inner (by omega),
        nodePositions_append (Nat.le_succ close) outer,
        nodePositions_succ_of_hasNode (hasNode_of_denotes found denotes (by simp)),
        nodePositions_succ_of_not_hasNode (not_hasNode_end close')]
      refine List.Forall₂.cons ⟨height, text, found, .loop denotes⟩ ?_
      refine List.rel_append (ihChildren ?_) (ihRest ?_)
      · simp only [Int.natCast_add]
        omega
      · omega

/-- The rows of all that a scan has passed belong to the positions in front of it, whatever the open loops
will still hold. -/
theorem OpenSpans.describes {statements : List String} {frames : List Frame} {before rest : List Node}
    {position : Nat} {positions : List Nat} (h : OpenSpans statements 0 frames before position)
    (behind : List.Forall₂ (Describes statements) positions (Node.preorderAll (frames.length + 1) rest)) :
    List.Forall₂ (Describes statements) (nodePositions statements 0 position ++ positions)
      (Node.preorderAll 1 (plug (before.reverse ++ rest) frames)) := by
  induction h generalizing rest positions with
  -- the rows are put together from the inside out, each frame around all that is further in
  | outside spans =>
      rw [plug, preorderAll_append]
      exact List.rel_append (spans.describes (by simp)) behind
  | @inside frames outer before head stop text condition path found denotes spans ih =>
      have level := path.depth_eq
      have opened := depth_succ found denotes
      simp only [Statement.rise, depth_zero] at opened level
      -- the innermost loop is the last node of the body around it
      have inner : List.Forall₂ (Describes statements)
          (nodePositions statements (head + 1) stop ++ positions)
          (Node.preorderAll (frames.length + 2) (before.reverse ++ rest)) := by
        rw [preorderAll_append]
        refine List.rel_append (spans.describes ?_) behind
        simp only [Int.natCast_add]
        omega
      have loop : List.Forall₂ (Describes statements)
          (head :: (nodePositions statements (head + 1) stop ++ positions))
          (Node.preorderAll (frames.length + 1) [.loop (head + 1) condition (before.reverse ++ rest)]) := by
        simp only [Node.preorderAll, Node.preorderAt, List.append_nil]
        refine List.Forall₂.cons ⟨?_, text, found, .loop denotes⟩ inner
        simp only [Int.natCast_add]
        omega
      have whole := ih loop
      rw [nodePositions_append (Nat.zero_le (head + 1)) spans.le,
        nodePositions_append (Nat.zero_le head) (Nat.le_succ head),
        nodePositions_succ_of_hasNode (hasNode_of_denotes found denotes (by simp))]
      simpa [plug, Frame.fill] using whole

theorem OpenSpans.scope_eq {statements : List String} {frames : List Frame} {before : List Node}
    {position : Nat} {ending : Ending} (h : OpenSpans statements 0 frames before position)
    (stops : Stops statements frames position ending) (mode : Mode) {root : Node}
    (ok : outcome mode (plug before.reverse frames) ending = .ok root) : scope statements = position := by
  cases stops with
  | unreadable _ _ _ => simp [outcome] at ok
  | strayEnd none found =>
      subst none
      simp [scope, h.strayEnd?_eq_some found]
  | exhausted last =>
      subst last
      simp [scope, h.strayEnd?_eq_none]

/-! ## The rows of a compiled tree -/

/-- In preorder, a compiled tree has its root and then one row for each statement in scope that has a node,
in the order of the statements. -/
theorem preorder_compile {mode : Mode} {program : String} {root : Node} (h : compile mode program = .ok root) :
    ∃ rows, root.preorder = (0, .loop 0 (.once false)) :: rows ∧
      List.Forall₂ (Describes (Source.statements program))
        (nodePositions (Source.statements program) 0 (scope (Source.statements program))) rows := by
  unfold compile at h
  generalize Source.statements program = statements at h
  rcases compileStatements_cases statements with ⟨frames, before, stop, ending, path, _, stops, result⟩
  rw [result] at h
  -- behind the position where the scan has stopped, no row follows
  have nothing : List.Forall₂ (Describes statements) [] (Node.preorderAll (frames.length + 1) []) := .nil
  have described := path.describes nothing
  rw [path.scope_eq stops mode h]
  obtain rfl := root_eq_of_outcome h
  refine ⟨_, rfl, ?_⟩
  simpa using described

/-- A loop between two operations; behind an end that belongs to no loop nothing counts. -/
theorem preorder_compile_strayEnd :
    compile .lenient "clear x;;while x not 3 do;incr x;end;decr x;end;clear clear" =
        .ok (Node.root
          [.operation 1 (.clear "x"),
           .loop 3 (.compare .notEqual (.var "x") (.literal 3)) [.operation 4 (.increment "x")],
           .operation 6 (.decrement "x")]) ∧
      ∃ rows,
        (Node.root
          [.operation 1 (.clear "x"),
           .loop 3 (.compare .notEqual (.var "x") (.literal 3)) [.operation 4 (.increment "x")],
           .operation 6 (.decrement "x")]).preorder = (0, .loop 0 (.once false)) :: rows ∧
        List.Forall₂
          (Describes (Source.statements "clear x;;while x not 3 do;incr x;end;decr x;end;clear clear"))
          [0, 2, 3, 5] rows :=
  ⟨rfl, preorder_compile (show compile .lenient _ = .ok _ from rfl)⟩

end CounterLang
