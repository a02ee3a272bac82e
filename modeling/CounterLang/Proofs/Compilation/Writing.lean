import CounterLang.Proofs.Compilation.OpenSpans
import CounterLang.Proofs.Node.Relabel
import CounterLang.Proofs.Statement.Spelling

/-!
# Writing — forests written out as programs

A forest is written out in preorder: a leaf is one statement, a loop is its head, its children and an end.
Compiling what has been written gives the forest back, with the lines that its statements have in the text.
Since strict mode accepts nothing but written forests and empty statements, compiling and writing undo each
other from either side.

- `Node.spell`            : the statements of a tree
- `Node.placeAt`          : a tree whose lines are those of its statements
- `Source.write`          : a forest as a program text
- `Writable`              : forests of writable operations and loops
- `Writable.spans`        : a written forest spans the statements that it is written as
- `Spans.writable`        : what spans the statements of a program can be written
- `compile_write`         : compiling undoes writing, and writing undoes compiling up to lines
-/

namespace CounterLang

open Statement (Denotes)
open Source

/-! ## Written forests -/

namespace Node

mutual

def spell : Node → List String
  | operation _ op => [op.spelling]
  | loop _ condition children => condition.spelling :: (spellAll children ++ ["end"])

def spellAll : List Node → List String
  | [] => []
  | node :: nodes => node.spell ++ spellAll nodes

end

mutual

/-- A tree whose first statement stands on the given line, with the lines of all its statements. -/
def placeAt (line : Nat) : Node → Node
  | operation _ op => operation line op
  | loop _ condition children => loop line condition (placeAll (line + 1) children)

/-- A forest whose first statement stands on the given line; behind a tree the next one starts. -/
def placeAll (line : Nat) : List Node → List Node
  | [] => []
  | node :: nodes => node.placeAt line :: placeAll (line + node.spell.length) nodes

end

end Node

/-- A forest as a program text. -/
def Source.write (nodes : List Node) : String :=
  ";".intercalate (Node.spellAll nodes)

/-- Forests whose operations and loop heads can all be written out. -/
inductive Writable : List Node → Prop where
  | nil : Writable []
  | operation {line : Nat} {op : Operation} {rest : List Node} :
      op.Writable → Writable rest → Writable (.operation line op :: rest)
  | loop {line : Nat} {condition : Condition} {children rest : List Node} :
      condition.Writable → Writable children → Writable rest →
        Writable (.loop line condition children :: rest)

section
variable {statements : List String} {start stop : Nat} {nodes : List Node}

/-! ## Compiling undoes writing -/

theorem cons_prefix_drop {text : String} {texts : List String}
    (h : text :: texts <+: statements.drop start) :
    statements[start]? = some text ∧ texts <+: statements.drop (start + 1) := by
  rcases h with ⟨behind, split⟩
  have first : (statements.drop start)[0]? = some text := by simp [← split]
  have rest : texts ++ behind = statements.drop (start + 1) := by
    rw [← List.tail_drop, ← split]
    rfl
  exact ⟨by simpa using first, behind, rest⟩

theorem append_prefix_drop {front back : List String} (h : front ++ back <+: statements.drop start) :
    front <+: statements.drop start ∧ back <+: statements.drop (start + front.length) := by
  rcases h with ⟨behind, split⟩
  have rest : back ++ behind = statements.drop (start + front.length) := by
    rw [← List.drop_drop, ← split]
    simp
  exact ⟨⟨back ++ behind, by simpa using split⟩, behind, rest⟩

/-- Wherever a forest is written out, it spans the statements that it is written as. -/
theorem Writable.spans (h : Writable nodes) (spelled : Node.spellAll nodes <+: statements.drop start) :
    Spans statements start (Node.placeAll (start + 1) nodes) (start + (Node.spellAll nodes).length) := by
  -- the induction is on the forest, and each part of it starts where the part in front of it ends
  induction h generalizing start with
  | nil => exact .nil
  | @operation line op rest writable _ ih =>
      simp only [Node.spellAll, Node.spell, List.singleton_append] at spelled
      rcases cons_prefix_drop spelled with ⟨found, behind⟩
      have tail := Spans.operation found writable.denotes (ih behind)
      simpa [Node.placeAll, Node.placeAt, Node.spellAll, Node.spell, Nat.add_assoc, Nat.add_comm,
        Nat.add_left_comm] using tail
  | @loop line condition children rest writable _ _ ihChildren ihRest =>
      simp only [Node.spellAll, Node.spell, List.cons_append, List.append_assoc, List.nil_append] at spelled
      rcases cons_prefix_drop spelled with ⟨found, inner⟩
      rcases append_prefix_drop inner with ⟨body, closing⟩
      rcases cons_prefix_drop closing with ⟨close, behind⟩
      have whole := Spans.loop found writable.denotes (ihChildren body) close (ihRest behind)
      simpa [Node.placeAll, Node.placeAt, Node.spellAll, Node.spell, Nat.add_assoc, Nat.add_comm,
        Nat.add_left_comm] using whole

/-- On its own it spans just the statements that it is written as. -/
theorem Writable.spans_spellAll (h : Writable nodes) :
    Spans (Node.spellAll nodes) 0 (Node.placeAll 1 nodes) (Node.spellAll nodes).length := by
  have whole : Node.spellAll nodes <+: (Node.spellAll nodes).drop 0 := List.prefix_refl _
  simpa using h.spans whole

theorem Writable.unbroken (h : Writable nodes) : ∀ text ∈ Node.spellAll nodes, ';' ∉ text.toList := by
  induction h with
  | nil => simp [Node.spellAll]
  | operation writable _ ih => simpa [Node.spellAll, Node.spell, writable.unbroken] using ih
  | loop writable _ _ ihChildren ihRest =>
      intro text mem
      simp only [Node.spellAll, Node.spell, List.cons_append, List.append_assoc, List.nil_append,
        List.mem_cons, List.mem_append] at mem
      rcases mem with rfl | inner | rfl | behind
      · exact writable.unbroken
      · exact ihChildren text inner
      · decide
      · exact ihRest text behind

theorem Writable.statements_write (h : Writable nodes) (nonempty : Node.spellAll nodes ≠ []) :
    Source.statements (Source.write nodes) = Node.spellAll nodes :=
  Text.pieces_intercalate nonempty h.unbroken

theorem Writable.compile_ok (h : Writable nodes) (mode : Mode) :
    compile mode (Source.write nodes) = .ok (Node.root (Node.placeAll 1 nodes)) := by
  by_cases nonempty : Node.spellAll nodes = []
  · -- only the empty forest is written as the empty text, which is a single empty statement
    have none : nodes = [] := by
      cases h with
      | nil => rfl
      | operation => simp [Node.spellAll, Node.spell] at nonempty
      | loop => simp [Node.spellAll, Node.spell] at nonempty
    subst none
    have empty : Spans (Source.statements "") 0 [] (Source.statements "").length := .blank (by decide) .nil
    exact empty.compileStatements_ok mode
  · rw [compile, h.statements_write nonempty]
    exact h.spans_spellAll.compileStatements_ok mode

/-! ## Writing undoes compiling -/

/-- Whatever spans the statements of a program can be written, since no statement contains a semicolon. -/
theorem Spans.writable (h : Spans statements start nodes stop)
    (unbroken : ∀ text ∈ statements, ';' ∉ text.toList) : Writable nodes := by
  induction h with
  | nil => exact .nil
  | blank _ _ ih => exact ih
  | operation found denotes _ ih =>
      exact .operation (.of_denotes denotes (unbroken _ (List.mem_of_getElem? found))) ih
  | loop found denotes _ _ _ ihChildren ihRest =>
      exact .loop (.of_denotes denotes (unbroken _ (List.mem_of_getElem? found))) ihChildren ihRest

end

/-- Placing a forest changes its lines only. -/
theorem unlined_placeAll (line : Nat) (nodes : List Node) :
    (Node.placeAll line nodes).map Relabelling.unlined.node = nodes.map Relabelling.unlined.node := by
  induction nodes using Node.forest_induction generalizing line with
  | nil => rfl
  | operation _ op rest ih => simp [Node.placeAll, Node.placeAt, ih]
  | loop _ condition children rest ihChildren ihRest =>
      simp [Node.placeAll, Node.placeAt, ihChildren, ihRest]

/-- What a forest is written as does not depend on its lines. -/
theorem spellAll_unlined (nodes : List Node) :
    Node.spellAll (nodes.map Relabelling.unlined.node) = Node.spellAll nodes := by
  induction nodes using Node.forest_induction with
  | nil => rfl
  | operation _ op rest ih => simp [Node.spellAll, Node.spell, ih]
  | loop _ condition children rest ihChildren ihRest =>
      simp [Node.spellAll, Node.spell, ihChildren, ihRest]

theorem write_placeAll (line : Nat) (nodes : List Node) :
    Source.write (Node.placeAll line nodes) = Source.write nodes := by
  have same : Node.spellAll (Node.placeAll line nodes) = Node.spellAll nodes :=
    calc
      Node.spellAll (Node.placeAll line nodes)
          = Node.spellAll ((Node.placeAll line nodes).map Relabelling.unlined.node) :=
            (spellAll_unlined _).symm
      _ = Node.spellAll nodes := by rw [unlined_placeAll, spellAll_unlined]
  rw [Source.write, Source.write, same]

/-! ## Compiling and writing -/

/-- In either mode a written forest is compiled to itself, on the lines of its statements; and a tree that
strict mode accepts is compiled to itself again up to its lines when it is written out, and is then written out
in the same way. -/
theorem compile_write :
    (∀ nodes, Writable nodes → ∀ mode,
      compile mode (Source.write nodes) = .ok (Node.root (Node.placeAll 1 nodes))) ∧
    (∀ program root, compile .strict program = .ok root → ∀ mode, ∃ again,
      compile mode (Source.write root.children) = .ok again ∧
        Relabelling.unlined.node again = Relabelling.unlined.node root ∧
          Source.write again.children = Source.write root.children) := by
  refine ⟨fun nodes writable mode => writable.compile_ok mode, ?_⟩
  intro program root h mode
  rcases compileStatements_strict_ok.1 h with ⟨nodes, spans, rfl⟩
  have writable : Writable nodes := spans.writable fun _ mem => Text.notMem_of_mem_pieces mem
  refine ⟨_, writable.compile_ok mode, ?_, write_placeAll 1 nodes⟩
  simp [Node.root, unlined_placeAll]

/-- A loop in a loop, both limits of the numbers, and a variable with the empty name; and a program whose empty
statements and plus sign are not written again. -/
theorem compile_write_nested :
    compile .strict
        (Source.write
          [.operation 0 (.clear ""),
           .loop 0 (.compare .notEqual (.var "") (.literal Int64.minValue))
            [.operation 0 (.decrement ""),
             .loop 0 (.compare .notEqual (.var "1a") (.literal Int64.maxValue)) []],
           .operation 0 (.increment "1a")]) =
        .ok (Node.root
          [.operation 1 (.clear ""),
           .loop 2 (.compare .notEqual (.var "") (.literal Int64.minValue))
            [.operation 3 (.decrement ""),
             .loop 4 (.compare .notEqual (.var "1a") (.literal Int64.maxValue)) []],
           .operation 7 (.increment "1a")]) ∧
      ∃ again,
        compile .lenient "clear x;while x not 7 do;incr x;end" = .ok again ∧
          Relabelling.unlined.node again =
            Relabelling.unlined.node
              (Node.root
                [.operation 2 (.clear "x"),
                 .loop 3 (.compare .notEqual (.var "x") (.literal 7)) [.operation 5 (.increment "x")]]) ∧
          Source.write again.children = "clear x;while x not 7 do;incr x;end" := by
  have empty : IsSourceName "" := ⟨⟨by decide, by decide, by decide⟩, by decide⟩
  have name : IsSourceName "1a" := ⟨⟨by decide, by decide, by decide⟩, by decide⟩
  have text : Source.write
      [.operation 2 (.clear "x"),
       .loop 3 (.compare .notEqual (.var "x") (.literal 7)) [.operation 5 (.increment "x")]] =
        "clear x;while x not 7 do;incr x;end" := by
    decide
  constructor
  · refine compile_write.1 _ ?_ .strict
    exact .operation (.clear empty)
      (.loop (.notEqual empty) (.operation (.decrement empty) (.loop (.notEqual name) .nil .nil))
        (.operation (.increment name) .nil))
  · rw [← text]
    exact compile_write.2 ";clear x;while x not +07 do;;incr x;end;" _ rfl .lenient

end CounterLang
