import CounterLang.Proofs.Compilation.Spacing
import CounterLang.Proofs.Compilation.Writing
import CounterLang.Proofs.Source.Layout

/-!
# Indented — forests written out as files

In a file that is made for reading each statement stands on a line of its own, and the body of a loop is indented by
one more step than its head and its end.  Such a file is compiled to the forest that it has been made from; the lines
of the nodes are then just the lines of the file.

- `Source.indented`             : a forest as the lines of a file
- `Source.statements_indented`  : the statements of the file are those of the forest
- `IsPlain.of_pieces`           : statements without empty words cannot be mistaken for a layout
- `Writable.compile_indented`   : the file is compiled to the forest
-/

namespace CounterLang

namespace Node

mutual

/-- The lines of a tree; the first one is indented by so many steps. -/
def fileLines (level : Nat) : Node → List FileLine
  | operation _ op => [⟨level, [op.spelling]⟩]
  | loop _ condition children =>
    ⟨level, [condition.spelling]⟩ :: (fileLinesAll (level + 1) children ++ [⟨level, ["end"]⟩])

def fileLinesAll (level : Nat) : List Node → List FileLine
  | [] => []
  | node :: nodes => node.fileLines level ++ fileLinesAll level nodes

end

end Node

/-- A forest as a file, with nothing behind its last line end. -/
def Source.indented (nodes : List Node) : Layout where
  ended := (Node.fileLinesAll 0 nodes).map fun line => (line, .newline)
  last := ⟨0, []⟩

/-! ## Statements of a file -/

theorem statements_fileLinesAll (level : Nat) (nodes : List Node) :
    (Node.fileLinesAll level nodes).flatMap FileLine.statements = Node.spellAll nodes := by
  induction nodes using Node.forest_induction generalizing level with
  | nil => rfl
  | operation _ op rest ih => simp [Node.fileLinesAll, Node.fileLines, Node.spellAll, Node.spell, ih]
  | loop _ condition children rest ihChildren ihRest =>
      simp [Node.fileLinesAll, Node.fileLines, Node.spellAll, Node.spell, ihChildren, ihRest]

theorem Source.statements_indented (nodes : List Node) : (indented nodes).statements = Node.spellAll nodes := by
  rw [Layout.statements, indented, List.flatMap_map, statements_fileLinesAll, List.append_nil]

/-- Where four spaces stand together there is an empty word. -/
theorem IsPlain.of_pieces {text : String} (unbroken : ';' ∉ text.toList) (endless : '\n' ∉ text.toList)
    (filled : "" ∉ Text.pieces ' ' text) : IsPlain text where
  unbroken := unbroken
  endless := endless
  dense := by
    rintro ⟨front, rest, split⟩
    have doubled : text = String.ofList front ++ "  " ++ String.ofList (' ' :: ' ' :: rest) := by
      rw [← String.toList_inj, ← split]
      simp [List.replicate]
    exact filled (doubled ▸ IsIrregular.doubled _ _).mem_pieces

/-! ## Compiling the file -/

/-- In either mode the file of a forest is compiled to the forest, on the lines of the file. -/
theorem Writable.compile_indented {nodes : List Node} (h : Writable nodes)
    (plain : ∀ text ∈ Node.spellAll nodes, IsPlain text) (mode : Mode) :
    compile mode (Source.withoutLayout (Source.indented nodes).text) =
      .ok (Node.root (Node.placeAll 1 nodes)) := by
  have same := Source.statements_indented nodes
  have bare := Source.withoutLayout_text (same ▸ plain)
  rw [bare, same, compile, statements_oneLine h.unbroken, compileStatements_concat_blank]
  exact h.spans_spellAll.compileStatements_ok mode

/-- The body of a loop in a loop is indented twice. -/
example :
    (Source.indented
      [.operation 0 (.clear "x"),
       .loop 0 (.compare .notEqual (.var "x") (.literal 2))
        [.loop 0 (.compare .notEqual (.var "y") (.literal (-1))) [.operation 0 (.increment "x")]]]).text =
      "clear x;\nwhile x not 2 do;\n    while y not -1 do;\n        incr x;\n    end;\nend;\n" := by
  decide

end CounterLang
