import CounterLang.Numeral
import CounterLang.Proofs.Statement.Spelling
import CounterLang.Proofs.Text.Quoting
import CounterLang.Report

/-!
# Picture — what the picture of a program shows, line by line

The picture of a program has a line for every bracket that opens or closes and for every number, name and switch.  Every
line ends in a comma except those that open a bracket and the last one.  A list of children without lines is closed on
the line on which it is opened.  No node, no line number, no name and no switch is left out of a picture, so different
programs have different pictures.

- `Line`, `Line.written`     : a line of a text, and how it is written
- `Node.picture`             : the lines of a program, in words that stand for themselves
- `Report.tree_eq_written`   : what is printed of a program is its picture
- `Line.written_unique`      : the lines of a text can be told apart
- `Node.picture_injective`   : the lines of a picture tell what program it is of
- `Report.tree_injective`    : so does what is printed of it
-/

namespace CounterLang

open Text

/-! ## Lines -/

/-- A line of a text: how far it is moved in, and what stands on it. -/
structure Line where
  depth : Nat
  text : String
  deriving DecidableEq, Repr

/-- A line as it is written, behind four spaces for each level of its depth. -/
def Line.written (line : Line) : String :=
  String.ofList (List.replicate (4 * line.depth) ' ') ++ line.text ++ "\n"

def Line.writtenAll (lines : List Line) : String :=
  String.join (lines.map written)

/-! ## Pictures -/

namespace Operand

def picture (depth : Nat) : Operand → List Line
  | literal value => [⟨depth, "Literal("⟩, ⟨depth + 1, Numeral.write value ++ ","⟩, ⟨depth, "),"⟩]
  | var name => [⟨depth, "Variable("⟩, ⟨depth + 1, quote name ++ ","⟩, ⟨depth, "),"⟩]

end Operand

namespace Condition

/-- What stands on the line that opens a condition. -/
def heading : Condition → String
  | once _ => "Once \x7b"
  | compare .equal _ _ => "Equal("
  | compare .notEqual _ _ => "NotEqual("
  | compare .greaterThan _ _ => "GreaterThan("
  | compare .lessThan _ _ => "LessThan("

def picture (depth : Nat) (condition : Condition) : List Line :=
  ⟨depth, "condition: " ++ condition.heading⟩ ::
    match condition with
    | once fired => [⟨depth + 1, if fired then "fired: true," else "fired: false,"⟩, ⟨depth, "\x7d,"⟩]
    | compare _ left right => left.picture (depth + 1) ++ right.picture (depth + 1) ++ [⟨depth, "),"⟩]

end Condition

namespace Operation

/-- What stands on the line that opens an operation. -/
def heading : Operation → String
  | clear _ => "Clear("
  | increment _ => "Increment("
  | decrement _ => "Decrement("
  | arithmetic .add _ _ => "Add("
  | arithmetic .subtract _ _ => "Subtract("
  | arithmetic .multiply _ _ => "Multiply("
  | arithmetic .divide _ _ => "Divide("

/-- What stands between the name of a variable and the end of an operation on it. -/
def operands (depth : Nat) : Operation → List Line
  | arithmetic _ _ operand => operand.picture depth
  | _ => []

def picture (depth : Nat) (op : Operation) : List Line :=
  ⟨depth, "operation: " ++ op.heading⟩ :: ⟨depth + 1, quote op.target ++ ","⟩ ::
    (op.operands (depth + 1) ++ [⟨depth, "),"⟩])

end Operation

namespace Node

/-- What stands on the line that opens a node. -/
def heading : Node → String
  | operation _ _ => "Operator \x7b"
  | loop _ _ _ => "Condition \x7b"

/-- The lines of the children of a loop, between their brackets. -/
def listing (depth : Nat) : List Line → List Line
  | [] => [⟨depth, "children: [],"⟩]
  | line :: lines => ⟨depth, "children: ["⟩ :: (line :: lines ++ [⟨depth, "],"⟩])

mutual

/-- The lines between the brackets of a node. -/
def inside (depth : Nat) : Node → List Line
  | operation line op => ⟨depth, "line: " ++ toString line ++ ","⟩ :: op.picture depth
  | loop line condition children =>
    ⟨depth, "line: " ++ toString line ++ ","⟩ ::
      (condition.picture depth ++ listing depth (elements (depth + 1) children))

def elements (depth : Nat) : List Node → List Line
  | [] => []
  | node :: nodes =>
    ⟨depth, node.heading⟩ :: (node.inside (depth + 1) ++ ⟨depth, "\x7d,"⟩ :: elements depth nodes)

end

/-- The lines of a whole program. -/
def picture (root : Node) : List Line :=
  ⟨0, root.heading⟩ :: (root.inside 1 ++ [⟨0, "\x7d"⟩])

end Node

/-! ## What is printed is the picture -/

namespace Line

@[simp]
theorem writtenAll_nil : writtenAll [] = "" :=
  rfl

@[simp]
theorem writtenAll_cons (line : Line) (lines : List Line) :
    writtenAll (line :: lines) = line.written ++ writtenAll lines := by
  rw [writtenAll, List.map_cons, String.join_cons]
  rfl

@[simp]
theorem writtenAll_append (lines rest : List Line) :
    writtenAll (lines ++ rest) = writtenAll lines ++ writtenAll rest := by
  induction lines with
  | nil => rw [List.nil_append]; exact (String.empty_append).symm
  | cons line lines ih => rw [List.cons_append, writtenAll_cons, ih, writtenAll_cons, String.append_assoc]

end Line

namespace Text.Outline
variable {depth : Nat}

theorem linesAt_cons (part : Outline) (parts : List Outline) :
    linesAt depth (part :: parts) = linesAt depth [part] ++ linesAt depth parts := by
  simp only [linesAt, String.append_empty]

theorem linesAt_atom (text : String) :
    linesAt depth [.atom text] = Line.written ⟨depth, text ++ ","⟩ := by
  rw [← String.toList_inj]
  simp [linesAt, indentedAt, Line.written, margin]

theorem linesAt_field (name text : String) :
    linesAt depth [.field name (.atom text)] = Line.written ⟨depth, name ++ ": " ++ text ++ ","⟩ := by
  rw [← String.toList_inj]
  simp [linesAt, indentedAt, Line.written, margin]

theorem linesAt_group (head : String) (bracket : Bracket) (part : Outline) (parts : List Outline) :
    linesAt depth [.group head bracket (part :: parts)] =
      Line.written ⟨depth, head ++ bracket.opening⟩ ++
        (linesAt (depth + 1) (part :: parts) ++ Line.written ⟨depth, bracket.closing ++ ","⟩) := by
  rw [← String.toList_inj]
  simp [linesAt, indentedAt, Line.written, margin]

theorem linesAt_field_group (name head : String) (bracket : Bracket) (part : Outline) (parts : List Outline) :
    linesAt depth [.field name (.group head bracket (part :: parts))] =
      Line.written ⟨depth, name ++ ": " ++ (head ++ bracket.opening)⟩ ++
        (linesAt (depth + 1) (part :: parts) ++ Line.written ⟨depth, bracket.closing ++ ","⟩) := by
  rw [← String.toList_inj]
  simp [linesAt, indentedAt, Line.written, margin]

end Text.Outline

open Outline

section
variable (depth : Nat)

theorem Operand.linesAt_outline (operand : Operand) :
    linesAt depth [operand.outline] = Line.writtenAll (operand.picture depth) := by
  cases operand
  all_goals
    rw [outline, linesAt_group, linesAt_atom]
    simp [picture, Bracket.opening, Bracket.closing]

theorem Condition.name_opening (comparison : Comparison) (left right : Operand) :
    comparison.name ++ Bracket.round.opening = heading (.compare comparison left right) := by
  cases comparison <;> rfl

theorem Condition.linesAt_outline (condition : Condition) :
    linesAt depth [.field "condition" condition.outline] = Line.writtenAll (condition.picture depth) := by
  cases condition with
  | once fired =>
    rw [outline, linesAt_field_group, linesAt_field]
    cases fired
    all_goals simp [picture, heading, Bracket.opening, Bracket.closing]
  | compare comparison left right =>
    rw [outline, linesAt_field_group, linesAt_cons, Operand.linesAt_outline, Operand.linesAt_outline,
      name_opening comparison left right]
    simp [picture, Bracket.closing, String.append_assoc]

theorem Operation.name_opening (kind : Arithmetic) (target : String) (operand : Operand) :
    kind.name ++ Bracket.round.opening = heading (.arithmetic kind target operand) := by
  cases kind <;> rfl

theorem Operation.linesAt_outline (op : Operation) :
    linesAt depth [.field "operation" op.outline] = Line.writtenAll (op.picture depth) := by
  cases op with
  | arithmetic kind target operand =>
    rw [outline, linesAt_field_group, linesAt_cons, linesAt_atom, Operand.linesAt_outline,
      name_opening kind target operand]
    simp [picture, operands, Operation.target, Bracket.closing, String.append_assoc]
  | _ target =>
    rw [outline, linesAt_field_group, linesAt_atom]
    simp [picture, heading, operands, Operation.target, Bracket.opening, Bracket.closing]

/-- A list of children is printed on one line if there are none. -/
theorem Node.linesAt_children (nodes : List Node)
    (printed : linesAt (depth + 1) (outlines nodes) = Line.writtenAll (elements (depth + 1) nodes)) :
    linesAt depth [.field "children" (.group "" .square (outlines nodes))] =
      Line.writtenAll (listing depth (elements (depth + 1) nodes)) := by
  cases nodes with
  | nil =>
    rw [← String.toList_inj]
    simp [outlines, elements, listing, linesAt, indentedAt, Line.written, margin, Bracket.opening, Bracket.closing]
  | cons node nodes =>
    rw [outlines] at printed ⊢
    rw [linesAt_field_group, printed]
    simp [elements, listing, Bracket.opening, Bracket.closing, String.append_assoc]

end

/-- The outline of a node is a group between the brackets of its picture, once that is so for its children. -/
theorem Node.exists_outline_eq (node : Node)
    (printed : ∀ depth, linesAt depth (outlines node.children) = Line.writtenAll (elements depth node.children)) :
    ∃ head part parts, node.outline = .group head .curly (part :: parts) ∧
      head ++ Bracket.curly.opening = node.heading ∧
      ∀ depth, linesAt depth (part :: parts) = Line.writtenAll (node.inside depth) := by
  cases node with
  | operation line op =>
    refine ⟨_, _, _, rfl, rfl, fun depth => ?_⟩
    rw [linesAt_cons, linesAt_field, Operation.linesAt_outline, inside, Line.writtenAll_cons]
    rfl
  | loop line condition children =>
    refine ⟨_, _, _, rfl, rfl, fun depth => ?_⟩
    rw [linesAt_cons, linesAt_field, linesAt_cons, Condition.linesAt_outline,
      linesAt_children depth children (printed _), inside, Line.writtenAll_cons, Line.writtenAll_append]
    rfl

theorem Node.linesAt_cons_outlines {node : Node} {nodes : List Node}
    (first : ∀ depth, linesAt depth (outlines node.children) = Line.writtenAll (elements depth node.children))
    (others : ∀ depth, linesAt depth (outlines nodes) = Line.writtenAll (elements depth nodes)) (depth : Nat) :
    linesAt depth (outlines (node :: nodes)) = Line.writtenAll (elements depth (node :: nodes)) := by
  rcases node.exists_outline_eq first with ⟨head, part, parts, isGroup, opens, within⟩
  rw [outlines, linesAt_cons, others, isGroup, linesAt_group, opens, within]
  simp [elements, Bracket.closing, String.append_assoc]

/-- What is printed of a forest is its picture. -/
theorem Node.linesAt_outlines (nodes : List Node) :
    ∀ depth, linesAt depth (outlines nodes) = Line.writtenAll (elements depth nodes) := by
  induction nodes using forest_induction with
  | nil => exact fun _ => rfl
  | operation line op rest ih => exact linesAt_cons_outlines (fun _ => rfl) ih
  | loop line condition children rest ihChildren ih => exact linesAt_cons_outlines ihChildren ih

/-- What is printed of a program is its picture, under a heading. -/
theorem Report.tree_eq_written (root : Node) :
    tree root = "=== AST ===\n" ++ Line.writtenAll root.picture := by
  rcases root.exists_outline_eq (Node.linesAt_outlines _) with ⟨head, part, parts, isGroup, opens, within⟩
  rw [tree, Outline.indented, isGroup, indentedAt, opens, within, ← String.toList_inj]
  simp [Node.picture, Line.written, margin, Bracket.closing]

example : Report.tree (.root []) = "=== AST ===\nCondition \x7b\n    line: 0,\n    condition: Once \x7b\n" ++
    "        fired: false,\n    \x7d,\n    children: [],\n\x7d\n" := by
  decide

/-! ## Lines can be told apart -/

/-- The text of a line starts where its margin ends, and the line ends where its text ends. -/
structure Plain (text : String) : Prop where
  starts : text.toList.head? ≠ some ' '
  unbroken : '\n' ∉ text.toList

instance (text : String) : Decidable (Plain text) :=
  decidable_of_iff (text.toList.head? ≠ some ' ' ∧ '\n' ∉ text.toList) ⟨fun h => ⟨h.1, h.2⟩, fun h => ⟨h.1, h.2⟩⟩

/-- A text that does not start with a space tells how far it has been moved in. -/
theorem margin_unique {chars chars' : List Char} (starts : chars.head? ≠ some ' ') (starts' : chars'.head? ≠ some ' ') :
    ∀ {m n : Nat}, List.replicate m ' ' ++ chars = List.replicate n ' ' ++ chars' → m = n ∧ chars = chars'
  | 0, 0, same => ⟨rfl, same⟩
  | 0, n + 1, same => absurd (congrArg List.head? same) starts
  | m + 1, 0, same => absurd (congrArg List.head? same).symm starts'
  | m + 1, n + 1, same => by
      rcases margin_unique starts starts' (List.cons.inj same).2 with ⟨width, behind⟩
      exact ⟨congrArg Nat.succ width, behind⟩

namespace Line

theorem toList_written (line : Line) :
    line.written.toList = List.replicate (4 * line.depth) ' ' ++ line.text.toList ++ ['\n'] := by
  simp [written]

/-- The lines of a text can be told apart. -/
theorem written_unique : ∀ {lines lines' : List Line}, (∀ line ∈ lines, Plain line.text) →
    (∀ line ∈ lines', Plain line.text) →
    writtenAll lines = writtenAll lines' → lines = lines'
  | [], [], _, _, _ => rfl
  | [], line :: _, _, _, same => by simpa [toList_written] using congrArg String.toList same
  | line :: _, [], _, _, same => by simpa [toList_written] using congrArg String.toList same
  | line :: lines, line' :: lines', plain, plain', same => by
      rw [List.forall_mem_cons] at plain plain'
      have unbroken : ∀ {line : Line}, Plain line.text →
          '\n' ∉ List.replicate (4 * line.depth) ' ' ++ line.text.toList := fun h => by simp [h.unbroken]
      have chars := congrArg String.toList same
      simp only [writtenAll_cons, String.toList_append, toList_written, List.append_assoc, List.singleton_append]
        at chars
      simp only [← List.append_assoc] at chars
      -- both texts are cut at their first end of a line, and what stands in front of it at the end of the margin
      rcases cut_unique (unbroken plain.1) (unbroken plain'.1) chars with ⟨first, others⟩
      rcases margin_unique plain.1.starts plain'.1.starts first with ⟨width, text⟩
      have depth : line.depth = line'.depth := by omega
      have rest : lines = lines' := written_unique plain.2 plain'.2 (String.toList_inj.1 others)
      rw [rest, show line = line' from congr (congrArg mk depth) (String.toList_inj.1 text)]

end Line

/-! ## The lines of a picture are plain -/

theorem plain_quote (name : String) : Plain (quote name ++ ",") where
  starts := by simp [quote]
  unbroken := by simp [unbroken_quote]

theorem plain_write (value : Int64) : Plain (Numeral.write value ++ ",") where
  starts := by
    intro first
    have noSpace : ' ' ∉ (Numeral.write value).toList := Numeral.notMem_write (by decide) (by decide) value
    simpa [noSpace] using List.mem_of_head? first
  unbroken := by
    have noNewline : '\n' ∉ (Numeral.write value).toList := Numeral.notMem_write (by decide) (by decide) value
    simpa using noNewline

theorem plain_line (line : Nat) : Plain ("line: " ++ toString line ++ ",") where
  starts := by simp
  unbroken := by
    have digits : '\n' ∉ (toString line).toList := fun mem => by
      rw [Nat.toString_eq_ofList_toDigits, String.toList_ofList] at mem
      exact absurd (Nat.isDigit_of_mem_toDigits (by decide) (by decide) mem) (by decide)
    simpa using digits

section
variable (depth : Nat)

theorem Operand.plain (operand : Operand) : ∀ line ∈ operand.picture depth, Plain line.text := by
  cases operand
  all_goals
    simp only [picture, List.forall_mem_cons]
    refine ⟨by decide, ?_, by decide, by simp⟩
  · exact plain_write _
  · exact plain_quote _

theorem Condition.plain (condition : Condition) : ∀ line ∈ condition.picture depth, Plain line.text := by
  cases condition with
  | once fired =>
      simp only [picture, heading, List.forall_mem_cons]
      cases fired
      all_goals exact ⟨by decide, by decide, by decide, by simp⟩
  | compare comparison left right =>
      have opens : Plain ("condition: " ++ heading (.compare comparison left right)) := by
        cases comparison <;> rw [heading] <;> decide
      simp only [picture, List.forall_mem_cons, List.forall_mem_append]
      exact ⟨opens, ⟨left.plain _, right.plain _⟩, by decide, by simp⟩

theorem Operation.plain (op : Operation) : ∀ line ∈ op.picture depth, Plain line.text := by
  have opens : Plain ("operation: " ++ op.heading) := by
    rcases op with _ | _ | _ | ⟨_ | _ | _ | _, _, _⟩ <;> rw [heading] <;> decide
  have operands : ∀ line ∈ op.operands (depth + 1), Plain line.text := by
    cases op with
    | arithmetic _ _ operand => exact operand.plain _
    | _ => exact List.forall_mem_nil _
  simp only [picture, List.forall_mem_cons, List.forall_mem_append]
  exact ⟨opens, plain_quote _, operands, by decide, by simp⟩

namespace Node

theorem plain_heading (node : Node) : Plain node.heading := by
  cases node <;> rw [heading] <;> decide

theorem plain_listing {lines : List Line} (plain : ∀ line ∈ lines, Plain line.text) :
    ∀ line ∈ listing depth lines, Plain line.text := by
  cases lines with
  | nil => simp only [listing, List.forall_mem_cons]; exact ⟨by decide, by simp⟩
  | cons line lines =>
      simp only [listing, List.forall_mem_cons, List.forall_mem_append] at plain ⊢
      exact ⟨by decide, plain, by decide, by simp⟩

/-- The lines of a node are plain once those of its children are. -/
theorem plain_inside {node : Node} (children : ∀ depth, ∀ line ∈ elements depth node.children, Plain line.text) :
    ∀ line ∈ node.inside depth, Plain line.text := by
  cases node with
  | operation line op =>
      rw [inside, List.forall_mem_cons]
      exact ⟨plain_line line, op.plain _⟩
  | loop line condition nodes =>
      rw [inside, List.forall_mem_cons, List.forall_mem_append]
      exact ⟨plain_line line, condition.plain _, plain_listing _ (children _)⟩

end Node
end

namespace Node

theorem plain_elements_cons {node : Node} {nodes : List Node}
    (children : ∀ depth, ∀ line ∈ elements depth node.children, Plain line.text)
    (others : ∀ depth, ∀ line ∈ elements depth nodes, Plain line.text) (depth : Nat) :
    ∀ line ∈ elements depth (node :: nodes), Plain line.text := by
  simp only [elements, List.forall_mem_cons, List.forall_mem_append]
  exact ⟨node.plain_heading, plain_inside _ children, by decide, others depth⟩

theorem plain_elements (nodes : List Node) : ∀ depth, ∀ line ∈ elements depth nodes, Plain line.text := by
  induction nodes using forest_induction with
  | nil => exact fun _ => List.forall_mem_nil _
  | operation line op rest ih => exact plain_elements_cons (fun _ => List.forall_mem_nil _) ih
  | loop line condition children rest ihChildren ih => exact plain_elements_cons ihChildren ih

/-- The lines of a picture are plain. -/
theorem plain_picture (root : Node) : ∀ line ∈ root.picture, Plain line.text := by
  rw [picture, List.forall_mem_cons, List.forall_mem_append]
  exact ⟨root.plain_heading, plain_inside _ (plain_elements _), by decide⟩

end Node

/-! ## A picture tells what it is of -/

theorem quote_inj {a b : String} : quote a = quote b ↔ a = b :=
  ⟨quote_injective, congrArg quote⟩

theorem Numeral.write_inj {a b : Int64} : write a = write b ↔ a = b := by
  refine ⟨fun same => ?_, congrArg write⟩
  rw [← Option.some_inj, ← read?_write a, ← read?_write b, same]

section
variable {depth : Nat} {rest rest' : List Line}

theorem Operand.picture_unique {operand other : Operand}
    (same : operand.picture depth ++ rest = other.picture depth ++ rest') : operand = other ∧ rest = rest' := by
  cases operand <;> cases other <;> simp_all [picture, quote_inj, Numeral.write_inj]

theorem Condition.picture_unique {condition other : Condition}
    (same : condition.picture depth ++ rest = other.picture depth ++ rest') : condition = other ∧ rest = rest' := by
  simp only [picture, List.cons_append, List.cons.injEq, Line.mk.injEq, true_and, String.append_right_inj] at same
  rcases same with ⟨headings, behind⟩
  cases condition with
  | once fired =>
      cases other with
      | once fired' => cases fired <;> cases fired' <;> simp_all
      | compare comparison _ _ => cases comparison <;> simp [heading] at headings
  | compare comparison left right =>
      cases other with
      | once _ => cases comparison <;> simp [heading] at headings
      | compare comparison' left' right' =>
          simp only [List.append_assoc] at behind
          rcases Operand.picture_unique behind with ⟨lefts, behindLeft⟩
          rcases Operand.picture_unique behindLeft with ⟨rights, behindRight⟩
          have comparisons : comparison = comparison' := by
            cases comparison <;> cases comparison' <;> simp_all [heading]
          exact ⟨by rw [comparisons, lefts, rights], (List.cons.inj behindRight).2⟩

/-- An operation is told by the word it is shown with, its variable, and its operand if it has one. -/
theorem Operation.operands_unique {op other : Operation} (headings : op.heading = other.heading)
    (targets : op.target = other.target)
    (same : op.operands (depth + 1) ++ ⟨depth, "),"⟩ :: rest = other.operands (depth + 1) ++ ⟨depth, "),"⟩ :: rest') :
    op = other ∧ rest = rest' := by
  cases op with
  | arithmetic kind target operand =>
      cases other with
      | arithmetic kind' target' operand' =>
          rcases Operand.picture_unique same with ⟨operands, behind⟩
          have kinds : kind = kind' := by cases kind <;> cases kind' <;> simp_all [heading]
          exact ⟨by rw [kinds, show target = target' from targets, operands], (List.cons.inj behind).2⟩
      | _ => cases kind <;> simp [heading] at headings
  | _ target =>
      cases other with
      | arithmetic kind' _ _ => cases kind' <;> simp [heading] at headings
      | _ target' => simp_all [heading, operands, Operation.target]

theorem Operation.picture_unique {op other : Operation}
    (same : op.picture depth ++ rest = other.picture depth ++ rest') : op = other ∧ rest = rest' := by
  simp only [picture, List.cons_append, List.cons.injEq, Line.mk.injEq, true_and, String.append_right_inj,
    String.append_left_inj, quote_inj, List.append_assoc, List.nil_append] at same
  exact operands_unique same.1 same.2.1 same.2.2

/-- The lines stand further out than a level at which they follow other lines. -/
def Line.Outside (depth : Nat) (lines : List Line) : Prop :=
  ∀ line ∈ lines.head?, line.depth < depth

theorem Line.outside_cons {text : String} : Outside (depth + 1) (⟨depth, text⟩ :: rest) := by
  rintro _ ⟨⟩
  exact Nat.lt_succ_self depth

namespace Node

/-- The lines of a forest tell where it ends if what follows them stands further out. -/
def Unique (nodes : List Node) : Prop :=
  ∀ depth others rest rest', Line.Outside depth rest → Line.Outside depth rest' →
    elements depth nodes ++ rest = elements depth others ++ rest' → nodes = others ∧ rest = rest'

theorem Unique.listing {nodes others : List Node} (h : Unique nodes)
    (same : Node.listing depth (elements (depth + 1) nodes) ++ rest =
      Node.listing depth (elements (depth + 1) others) ++ rest') : nodes = others ∧ rest = rest' := by
  cases nodes with
  | nil =>
      cases others with
      | nil => simpa [elements, Node.listing] using same
      | cons _ _ => simp [elements, Node.listing] at same
  | cons node nodes =>
      cases others with
      | nil => simp [elements, Node.listing] at same
      | cons other others =>
          -- the bracket behind the children stands further out than they do
          have within : elements (depth + 1) (node :: nodes) ++ ⟨depth, "],"⟩ :: rest =
              elements (depth + 1) (other :: others) ++ ⟨depth, "],"⟩ :: rest' := by
            simpa [elements, Node.listing] using same
          rcases h _ _ _ _ Line.outside_cons Line.outside_cons within with ⟨forest, behind⟩
          exact ⟨forest, (List.cons.inj behind).2⟩

theorem numbered_inj {m n : Nat} : "line: " ++ toString m ++ "," = "line: " ++ toString n ++ "," ↔ m = n := by
  rw [String.append_left_inj, String.append_right_inj, Nat.toString_eq_ofList_toDigits,
    Nat.toString_eq_ofList_toDigits, String.ofList_inj]
  refine ⟨fun digits => ?_, congrArg (Nat.toDigits 10)⟩
  calc m = Nat.ofDigitChars 10 (Nat.toDigits 10 m) 0 := Nat.ofDigitChars_ten_toDigits.symm
    _ = Nat.ofDigitChars 10 (Nat.toDigits 10 n) 0 := by rw [digits]
    _ = n := Nat.ofDigitChars_ten_toDigits

/-- The lines between the brackets of a node tell which node it is, once those of its children do. -/
theorem Unique.inside {node other : Node} (h : Unique node.children) (headings : node.heading = other.heading)
    (same : Node.inside depth node ++ rest = Node.inside depth other ++ rest') : node = other ∧ rest = rest' := by
  cases node with
  | operation line op =>
      cases other with
      | loop _ _ _ => simp [heading] at headings
      | operation line' op' =>
          simp only [Node.inside, List.cons_append, List.cons.injEq, Line.mk.injEq, true_and, numbered_inj] at same
          rcases Operation.picture_unique same.2 with ⟨ops, behind⟩
          exact ⟨by rw [same.1, ops], behind⟩
  | loop line condition children =>
      cases other with
      | operation _ _ => simp [heading] at headings
      | loop line' condition' children' =>
          simp only [Node.inside, List.cons_append, List.cons.injEq, Line.mk.injEq, true_and, numbered_inj,
            List.append_assoc] at same
          rcases Condition.picture_unique same.2 with ⟨conditions, listings⟩
          rcases h.listing listings with ⟨forests, behind⟩
          exact ⟨by rw [same.1, conditions, show children = children' from forests], behind⟩

theorem Unique.nil : Unique [] := by
  intro depth others rest rest' outside _ same
  cases others with
  | nil => exact ⟨rfl, same⟩
  | cons other others =>
      -- the first line of a forest stands at its level
      have first : rest.head? = some ⟨depth, other.heading⟩ := congrArg List.head? same
      exact absurd (outside _ first) (Nat.lt_irrefl depth)

theorem Unique.cons {node : Node} {nodes : List Node} (first : Unique node.children) (later : Unique nodes) :
    Unique (node :: nodes) := by
  intro depth others rest rest' outside outside' same
  cases others with
  | nil =>
      -- where the other forest has ended, the lines stand further out
      have first : rest'.head? = some ⟨depth, node.heading⟩ := (congrArg List.head? same).symm
      exact absurd (outside' _ first) (Nat.lt_irrefl depth)
  | cons other others =>
      simp only [elements, List.cons_append, List.cons.injEq, Line.mk.injEq, true_and, List.append_assoc] at same
      rcases first.inside same.1 same.2 with ⟨nodes, behind⟩
      rcases later _ _ _ _ outside outside' (List.cons.inj behind).2 with ⟨forests, behind⟩
      exact ⟨by rw [nodes, forests], behind⟩

theorem unique (nodes : List Node) : Unique nodes := by
  induction nodes using forest_induction with
  | nil => exact .nil
  | operation line op rest ih => exact .cons .nil ih
  | loop line condition children rest ihChildren ih => exact .cons ihChildren ih

/-- The lines of a picture tell what program it is of. -/
theorem picture_injective {root other : Node} (same : root.picture = other.picture) : root = other := by
  simp only [picture, List.cons.injEq, Line.mk.injEq, true_and] at same
  exact ((unique root.children).inside same.1 same.2).1

end Node

end

/-- What is printed of a program tells what program it is. -/
theorem Report.tree_injective {root other : Node} (same : tree root = tree other) : root = other := by
  rw [tree_eq_written, tree_eq_written, String.append_right_inj] at same
  exact Node.picture_injective (Line.written_unique root.plain_picture other.plain_picture same)

end CounterLang
