import CounterLang.Compilation

/-!
# Layout — programs spread over the lines of a file

A file has any number of statements on each of its lines, indents a line by steps of four spaces, and ends it in
one of two ways; a line may also be left without statements.  Whatever the layout, the file is the same program as
its statements written one behind the other.

- `IsPlain`               : statements that a layout cannot be mistaken for
- `Layout`                : the lines of a file
- `Layout.text`           : the file itself
- `Source.oneLine`        : statements one behind the other, without any layout
- `stripLayout_plain`     : taking the layout away leaves a statement alone, up to the semicolon behind it
- `withoutLayout_text`    : and leaves nothing but the statements of a file
- `compile_layout`        : a file is compiled like the list of its statements
-/

namespace CounterLang

/-! ## Files -/

/-- A statement that has nothing of a layout in it: no semicolon and no line end breaks it up, and no four spaces
stand together. -/
structure IsPlain (text : String) : Prop where
  unbroken : ';' ∉ text.toList
  endless : '\n' ∉ text.toList
  dense : ¬ List.replicate 4 ' ' <:+: text.toList

inductive LineEnd
  | newline
  | returnNewline
  deriving DecidableEq, Repr

def LineEnd.text : LineEnd → String
  | newline => "\n"
  | returnNewline => "\r\n"

/-- Statements one behind the other, each with a semicolon behind it. -/
def Source.oneLine (statements : List String) : String :=
  String.join (statements.map (· ++ ";"))

/-- A line of a file: the number of its steps of indentation, and the statements on it. -/
structure FileLine where
  level : Nat
  statements : List String
  deriving DecidableEq, Repr

def FileLine.text (line : FileLine) : String :=
  String.ofList (List.replicate (4 * line.level) ' ') ++ Source.oneLine line.statements

/-- The lines of a file.  What stands behind the last line end is a line as well, and nothing at all if it is not
indented and has no statements. -/
structure Layout where
  ended : List (FileLine × LineEnd)
  last : FileLine
  deriving DecidableEq, Repr

namespace Layout

def text (layout : Layout) : String :=
  String.join (layout.ended.map fun line => line.1.text ++ line.2.text) ++ layout.last.text

def statements (layout : Layout) : List String :=
  layout.ended.flatMap (fun line => line.1.statements) ++ layout.last.statements

end Layout

/-! ## Taking the layout away -/

namespace Source

variable {c : Char} {chars rest : List Char}

/-- A character is kept unless it belongs to a line end or to a step of indentation. -/
theorem stripLayout_cons (inLine : c ≠ '\n') (noReturn : c = '\r' → rest.head? ≠ some '\n')
    (noIndent : ¬ List.replicate 4 ' ' <+: c :: rest) : stripLayout (c :: rest) = c :: stripLayout rest := by
  rw [stripLayout]
  · rintro behind rfl rfl
    exact noIndent ⟨behind, rfl⟩
  · rintro behind rfl rfl
    exact noReturn rfl rfl
  · exact inLine

theorem stripLayout_indent (level : Nat) (rest : List Char) :
    stripLayout (List.replicate (4 * level) ' ' ++ rest) = stripLayout rest := by
  induction level with
  | zero => rfl
  | succ level ih =>
      simpa [Nat.mul_succ, List.replicate_succ, stripLayout] using ih

theorem stripLayout_lineEnd (ending : LineEnd) (rest : List Char) :
    stripLayout (ending.text.toList ++ rest) = stripLayout rest := by
  cases ending <;> rfl

/-- Steps of indentation do not reach over a semicolon. -/
theorem replicate_prefix_of_append (h : List.replicate 4 ' ' <+: chars ++ ';' :: rest) :
    List.replicate 4 ' ' <+: chars := by
  rcases List.prefix_or_prefix_of_prefix h (List.prefix_append chars (';' :: rest)) with inside | ⟨more, split⟩
  · exact inside
  · -- otherwise the spaces that are missing would start with the semicolon
    rw [← split, List.prefix_append_right_inj] at h
    cases more with
    | nil => simp [← split]
    | cons space more =>
        obtain rfl : space = ';' := (List.cons_prefix_cons.1 h).1
        have mem : ';' ∈ List.replicate 4 ' ' := by simp [← split]
        exact absurd mem (by decide)

/-- A text without line ends and without steps of indentation is kept, up to the semicolon behind it. -/
theorem stripLayout_chars (endless : '\n' ∉ chars) (dense : ¬ List.replicate 4 ' ' <:+: chars)
    (rest : List Char) : stripLayout (chars ++ ';' :: rest) = chars ++ ';' :: stripLayout rest := by
  induction chars with
  | nil =>
      refine stripLayout_cons (by decide) (fun isReturn => absurd isReturn (by decide)) ?_
      simp [List.replicate]
  | cons c chars ih =>
      have inLine : '\n' ≠ c := List.ne_of_not_mem_cons endless
      have endless : '\n' ∉ chars := List.not_mem_of_not_mem_cons endless
      have noIndent : ¬ List.replicate 4 ' ' <+: c :: (chars ++ ';' :: rest) := fun indent =>
        dense (replicate_prefix_of_append indent).isInfix
      have noReturn : (chars ++ ';' :: rest).head? ≠ some '\n' := by
        cases chars with
        | nil => simp
        | cons next chars => simpa using Ne.symm (List.ne_of_not_mem_cons endless)
      rw [List.cons_append, stripLayout_cons (Ne.symm inLine) (fun _ => noReturn) noIndent,
        ih endless fun inside => dense (List.infix_cons inside), List.cons_append]

theorem stripLayout_plain {text : String} (plain : IsPlain text) (rest : List Char) :
    stripLayout ((text ++ ";").toList ++ rest) = (text ++ ";").toList ++ stripLayout rest := by
  simpa using stripLayout_chars plain.endless plain.dense rest

theorem stripLayout_oneLine {statements : List String} (plain : ∀ text ∈ statements, IsPlain text)
    (rest : List Char) :
    stripLayout ((oneLine statements).toList ++ rest) = (oneLine statements).toList ++ stripLayout rest := by
  induction statements with
  | nil => rfl
  | cons text statements ih =>
      have first := stripLayout_plain (plain text List.mem_cons_self) ((oneLine statements).toList ++ rest)
      have others := ih fun text mem => plain text (List.mem_cons_of_mem _ mem)
      rw [others] at first
      simpa [oneLine] using first

/-- Of a line nothing is left but its statements. -/
theorem stripLayout_line {line : FileLine} (plain : ∀ text ∈ line.statements, IsPlain text) (rest : List Char) :
    stripLayout (line.text.toList ++ rest) = (oneLine line.statements).toList ++ stripLayout rest := by
  rw [FileLine.text, String.toList_append, String.toList_ofList, List.append_assoc, stripLayout_indent,
    stripLayout_oneLine plain]

theorem oneLine_append (front back : List String) : oneLine (front ++ back) = oneLine front ++ oneLine back := by
  simp [oneLine]

/-- Of a file nothing is left but its statements. -/
theorem withoutLayout_text {layout : Layout} (plain : ∀ text ∈ layout.statements, IsPlain text) :
    withoutLayout layout.text = oneLine layout.statements := by
  rcases layout with ⟨ended, last⟩
  rw [withoutLayout, ← String.toList_inj, String.toList_ofList]
  -- the lines are taken away one by one, and the last one has no end
  induction ended with
  | nil =>
      have alone := stripLayout_line plain []
      simpa [Layout.text, Layout.statements, stripLayout] using alone
  | cons line ended ih =>
      have here : ∀ text ∈ line.1.statements, IsPlain text := fun text mem =>
        plain text (by simp [Layout.statements, mem])
      have behind := ih fun text mem => plain text (by
        simp only [Layout.statements, List.flatMap_cons, List.append_assoc]
        exact List.mem_append_right _ mem)
      have split : (Layout.text ⟨line :: ended, last⟩).toList =
          line.1.text.toList ++ (line.2.text.toList ++ (Layout.text ⟨ended, last⟩).toList) := by
        simp [Layout.text]
      rw [split, stripLayout_line here, stripLayout_lineEnd, behind, ← String.toList_append, ← oneLine_append]
      simp [Layout.statements]

end Source

/-! ## Compiling a file -/

/-- The statements of one line are those that are written on it, with an empty one behind the last semicolon. -/
theorem statements_oneLine {texts : List String} (unbroken : ∀ text ∈ texts, ';' ∉ text.toList) :
    Source.statements (Source.oneLine texts) = texts ++ [""] := by
  induction texts with
  | nil => decide
  | cons text texts ih =>
      have cut := Text.pieces_append ';' text (Source.oneLine texts)
      have one : Text.pieces ';' text = [text] :=
        Text.pieces_eq_iff.2 ⟨by simp, by simp, by simpa using unbroken text List.mem_cons_self⟩
      have others := ih fun text mem => unbroken text (List.mem_cons_of_mem _ mem)
      rw [Source.statements] at others ⊢
      rw [one, others] at cut
      simpa [Source.oneLine] using cut

/-- An empty statement at the end is not noticed. -/
theorem scan_concat_blank (opened : List Nat) (numbered : List (Nat × String)) (line : Nat) :
    scan opened (numbered ++ [(line, "")]) = scan opened numbered := by
  induction numbered generalizing opened with
  | nil => rfl
  | cons entry numbered ih => simp only [List.cons_append, scan, ih]

theorem compileStatements_concat_blank (mode : Mode) (statements : List String) :
    compileStatements mode (statements ++ [""]) = compileStatements mode statements := by
  have behind : Source.numbered (statements ++ [""]) =
      Source.numbered statements ++ [(statements.length + 1, "")] := by
    simp [Source.numbered, List.zipIdx_append, Nat.add_comm]
  simp only [compileStatements, Block.read, List.drop_zero, behind, scan_concat_blank]

/-- Without its layout a file is its statements one behind the other, so that it is compiled like these: to the same
tree or with the same error, the line of each statement being its position among them. -/
theorem compile_layout (layout : Layout) (plain : ∀ text ∈ layout.statements, IsPlain text) :
    Source.withoutLayout layout.text = Source.oneLine layout.statements ∧
      ∀ mode, compile mode (Source.withoutLayout layout.text) =
          compile mode (Source.oneLine layout.statements) ∧
        compile mode (Source.oneLine layout.statements) = compileStatements mode layout.statements := by
  have bare := Source.withoutLayout_text plain
  refine ⟨bare, fun mode => ⟨by rw [bare], ?_⟩⟩
  rw [compile, statements_oneLine fun text mem => (plain text mem).unbroken, compileStatements_concat_blank]

/-- Of the seven spaces in front of the last statement three are its own: they belong to the statement that cannot
be read, which is the fourth one also in the file. -/
theorem compile_layout_indented :
    let layout : Layout :=
      ⟨[(⟨0, ["clear x", ""]⟩, .returnNewline), (⟨2, []⟩, .newline), (⟨1, ["while x not 3 do"]⟩, .newline)],
        ⟨1, ["   incr x"]⟩⟩
    layout.text = "clear x;;\r\n        \n    while x not 3 do;\n       incr x;" ∧
      (∀ text ∈ layout.statements, IsPlain text) ∧
        Source.withoutLayout layout.text = "clear x;;while x not 3 do;   incr x;" ∧
          compile .lenient (Source.withoutLayout layout.text) = .error (.syntaxError 4 "   incr x") := by
  intro layout
  have plain : ∀ text ∈ layout.statements, IsPlain text := by
    intro text mem
    have listed : text ∈ ["clear x", "", "while x not 3 do", "   incr x"] := mem
    simp only [List.mem_cons, List.not_mem_nil, or_false] at listed
    rcases listed with rfl | rfl | rfl | rfl
    all_goals exact ⟨by decide, by decide, by decide +kernel⟩
  have bare := compile_layout layout plain
  refine ⟨by decide, plain, bare.1.trans (by decide), ?_⟩
  rw [(bare.2 .lenient).1, (bare.2 .lenient).2]
  rfl

end CounterLang
