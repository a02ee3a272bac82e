import CounterLang.Proofs.Compilation.Rows
import CounterLang.Proofs.Run.Lockstep

/-!
# Spacing — statements with a space too many

A statement with a space at either end, or with two spaces next to each other, has an empty word.  No form of the
language has room for one but in the place of a name, and the empty word is a name.  So statements with irregular
spacing are refused, unless it is their name that is missing; then they are accepted, and a node of the tree has
the empty name.

- `IsIrregular`             : texts with a space too many
- `IsIrregular.mem_pieces`  : they have an empty word
- `IsNameless`              : statements whose name is missing
- `isNameless_iff`          : all statements with irregular spacing are of this kind
- `Labels.nameless_iff`     : the nodes with the empty name come from such statements
- `compile_syntaxError_iff` : the statement that a compilation refuses
- `compile_spacing`         : what becomes of irregular spacing in a program
-/

namespace CounterLang

open Statement (Denotes)
open Source

/-! ## Texts with a space too many -/

/-- A space stands at an end of a text, or two spaces stand next to each other. -/
inductive IsIrregular : String → Prop where
  | leading (rest : String) : IsIrregular (" " ++ rest)
  | trailing (front : String) : IsIrregular (front ++ " ")
  | doubled (front rest : String) : IsIrregular (front ++ "  " ++ rest)

/-- A statement in which nothing stands in the place of the name. -/
inductive IsNameless : String → Prop where
  | operation {keyword : String} :
      keyword ∈ ["clear", "incr", "decr"] → IsNameless (keyword ++ " ")
  | opening {number : String} {value : Int64} :
      Numeral.read? number = some value → IsNameless ("while  not " ++ number ++ " do")

section
variable {text : String}

theorem IsIrregular.nonempty (h : IsIrregular text) : text ≠ "" := by
  rw [Ne, ← String.toList_inj]
  cases h with
  | leading rest => simp
  | trailing front => simp
  | doubled front rest => simp

/-- Around the space too many there is an empty word. -/
theorem IsIrregular.mem_pieces (h : IsIrregular text) : "" ∈ Text.pieces ' ' text := by
  have nothing : Text.pieces ' ' "" = [""] := by decide
  have behind : ∀ front : String, "" ∈ Text.pieces ' ' (front ++ " ") := by
    intro front
    have cut : Text.pieces ' ' (front ++ " " ++ "") = _ := Text.pieces_append ' ' front ""
    rw [nothing, String.append_empty] at cut
    simp [cut]
  cases h with
  | leading rest =>
      have cut : Text.pieces ' ' ("" ++ " " ++ rest) = _ := Text.pieces_append ' ' "" rest
      rw [nothing, String.empty_append] at cut
      simp [cut]
  | trailing front => exact behind front
  | doubled front rest =>
      -- what stands in front of the second space ends with the first one
      have cut : Text.pieces ' ' (front ++ " " ++ " " ++ rest) = _ := Text.pieces_append ' ' (front ++ " ") rest
      have double : front ++ " " ++ " " ++ rest = front ++ "  " ++ rest := by
        rw [← String.toList_inj]
        simp
      rw [← double, cut]
      exact List.mem_append_left _ (behind front)

/-! ## Statements whose name is missing -/

theorem isName_empty : IsName "" :=
  ⟨by decide, by decide, rfl⟩

/-- A numeral has a digit at least. -/
theorem Numeral.ne_empty_of_read? {number : String} {value : Int64} (h : Numeral.read? number = some value) :
    number ≠ "" := by
  rintro rfl
  cases h

/-- Of the words of a statement only the name can be empty. -/
theorem Statement.Denotes.isNameless {statement : Statement} (denotes : Denotes text statement)
    (empty : "" ∈ Text.pieces ' ' text) : IsNameless text := by
  have inWords := denotes.inWords
  rw [← Text.intercalate_pieces ' ' text]
  generalize Text.pieces ' ' text = words at empty inWords
  cases inWords with
  | clear _ =>
      simp at empty
      subst empty
      exact @IsNameless.operation "clear" (by simp)
  | increment _ =>
      simp at empty
      subst empty
      exact @IsNameless.operation "incr" (by simp)
  | decrement _ =>
      simp at empty
      subst empty
      exact @IsNameless.operation "decr" (by simp)
  | @opening name number value _ isNumber =>
      have filled := Numeral.ne_empty_of_read? isNumber
      simp [filled.symm] at empty
      subst empty
      have text : (String.singleton ' ').intercalate ["while", "", "not", number, "do"] =
          "while  not " ++ number ++ " do" := by
        rw [← String.toList_inj]
        simp
      rw [text]
      exact .opening isNumber
  | closing => simp at empty

/-- The statements with irregular spacing are those whose name is missing. -/
theorem isNameless_iff : IsNameless text ↔ IsIrregular text ∧ ∃ statement, Denotes text statement := by
  constructor
  · intro nameless
    cases nameless with
    | @operation keyword known =>
        refine ⟨.trailing keyword, ?_⟩
        simp only [List.mem_cons, List.not_mem_nil, or_false] at known
        rcases known with rfl | rfl | rfl
        · exact ⟨_, .clear isName_empty⟩
        · exact ⟨_, .increment isName_empty⟩
        · exact ⟨_, .decrement isName_empty⟩
    | @opening number value isNumber =>
        have doubled := IsIrregular.doubled "while" ("not " ++ number ++ " do")
        have text : "while" ++ "  " ++ ("not " ++ number ++ " do") = "while  not " ++ number ++ " do" := by
          rw [← String.toList_inj]
          simp
        rw [text] at doubled
        exact ⟨doubled, _, .opening isName_empty isNumber⟩
  · rintro ⟨irregular, statement, denotes⟩
    exact denotes.isNameless irregular.mem_pieces

/-- The nodes with the empty name come from statements whose name is missing. -/
theorem Labels.nameless_iff {line : Nat} {label : Label} (h : Labels line text label) :
    "" ∈ label.variables ↔ IsNameless text := by
  have empty : ∀ statement, Denotes text statement → (IsNameless text ↔ "" ∈ Text.pieces ' ' text) := by
    intro statement denotes
    exact ⟨fun nameless => (isNameless_iff.1 nameless).1.mem_pieces, denotes.isNameless⟩
  cases h with
  | operation denotes =>
      rw [empty _ denotes]
      have inWords := denotes.inWords
      generalize Text.pieces ' ' text = words at inWords
      cases inWords <;> simp [Label.variables, Operation.target]
  | loop denotes =>
      rw [empty _ denotes]
      have inWords := denotes.inWords
      generalize Text.pieces ' ' text = words at inWords
      cases inWords with
      | @opening name number value _ isNumber =>
          have filled := Numeral.ne_empty_of_read? isNumber
          simp [Label.variables, Condition.reads, Operand.reads, filled.symm]

end

/-! ## Statements that are refused -/

/-- Whatever the mode, a compilation refuses a statement if it is the first that cannot be passed, and it cannot be
read. -/
theorem compile_syntaxError_iff {mode : Mode} {program text : String} {line : Nat} :
    compile mode program = .error (.syntaxError line text) ↔
      ∃ position, Passable (statements program) position ∧ Unreadable (statements program) position text ∧
        line = position + 1 := by
  unfold compile
  generalize statements program = statements
  rcases compileStatements_lenient statements with
    ⟨position, other, passable, unreadable, failed⟩ | ⟨readable, root, ok⟩
  · rw [failed]
    constructor
    · intro same
      obtain ⟨rfl, rfl⟩ := CompileError.syntaxError.inj (Except.error.inj same)
      exact ⟨position, passable, unreadable, rfl⟩
    · rintro ⟨position', passable', unreadable', rfl⟩
      rw [Fault.unique (.unreadable passable unreadable) (.unreadable passable' unreadable')]
  · constructor
    · intro failed
      cases mode with
      | lenient =>
          rw [ok] at failed
          cases failed
      | strict =>
          rcases compileStatements_strict statements with ⟨error, fault, failed'⟩ | ⟨_, _, root', ok'⟩
          · obtain rfl := Except.error.inj (failed.symm.trans failed')
            cases fault with
            | unreadable passable unreadable => exact ⟨_, passable, unreadable, rfl⟩
          · rw [ok'] at failed
            cases failed
    · rintro ⟨position, passable, unreadable, _⟩
      exact absurd unreadable (readable position text passable)

/-! ## Nodes with the empty name -/

/-- Where the members of two lists are related one by one, whatever the relation carries over is found in both lists
or in neither. -/
theorem exists_mem_iff_of_forall₂ {α β : Type} {related : α → β → Prop} {p : α → Prop} {q : β → Prop} {as : List α}
    {bs : List β} (h : List.Forall₂ related as bs) (same : ∀ a b, related a b → (p a ↔ q b)) :
    (∃ a ∈ as, p a) ↔ ∃ b ∈ bs, q b := by
  induction h with
  | nil => simp
  | cons head _ ih => simp only [List.exists_mem_cons_iff, ih, same _ _ head]

/-- The statement at a position has irregular spacing, and can be read all the same. -/
def Source.NamelessAt (statements : List String) (position : Nat) : Prop :=
  ∃ text, statements[position]? = some text ∧ IsNameless text

theorem Source.NamelessAt.hasNode {statements : List String} {position : Nat} (h : NamelessAt statements position) :
    hasNode statements position = true := by
  rcases h with ⟨text, found, nameless⟩
  obtain ⟨irregular, statement, denotes⟩ := isNameless_iff.1 nameless
  refine hasNode_of_denotes found denotes ?_
  rintro rfl
  obtain rfl := Statement.denotes_closing_iff.1 denotes
  exact absurd irregular.mem_pieces (by decide)

/-- A compiled tree has a node with the empty name just if the name of a statement in scope is missing. -/
theorem exists_nameless_iff_of_compile {mode : Mode} {program : String} {root : Node}
    (h : compile mode program = .ok root) :
    (∃ label ∈ Node.labels [root], "" ∈ label.variables) ↔
      ∃ position < scope (statements program), NamelessAt (statements program) position := by
  unfold compile at h
  generalize statements program = statements at h ⊢
  rcases compileStatements_cases statements with ⟨frames, before, stop, ending, path, _, stops, result⟩
  rw [result] at h
  rw [path.scope_eq stops mode h]
  obtain rfl := root_eq_of_outcome h
  -- the rows of the tree belong to the positions of its statements, one by one
  have nothing : List.Forall₂ (Describes statements) [] (Node.preorderAll (frames.length + 1) []) := .nil
  have described := path.describes nothing
  rw [List.append_nil, List.append_nil] at described
  have rows := exists_mem_iff_of_forall₂ (p := NamelessAt statements) (q := fun row => "" ∈ row.2.variables) described
    fun position row here => by
      obtain ⟨text, found, labelled⟩ := here.label
      rw [labelled.nameless_iff]
      simp [NamelessAt, found]
  constructor
  · rintro ⟨label, mem, empty⟩
    rw [Node.root, labels_loop] at mem
    rcases List.mem_cons.1 mem with rfl | mem
    · cases empty
    · rw [show Node.labels [] = [] from rfl, List.append_nil, Node.labels, map_snd_preorderAll 0 1] at mem
      rcases List.mem_map.1 mem with ⟨row, listed, rfl⟩
      obtain ⟨position, inScope, nameless⟩ := rows.2 ⟨row, listed, empty⟩
      have bound : position < stop := by
        simp [nodePositions] at inScope
        omega
      exact ⟨position, bound, nameless⟩
  · rintro ⟨position, inScope, nameless⟩
    have listed : position ∈ nodePositions statements 0 stop := by
      simp [nodePositions, nameless.hasNode, inScope]
    obtain ⟨row, mem, empty⟩ := rows.1 ⟨position, listed, nameless⟩
    refine ⟨row.2, ?_, empty⟩
    rw [Node.root, labels_loop, show Node.labels [] = [] from rfl, List.append_nil, Node.labels,
      map_snd_preorderAll 0 1]
    exact List.mem_cons_of_mem _ (List.mem_map_of_mem mem)

/-! ## Programs with irregular spacing -/

/-- The statements with irregular spacing that can be read are those whose name is missing.  Any other statement with
irregular spacing that a compilation comes to is refused, and with it the program; one whose name is missing is passed,
and so are all statements in front of it.  A compiled tree has a node with the empty name just if there is a statement
of this kind in scope. -/
theorem compile_spacing (mode : Mode) (program : String) :
    (∀ text, IsNameless text ↔ IsIrregular text ∧ ∃ statement, Denotes text statement) ∧
      (∀ position text, Passable (statements program) position → (statements program)[position]? = some text →
        IsIrregular text →
          (¬ IsNameless text → compile mode program = .error (.syntaxError (position + 1) text)) ∧
            (IsNameless text →
              ∀ line other, compile mode program = .error (.syntaxError line other) → position + 1 < line)) ∧
      ∀ root, compile mode program = .ok root →
        ((∃ label ∈ Node.labels [root], "" ∈ label.variables) ↔
          ∃ position < scope (statements program), NamelessAt (statements program) position) := by
  refine ⟨fun text => isNameless_iff, ?_, fun root => exists_nameless_iff_of_compile⟩
  intro position text passable found irregular
  constructor
  · intro named
    refine compile_syntaxError_iff.2 ⟨position, passable, ⟨found, irregular.nonempty, ?_⟩, rfl⟩
    intro statement denotes
    exact named (isNameless_iff.2 ⟨irregular, statement, denotes⟩)
  · intro nameless line other failed
    obtain ⟨refused, _, unreadable, rfl⟩ := compile_syntaxError_iff.1 failed
    refine Nat.succ_lt_succ (Nat.lt_of_le_of_ne ?_ ?_)
    · exact Nat.le_of_not_lt fun before => passable.readable refused before other unreadable
    · -- the statement itself can be read
      rintro rfl
      obtain rfl : text = other := by simpa [found] using unreadable.1
      obtain ⟨_, statement, denotes⟩ := isNameless_iff.1 nameless
      exact unreadable.2.2 statement denotes

/-- Two statements without a name are passed, and a node of the tree has the empty name; a third one, in which a name
stands behind two spaces, is refused. -/
theorem compile_spacing_third :
    let root := Node.root [.operation 1 (.clear ""), .loop 2 (.compare .notEqual (.var "") (.literal 3)) []]
    compile .lenient "clear ;while  not 3 do" = .ok root ∧
      (∃ label ∈ Node.labels [root], "" ∈ label.variables) ∧
      compile .strict "clear ;while  not 3 do;incr  x" = .error (.syntaxError 3 "incr  x") := by
  intro root
  have compiled : compile .lenient "clear ;while  not 3 do" = .ok root := rfl
  have empty : NamelessAt (statements "clear ;while  not 3 do") 0 :=
    ⟨"clear ", rfl, @IsNameless.operation "clear" (by simp)⟩
  have passable : Passable (statements "clear ;while  not 3 do;incr  x") 2 := by
    refine ⟨?_, by decide⟩
    intro earlier before text unreadable
    have read : ∀ statement, Statement.parse? text ≠ some statement := fun statement parsed =>
      unreadable.2.2 statement (Statement.parse?_eq_some_iff.1 parsed)
    rcases (by omega : earlier = 0 ∨ earlier = 1) with rfl | rfl
    · obtain rfl : "clear " = text := Option.some.inj unreadable.1
      exact read _ rfl
    · obtain rfl : "while  not 3 do" = text := Option.some.inj unreadable.1
      exact read _ rfl
  have named : ¬ IsNameless "incr  x" := by
    intro nameless
    obtain ⟨_, statement, denotes⟩ := isNameless_iff.1 nameless
    cases Statement.parse?_eq_some_iff.2 denotes
  refine ⟨compiled, ?_, ?_⟩
  · exact ((compile_spacing .lenient _).2.2 root compiled).2 ⟨0, by decide, empty⟩
  · exact ((compile_spacing .strict _).2.1 2 "incr  x" passable rfl (.doubled "incr" "x")).1 named

/-- A space at the end of a statement is not always refused: behind the word for clearing, the empty name is cleared,
in either mode. -/
theorem irregular_spacing_accepted :
    IsIrregular "clear " ∧ Passable (statements "clear ") 0 ∧ (statements "clear ")[0]? = some "clear " ∧
      (∀ mode, compile mode "clear " = .ok (Node.root [.operation 1 (.clear "")])) ∧
      ¬ ∀ mode program position text, Passable (statements program) position →
        (statements program)[position]? = some text → text ≠ "" → IsIrregular text →
          ∃ line ≤ position + 1, ∃ other, compile mode program = .error (.syntaxError line other) := by
  have irregular : IsIrregular "clear " := .trailing "clear"
  have passable : Passable (statements "clear ") 0 := ⟨nofun, by decide⟩
  have compiled : ∀ mode, compile mode "clear " = .ok (Node.root [.operation 1 (.clear "")]) := by
    intro mode
    cases mode <;> rfl
  refine ⟨irregular, passable, rfl, compiled, ?_⟩
  intro refused
  obtain ⟨line, _, other, failed⟩ := refused .strict "clear " 0 "clear " passable rfl (by decide) irregular
  rw [compiled] at failed
  cases failed

end CounterLang
