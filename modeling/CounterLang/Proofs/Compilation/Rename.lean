import CounterLang.Proofs.Run.Rename
import CounterLang.Proofs.Run.Vocabulary
import CounterLang.Proofs.Statement.Spelling

/-!
# Rename — programs whose variables have other names

The variable of a statement is its second word, behind one of four words.  If each variable of a program gets another
name, and different variables get different names, then nothing else changes: the tree has the same nodes on the same
lines, and runs of it take the same steps.  What a name looks like does not matter, as long as it is a single word that
is neither reserved nor a numeral.

- `namingWords`               : the words that a variable stands behind
- `Statement.renameText`      : the text of a statement whose variable has another name
- `Source.rename`             : a program whose variables have other names
- `Statement.Denotes.rename`  : a renamed text denotes the renamed statement
- `Spans.rename`              : renamed texts span the renamed forest
- `compile_execute_rename`    : renaming the variables of a program renames its tree and its runs
-/

namespace CounterLang

open Statement (Denotes)

/-! ## Texts -/

/-- The words that the variable of a statement stands behind. -/
def namingWords : List String :=
  ["clear", "incr", "decr", "while"]

namespace Statement

/-- The words of a statement, with another name for its variable. -/
def renameWords (image : String → String) : List String → List String
  | keyword :: name :: rest =>
    if keyword ∈ namingWords then keyword :: image name :: rest else keyword :: name :: rest
  | words => words

/-- The text of a statement, with another name for its variable and nothing else changed. -/
def renameText (image : String → String) (text : String) : String :=
  " ".intercalate (renameWords image (Text.pieces ' ' text))

def rename (image : String → String) : Statement → Statement
  | operation op => operation (op.rename image)
  | opening condition => opening (condition.rename image)
  | closing => closing

end Statement

/-- The variables that a statement speaks of. -/
def Statement.variables : Statement → List String
  | operation op => [op.target]
  | opening condition => condition.reads
  | closing => []

/-- A program whose variables have other names. -/
def Source.rename (image : String → String) (program : String) : String :=
  ";".intercalate ((statements program).map (Statement.renameText image))

section
variable {image : String → String} {text name number : String} {value : Int64} {statement : Statement}

/-- The variables of a statement stand behind one of four words. -/
theorem Statement.Denotes.words_variables (h : Denotes text statement) (named : name ∈ statement.variables) :
    ∃ keyword ∈ namingWords, ∃ rest, Text.pieces ' ' text = keyword :: name :: rest := by
  have inWords := h.inWords
  generalize Text.pieces ' ' text = words at inWords
  cases inWords with
  | clear _ =>
      obtain rfl := List.mem_singleton.1 named
      exact ⟨"clear", by decide, _, rfl⟩
  | increment _ =>
      obtain rfl := List.mem_singleton.1 named
      exact ⟨"incr", by decide, _, rfl⟩
  | decrement _ =>
      obtain rfl := List.mem_singleton.1 named
      exact ⟨"decr", by decide, _, rfl⟩
  | opening _ _ =>
      -- the number that the variable is compared with is no variable
      obtain rfl := List.mem_singleton.1 named
      exact ⟨"while", by decide, _, rfl⟩
  | closing => cases named

theorem renameText_empty : Statement.renameText image "" = "" := by
  have words : Text.pieces ' ' "" = [""] := by decide
  rw [Statement.renameText, words]
  rfl

theorem renameText_end : Statement.renameText image "end" = "end" := by
  have words : Text.pieces ' ' "end" = ["end"] := by decide
  rw [Statement.renameText, words]
  rfl

/-- The variable of an operation is all that stands behind its keyword. -/
theorem renameText_operation {start : String} (keyword : String) (naming : keyword ∈ namingWords)
    (single : ' ' ∉ keyword.toList) (spaced : start.toList = keyword.toList ++ [' ']) (isName : IsName name) :
    Statement.renameText image (start ++ name) = start ++ image name := by
  rw [Statement.renameText, Statement.words_operation keyword single spaced isName, Statement.renameWords,
    if_pos naming, ← String.toList_inj]
  simp [spaced]

/-- The head of a loop keeps its number, however that is written. -/
theorem renameText_opening (isName : IsName name) (isNumber : Numeral.read? number = some value) :
    Statement.renameText image ("while " ++ name ++ " not " ++ number ++ " do") =
      "while " ++ image name ++ " not " ++ number ++ " do" := by
  rw [Statement.renameText, Statement.words_opening isName isNumber, Statement.renameWords,
    if_pos (by decide : "while" ∈ namingWords), ← String.toList_inj]
  simp

/-- A renamed text denotes the renamed statement, and no semicolon has come into it. -/
theorem Statement.Denotes.rename (h : Denotes text statement)
    (valid : ∀ name ∈ statement.variables, IsSourceName (image name)) :
    Denotes (renameText image text) (statement.rename image) ∧
      (';' ∉ text.toList → ';' ∉ (renameText image text).toList) := by
  cases h with
  | @clear name isName =>
      have fresh := valid name (List.mem_singleton_self _)
      rw [renameText_operation "clear" (by decide) (by decide) (by decide) isName]
      exact ⟨.clear fresh.toIsName, fun _ => by simpa using fresh.unbroken⟩
  | @increment name isName =>
      have fresh := valid name (List.mem_singleton_self _)
      rw [renameText_operation "incr" (by decide) (by decide) (by decide) isName]
      exact ⟨.increment fresh.toIsName, fun _ => by simpa using fresh.unbroken⟩
  | @decrement name isName =>
      have fresh := valid name (List.mem_singleton_self _)
      rw [renameText_operation "decr" (by decide) (by decide) (by decide) isName]
      exact ⟨.decrement fresh.toIsName, fun _ => by simpa using fresh.unbroken⟩
  | @opening name number value isName isNumber =>
      have fresh := valid name (List.mem_singleton_self _)
      rw [renameText_opening isName isNumber]
      refine ⟨.opening fresh.toIsName isNumber, ?_⟩
      -- the number is written as before, and so it has no semicolon either
      have free := fresh.unbroken
      simp_all
  | closing =>
      rw [renameText_end]
      exact ⟨.closing, id⟩

end

/-! ## Programs -/

/-- The words that variables have got can name variables in a program. -/
def Renames (image : String → String) (statements : List String) : Prop :=
  ∀ text ∈ statements, ∀ statement, Denotes text statement → ∀ name ∈ statement.variables, IsSourceName (image name)

section
variable {image : String → String} {statements : List String} {program : String} {start stop : Nat} {nodes : List Node}
  {root : Node}

/-- Renamed texts span the renamed forest. -/
theorem Spans.rename (h : Spans statements start nodes stop) (valid : Renames image statements) :
    Spans (statements.map (Statement.renameText image)) start (nodes.map (Node.rename image)) stop := by
  have denotes {position : Nat} {text : String} {statement : Statement} (found : statements[position]? = some text)
      (here : Denotes text statement) : Denotes (Statement.renameText image text) (statement.rename image) :=
    (here.rename (valid text (List.mem_of_getElem? found) statement here)).1
  -- no statement moves, so that each text is found renamed in its old place
  have renamed {position : Nat} {text : String} (found : statements[position]? = some text) :
      (statements.map (Statement.renameText image))[position]? = some (Statement.renameText image text) := by
    rw [List.getElem?_map, found, Option.map_some]
  induction h with
  | nil => exact .nil
  | blank found _ ih => exact .blank ((renamed found).trans (congrArg some renameText_empty)) ih
  | operation found here _ ih =>
      simp only [List.map_cons, Node.rename_operation]
      exact .operation (renamed found) (denotes found here) ih
  | loop found here _ close _ ihChildren ihRest =>
      simp only [List.map_cons, Node.rename_loop]
      exact .loop (renamed found) (denotes found here) ihChildren
        ((renamed close).trans (congrArg some renameText_end)) ihRest

/-- The statements of a renamed program are those of the program, renamed. -/
theorem statements_rename (spans : Spans (Source.statements program) 0 nodes (Source.statements program).length)
    (valid : Renames image (Source.statements program)) :
    Source.statements (Source.rename image program) =
      (Source.statements program).map (Statement.renameText image) := by
  refine Text.pieces_intercalate (by simp [Source.statements, Text.pieces_ne_nil]) ?_
  intro renamed mem
  rcases List.mem_map.1 mem with ⟨text, listed, rfl⟩
  have unbroken : ';' ∉ text.toList := Text.notMem_of_mem_pieces listed
  -- each statement of a program that nests is empty or can be read
  rcases List.mem_iff_getElem?.1 listed with ⟨position, found⟩
  have inside : position < (Source.statements program).length := (List.getElem?_eq_some_iff.1 found).1
  rcases (spans.part (Nat.zero_le _) inside).readable with ⟨text', found', blank | ⟨statement, denotes⟩⟩
  · obtain rfl : text = text' := Option.some.inj (found.symm.trans found')
    rw [blank, renameText_empty]
    simp
  · obtain rfl : text = text' := Option.some.inj (found.symm.trans found')
    exact (denotes.rename (valid text listed statement denotes)).2 unbroken

/-- What a statement speaks of is a variable of the program. -/
theorem Statement.Denotes.secondWord {text name : String} {statement : Statement} (h : Denotes text statement)
    (listed : text ∈ Source.statements program) (named : name ∈ statement.variables) :
    Source.SecondWord program namingWords name := by
  refine ⟨text, listed, ?_, h.words_variables named⟩
  rw [Statement.parse?_eq_some_iff.2 h]
  rfl

/-- So is what a compiled tree speaks of. -/
theorem secondWord_of_mem_variables {mode : Mode} (h : compile mode program = .ok root) :
    ∀ name ∈ root.variables, Source.SecondWord program namingWords name := by
  intro name mem
  rcases List.mem_flatMap.1 mem with ⟨label, found, named⟩
  rcases exists_text_of_compile h label found with rfl | ⟨text, listed, line, labelled⟩
  · cases named
  · cases labelled with
    | operation denotes => exact denotes.secondWord listed named
    | loop denotes => exact denotes.secondWord listed named

/-- A renamed program compiles to the renamed tree. -/
theorem compile_rename (h : compile .strict program = .ok root) (valid : Renames image (Source.statements program))
    (mode : Mode) : compile mode (Source.rename image program) = .ok (root.rename image) := by
  rcases compileStatements_strict_ok.1 h with ⟨nodes, spans, rfl⟩
  have renamed := spans.rename valid
  have length : ((Source.statements program).map (Statement.renameText image)).length =
      (Source.statements program).length := List.length_map ..
  rw [compile, statements_rename spans valid, Node.rename_root]
  rw [← length] at renamed
  exact renamed.compileStatements_ok mode

end

/-! ## Runs -/

/-- No step gives a value to a variable that is not known. -/
theorem Machine.Path.knows {names : List String} {machine last : Machine} {events : List Event}
    (h : Path machine events last) (known : machine.Knows names) : last.Knows names := by
  induction h with
  | refl => exact known
  | step step _ ih => exact ih (known.of_step step)

/-- Let each variable of a program that strict mode accepts have another name, different ones for different variables.
Then either mode accepts the renamed program, and its tree is the old one with the new names.  From a store that holds
variables of the tree only, such as the empty one, the renamed tree takes the same steps, and ends in the same way with
the new names in place of the old ones; the stores at its events and in the end hold the old values under the new
names. -/
theorem compile_execute_rename {program : String} {root : Node} {image : String → String}
    (accepted : compile .strict program = .ok root)
    (injective : Set.InjOn image {word | Source.SecondWord program namingWords word})
    (names : ∀ word, Source.SecondWord program namingWords word → IsSourceName (image word)) :
    (∀ mode, compile mode (Source.rename image program) = .ok (root.rename image)) ∧
      ∀ store : Store, store.Names root.variables → ∀ limit,
        let run := execute limit store root
        let renamed := execute limit (store.rename image) (root.rename image)
        renamed.events.map (fun event => (event.line, event.looping, event.store)) =
            run.events.map (fun event => (event.line, event.looping, event.store.rename image)) ∧
          renamed.outcome = run.outcome.rename image ∧ renamed.tree = run.tree.rename image ∧
            renamed.store = run.store.rename image ∧
              ∀ stored, stored = run.store ∨ (∃ event ∈ run.events, stored = event.store) →
                (stored.rename image).toList.Perm (stored.toList.map fun entry => (image entry.1, entry.2)) := by
  -- a tree speaks of words of its program only, and these are kept apart
  have distinct : Set.InjOn image {name | name ∈ root.variables} :=
    injective.mono (secondWord_of_mem_variables accepted)
  constructor
  · have valid : Renames image (Source.statements program) := fun text listed statement denotes name named =>
      names name (denotes.secondWord listed named)
    exact compile_rename accepted valid
  · intro store within limit run renamed
    have same : renamed = run.rename image := execute_rename distinct (fun _ mem => mem) within limit
    have known : (Machine.start store root).Knows root.variables :=
      ⟨fun label mem name here => List.mem_flatMap.2 ⟨label, mem, here⟩, within⟩
    rw [same]
    refine ⟨?_, rfl, run.machine.tree_rename image, rfl, ?_⟩
    · simp [Run.rename, Event.rename, Event.line, Event.looping, Function.comp_def]
    · rintro stored (rfl | ⟨event, mem, rfl⟩)
      · exact Store.toList_rename distinct ((Machine.path_run _ limit).knows known).store
      · rcases Machine.exists_path_of_mem_run mem with ⟨earlier, middle, path, here⟩
        rw [← here]
        exact Store.toList_rename distinct (path.knows known).store

/-- Two variables change their names, and the one whose name is the empty word, which is missed in the end, gets a
sign for a name. -/
theorem compile_execute_rename_swap :
    let program := "clear x;clear y;;while x not +2 do;incr x;decr y;end;incr "
    let image (word : String) := if word = "x" then "y" else if word = "y" then "x" else "+"
    Source.rename image program = "clear y;clear x;;while y not +2 do;incr y;decr x;end;incr +" ∧
      ∃ root, compile .strict program = .ok root ∧
        (∀ mode, compile mode (Source.rename image program) = .ok (root.rename image)) ∧
          (execute 10 .empty root).store.toList = [("x", 2), ("y", -2)] ∧
            (execute 10 .empty (root.rename image)).store.toList = [("x", -2), ("y", 2)] ∧
              (execute 10 .empty root).outcome = .failed (.undefinedVariable "") ∧
                (execute 10 .empty (root.rename image)).outcome = .failed (.undefinedVariable "+") := by
  intro program image
  let texts := ["clear x", "clear y", "", "while x not +2 do", "incr x", "decr y", "end", "incr "]
  have accepted : compile .strict "clear x;clear y;;while x not +2 do;incr x;decr y;end;incr " = .ok (Node.root
      [.operation 1 (.clear "x"), .operation 2 (.clear "y"),
       .loop 4 (.compare .notEqual (.var "x") (.literal 2))
         [.operation 5 (.increment "x"), .operation 6 (.decrement "y")],
       .operation 8 (.increment "")]) := rfl
  have statements : Source.statements program = texts := by decide
  have second : ∀ text ∈ texts, ∀ word ∈ (Text.pieces ' ' text)[1]?, word ∈ ["x", "y", ""] := by decide
  have listed : ∀ word, Source.SecondWord program namingWords word → word ∈ ["x", "y", ""] := by
    rintro word ⟨text, mem, _, keyword, _, rest, words⟩
    rw [statements] at mem
    exact second text mem word (by rw [words]; rfl)
  have injective : Set.InjOn image {word | Source.SecondWord program namingWords word} := by
    have distinct : ∀ a ∈ ["x", "y", ""], ∀ b ∈ ["x", "y", ""], image a = image b → a = b := by decide
    exact fun a here b there same => distinct a (listed a here) b (listed b there) same
  have names : ∀ word, Source.SecondWord program namingWords word → IsSourceName (image word) := by
    have valid : ∀ word ∈ ["x", "y", ""], ' ' ∉ (image word).toList ∧ image word ∉ reservedWords ∧
        Numeral.read? (image word) = none ∧ ';' ∉ (image word).toList := by decide
    intro word here
    obtain ⟨spaceless, notReserved, notNumeral, unbroken⟩ := valid word (listed word here)
    exact ⟨⟨spaceless, notReserved, notNumeral⟩, unbroken⟩
  have renamed := compile_execute_rename accepted injective names
  have run := renamed.2 .empty (fun _ mem => absurd mem List.not_mem_nil) 10
  refine ⟨by decide, _, accepted, renamed.1, rfl, (congrArg Store.toList run.2.2.2.1).trans ?_, rfl, run.2.1⟩
  decide +kernel

end CounterLang
