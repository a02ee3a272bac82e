import CounterLang.Proofs.Compilation.Rows
import CounterLang.Proofs.Run.Origin
import CounterLang.Proofs.Run.Reads

/-!
# Vocabulary — a run speaks only of what its program speaks of

A compiled program carries out no other operations and tests no other conditions than those that its statements
denote.  So its runs never come to reserved arithmetic, a variable that they miss is one that a statement counts
or tests, and a variable that they give a value to is one that a statement clears.

- `Source.SecondWord`        : the second word of a statement that begins with a given word
- `exists_position_of_compile` : each node of a compiled tree comes from the statement on its line
- `exists_text_of_compile`   : so it comes from a statement of the program
- `labels_of_line`           : a node on the line of a statement comes from that statement
- `Machine.run_failed_cases` : what a run can fail at
- `Machine.run_cleared`      : which variables come to have a value
- `execute_vocabulary`       : all of this, told from the words of a program
-/

namespace CounterLang

open Statement (Denotes)

/-! ## Words of a program -/

/-- A word stands second in a statement of a program, behind one of some keywords. -/
def Source.SecondWord (program : String) (keywords : List String) (word : String) : Prop :=
  ∃ text ∈ statements program, (Statement.parse? text).isSome ∧
    ∃ keyword ∈ keywords, ∃ rest, Text.pieces ' ' text = keyword :: word :: rest

/-- The variables whose values are needed at a node. -/
def Label.reads : Label → List String
  | operation _ op => op.reads
  | loop _ condition => condition.reads

theorem Node.reads_eq (node : Node) : node.reads = node.label.reads := by
  cases node <;> rfl

theorem Label.Fired.reads {earlier later : Label} (h : earlier.Fired later) : later.reads = earlier.reads := by
  cases h with
  | operation => rfl
  | loop condition =>
      cases condition with
      | refl => rfl
      | fire => rfl

section
variable {text name : String} {line : Nat} {label : Label}

/-- A statement that a node comes from is one that can be read. -/
theorem Labels.isSome_parse? (h : Labels line text label) : (Statement.parse? text).isSome := by
  cases h with
  | operation denotes => simp [Statement.parse?_eq_some_iff.2 denotes]
  | loop denotes => simp [Statement.parse?_eq_some_iff.2 denotes]

/-- No statement denotes reserved arithmetic. -/
theorem Labels.ne_arithmetic (h : Labels line text label) (line' : Nat) (kind : Arithmetic) (target : String)
    (operand : Operand) : label ≠ .operation line' (.arithmetic kind target operand) := by
  rintro rfl
  cases h with
  | operation denotes => cases denotes

/-- What is cleared stands behind the word for clearing. -/
theorem Labels.words_clear {line' : Nat} (h : Labels line text (.operation line' (.clear name))) :
    ∃ rest, Text.pieces ' ' text = "clear" :: name :: rest := by
  cases h with
  | operation denotes =>
      have inWords := denotes.inWords
      generalize Text.pieces ' ' text = words at inWords
      cases inWords with
      | clear _ => exact ⟨_, rfl⟩

/-- What is read stands behind one of the words for counting and for loops. -/
theorem Labels.words_reads (h : Labels line text label) (read : name ∈ label.reads) :
    ∃ keyword ∈ ["incr", "decr", "while"], ∃ rest, Text.pieces ' ' text = keyword :: name :: rest := by
  cases h with
  | operation denotes =>
      have inWords := denotes.inWords
      generalize Text.pieces ' ' text = words at inWords
      cases inWords with
      | clear _ => cases read
      | increment _ =>
          obtain rfl := List.mem_singleton.1 read
          exact ⟨_, by simp, _, rfl⟩
      | decrement _ =>
          obtain rfl := List.mem_singleton.1 read
          exact ⟨_, by simp, _, rfl⟩
  | loop denotes =>
      have inWords := denotes.inWords
      generalize Text.pieces ' ' text = words at inWords
      cases inWords with
      | opening _ _ =>
          -- the number that the variable is compared with is no variable
          obtain rfl := List.mem_singleton.1 read
          exact ⟨_, by simp, _, rfl⟩

end

/-- Each node of a compiled tree is the root, or comes from the statement on its line. -/
theorem exists_position_of_compile {mode : Mode} {program : String} {root : Node}
    (h : compile mode program = .ok root) :
    ∀ label ∈ Node.labels [root], label = .loop 0 (.once false) ∨
      ∃ position text, (Source.statements program)[position]? = some text ∧ Labels (position + 1) text label := by
  unfold compile at h
  generalize Source.statements program = statements at h ⊢
  rcases compileStatements_cases statements with ⟨frames, before, stop, ending, path, _, _, result⟩
  obtain rfl := root_eq_of_outcome ((result mode).symm.trans h)
  have nothing : List.Forall₂ (Describes statements) [] (Node.preorderAll (frames.length + 1) []) := .nil
  have described := path.describes nothing
  rw [List.append_nil, List.append_nil] at described
  -- a row needs no more than the position of its own statement
  have rows : List.Forall₂ (fun row (_ : Nat) => (∃ position text, statements[position]? = some text ∧
      Labels (position + 1) text row.2) ∧ True) (Node.preorderAll 1 (plug before.reverse frames)) _ :=
    described.flip.imp fun row position here => ⟨⟨position, here.label⟩, trivial⟩
  intro label mem
  rw [Node.root, labels_loop] at mem
  rcases List.mem_cons.1 mem with first | mem
  · exact .inl first
  · rw [show Node.labels [] = [] from rfl, List.append_nil, Node.labels, map_snd_preorderAll 0 1] at mem
    rcases List.mem_map.1 mem with ⟨row, listed, rfl⟩
    exact .inr (((List.forall₂_and_left _ _).1 rows).1 row listed)

/-- Each node of a compiled tree is the root, or comes from a statement of the program. -/
theorem exists_text_of_compile {mode : Mode} {program : String} {root : Node} (h : compile mode program = .ok root) :
    ∀ label ∈ Node.labels [root], label = .loop 0 (.once false) ∨
      ∃ text ∈ Source.statements program, ∃ line, Labels line text label := by
  intro label mem
  rcases exists_position_of_compile h label mem with first | ⟨position, text, found, labelled⟩
  · exact .inl first
  · exact .inr ⟨text, List.mem_of_getElem? found, position + 1, labelled⟩

/-! ## Lines -/

def Label.line : Label → Nat
  | operation line _ | loop line _ => line

theorem Label.Fired.line {earlier later : Label} (h : earlier.Fired later) : later.line = earlier.line := by
  cases h <;> rfl

theorem Labels.line {number : Nat} {text : String} {label : Label} (h : Labels number text label) :
    label.line = number := by
  cases h <;> rfl

/-- A step happens on the line of its node. -/
theorem Point.Moves.line {store : Store} {point : Point} {action : Action} {next : Machine}
    (h : point.Moves store action next) : action.line = point.node.label.line := by
  cases h <;> rfl

/-- No line of a compiled tree belongs to two statements: a node on the line of a statement comes from it. -/
theorem labels_of_line {mode : Mode} {program text : String} {root : Node} {label : Label} {position : Nat}
    (h : compile mode program = .ok root) (mem : label ∈ Node.labels [root])
    (found : (Source.statements program)[position]? = some text) (line : label.line = position + 1) :
    Labels (position + 1) text label := by
  rcases exists_position_of_compile h label mem with rfl | ⟨other, text', found', labelled⟩
  · cases line
  · rw [labelled.line] at line
    obtain rfl := Nat.succ.inj line
    rw [found] at found'
    obtain rfl := Option.some.inj found'
    exact labelled

/-! ## What runs fail at, and what they give values to -/

/-- A variable that has a value behind an operation had one before, or has just been cleared. -/
theorem Operation.isSome_of_apply {op : Operation} {store changed : Store} {name : String}
    (result : op.apply store = .ok changed) (present : (changed.get? name).isSome) :
    (store.get? name).isSome ∨ op = .clear name := by
  rcases Operation.apply_cases result with ⟨target, rfl, rfl⟩ | ⟨target, value, rfl, found, rfl⟩ |
    ⟨target, value, rfl, found, rfl⟩
  all_goals
    by_cases same : name = target
    · subst same
      simp_all
    · rw [Store.get?_set, if_neg same] at present
      exact .inl present

namespace Machine

variable {machine last : Machine} {events : List Event} {name : String}

/-- A run fails at a node of its forest: at one that reads a variable without a value, or at reserved arithmetic. -/
theorem run_failed_cases {limit : Nat} {error : RuntimeError} (h : (machine.run limit).outcome = .failed error) :
    (∃ label ∈ Node.labels machine.forest, ∃ name ∈ label.reads, error = .undefinedVariable name) ∨
      ∃ line kind target operand,
        .operation line (.arithmetic kind target operand) ∈ Node.labels machine.forest ∧
          error = .notImplemented kind := by
  rcases step_eq_failed_iff.1 (step_of_run_failed h) with ⟨point, faced, fails⟩
  rcases exists_origin (machine.path_run limit).fired faced with ⟨origin, found, fired⟩
  rcases fails.cases with ⟨name, read, _, same⟩ | ⟨line, kind, target, operand, node, same⟩
  · rw [Node.reads_eq, fired.reads] at read
    exact .inl ⟨origin, found, name, read, same⟩
  · rw [node] at fired
    cases fired with
    | operation => exact .inr ⟨line, kind, target, operand, found, same⟩

/-- A variable that comes to have a value on a path is cleared somewhere in the forest. -/
theorem Path.cleared (h : Path machine events last) (present : (last.store.get? name).isSome) :
    (machine.store.get? name).isSome ∨ ∃ line, .operation line (.clear name) ∈ Node.labels machine.forest := by
  induction h with
  | refl => exact .inl present
  | @step machine next last action events step _ ih =>
      rcases ih present with there | ⟨line, found⟩
      · rcases step_eq_next_iff.1 step with ⟨point, faced, moves⟩
        rcases exists_origin (.refl _) faced with ⟨origin, found, fired⟩
        cases moves with
        | applied result =>
            rcases Operation.isSome_of_apply result there with before | rfl
            · exact .inl before
            · cases fired with
              | operation => exact .inr ⟨_, found⟩
        | entered _ => exact .inl there
        | left _ => exact .inl there
      · -- what the next machine stands in has been there before the step
        rcases (fired_of_step step).exists_label found with ⟨origin, earlier, fired⟩
        cases fired with
        | operation => exact .inr ⟨line, earlier⟩

/-- So is a variable that comes to have a value in a run, at some event or in the end. -/
theorem run_cleared {limit : Nat} (absent : machine.store.get? name = none)
    (present : (∃ event ∈ (machine.run limit).events, (event.store.get? name).isSome) ∨
      ((machine.run limit).store.get? name).isSome) :
    ∃ line, .operation line (.clear name) ∈ Node.labels machine.forest := by
  have reached : ∃ events last, Path machine events last ∧ (last.store.get? name).isSome := by
    rcases present with ⟨event, mem, there⟩ | there
    · rcases exists_path_of_mem_run mem with ⟨earlier, middle, path, same⟩
      exact ⟨earlier, middle, path, by rwa [same]⟩
    · exact ⟨_, _, machine.path_run limit, there⟩
  rcases reached with ⟨events, last, path, there⟩
  rcases path.cleared there with before | cleared
  · simp [absent] at before
  · exact cleared

end Machine

/-! ## Programs -/

/-- However long a compiled program runs, and from whatever store: it never comes to reserved arithmetic; a variable
that it misses is the second word of a statement that counts it or tests it; and a variable that has a value at some
event or in the end, but had none at the start, is the second word of a statement that clears it. -/
theorem execute_vocabulary {mode : Mode} {program : String} {root : Node} (h : compile mode program = .ok root)
    (store : Store) (limit : Nat) :
    (∀ kind, (execute limit store root).outcome ≠ .failed (.notImplemented kind)) ∧
      (∀ name, (execute limit store root).outcome = .failed (.undefinedVariable name) →
        Source.SecondWord program ["incr", "decr", "while"] name) ∧
      ∀ name, store.get? name = none →
        ((∃ event ∈ (execute limit store root).events, (event.store.get? name).isSome) ∨
          ((execute limit store root).store.get? name).isSome) →
        Source.SecondWord program ["clear"] name := by
  have texts := exists_text_of_compile h
  refine ⟨?_, ?_, ?_⟩
  · intro kind fails
    rcases Machine.run_failed_cases fails with ⟨_, _, _, _, other⟩ | ⟨line, _, target, operand, mem, _⟩
    · cases other
    · rcases texts _ mem with other | ⟨text, _, _, labelled⟩
      · cases other
      · exact labelled.ne_arithmetic _ _ _ _ rfl
  · intro name fails
    rcases Machine.run_failed_cases fails with ⟨label, mem, _, read, same⟩ | ⟨_, _, _, _, _, other⟩
    · obtain rfl := RuntimeError.undefinedVariable.inj same
      rcases texts label mem with rfl | ⟨text, listed, _, labelled⟩
      · cases read
      · exact ⟨text, listed, labelled.isSome_parse?, labelled.words_reads read⟩
    · cases other
  · intro name absent present
    rcases Machine.run_cleared absent present with ⟨line, mem⟩
    rcases texts _ mem with other | ⟨text, listed, _, labelled⟩
    · cases other
    · rcases labelled.words_clear with ⟨rest, words⟩
      exact ⟨text, listed, labelled.isSome_parse?, "clear", by simp, rest, words⟩

/-- A program that misses a variable in its loop; behind a stray end it speaks of variables that no run comes to. -/
theorem execute_vocabulary_strayEnd :
    ∃ root, compile .lenient "clear x;while x not +2 do;incr x;decr y;end;end;clear z z" = .ok root ∧
      (∀ limit kind, (execute limit .empty root).outcome ≠ .failed (.notImplemented kind)) ∧
        (execute 9 .empty root).outcome = .failed (.undefinedVariable "y") ∧
          Source.SecondWord "clear x;while x not +2 do;incr x;decr y;end;end;clear z z" ["incr", "decr", "while"] "y" ∧
            ((execute 9 .empty root).store.get? "x").isSome ∧
              Source.SecondWord "clear x;while x not +2 do;incr x;decr y;end;end;clear z z" ["clear"] "x" := by
  let root := Node.root [.operation 1 (.clear "x"),
    .loop 2 (.compare .notEqual (.var "x") (.literal 2)) [.operation 3 (.increment "x"), .operation 4 (.decrement "y")]]
  have compiled : compile .lenient "clear x;while x not +2 do;incr x;decr y;end;end;clear z z" = .ok root := rfl
  have fails : (execute 9 .empty root).outcome = .failed (.undefinedVariable "y") := rfl
  have present : ((execute 9 .empty root).store.get? "x").isSome := rfl
  refine ⟨root, compiled, fun limit => (execute_vocabulary compiled .empty limit).1, fails, ?_, present, ?_⟩
  · exact (execute_vocabulary compiled .empty 9).2.1 "y" fails
  · exact (execute_vocabulary compiled .empty 9).2.2 "x" rfl (.inr present)

end CounterLang
