import CounterLang.Proofs.Compilation.OpenSpans
import CounterLang.Proofs.Run.Transport

/-!
# Blanks — empty statements

An empty statement says nothing, but it counts as a line.  A program without its empty statements has the same
errors and the same tree, on other lines: each statement's line is its place among the statements that are left.
So the two programs run alike, and their events differ in nothing but the lines.

- `Source.condensed`        : a program without its empty statements
- `Source.restoring`        : from the lines of the condensed program to those of the program
- `Source.Places`           : a change of lines that leads to the same statements
- `Source.places_condensed` : this is such a change
- `scan_filter`             : empty statements are not noticed
- `scan_relabel`            : statements on other lines are scanned alike
- `assemble_relabel`        : and make up the same forest
- `compile_condensed`       : a program and its runs, told from the condensed one
-/

namespace CounterLang

/-! ## Other lines -/

namespace Relabelling

variable (change : Relabelling)

def reached (reached : Reached) : Reached :=
  ⟨change.line reached.line, reached.statement⟩

def ending : Ending → Ending
  | .exhausted opened => .exhausted (opened.map change.line)
  | .unreadable line text => .unreadable (change.line line) text
  | .strayEnd line => .strayEnd (change.line line)

def error : CompileError → CompileError
  | .syntaxError line statement => .syntaxError (change.line line) statement
  | .unterminatedBlock line => .unterminatedBlock (change.line line)
  | .unexpectedEnd line => .unexpectedEnd (change.line line)

end Relabelling

section
variable {change : Relabelling}

theorem openAfter?_relabel (line : Nat) (opened : List Nat) (statement : Statement) :
    statement.openAfter? (change.line line) (opened.map change.line) =
      (statement.openAfter? line opened).map (List.map change.line) := by
  cases statement with
  | operation op => rfl
  | opening condition => rfl
  | closing => cases opened <;> rfl

/-- Statements on other lines are scanned alike. -/
theorem scan_relabel (opened : List Nat) (entries : List (Nat × String)) :
    scan (opened.map change.line) (entries.map (Prod.map change.line id)) =
      ⟨(scan opened entries).reached.map change.reached, change.ending (scan opened entries).ending⟩ := by
  induction entries generalizing opened with
  | nil => rfl
  | cons entry entries ih =>
      rcases entry with ⟨line, text⟩
      by_cases blank : text = ""
      · subst blank
        exact ih opened
      · cases read : Statement.parse? text with
        | none => simp [scan, blank, read, Relabelling.ending]
        | some statement =>
            have opens := @openAfter?_relabel change line opened statement
            cases after : statement.openAfter? line opened with
            | none =>
                rw [after] at opens
                simp [scan, blank, read, after, opens, Relabelling.ending, Relabelling.reached]
            | some opened' =>
                rw [after] at opens
                simp [scan, blank, read, after, opens, ih, Relabelling.reached]

/-- Statements on other lines make up the same forest. -/
theorem assemble_relabel (plain : ∀ condition, change.condition condition = condition) (before : List Node)
    (frames : List Frame) (reached : List Reached) :
    assemble (before.map change.node) (frames.map change.frame) (reached.map change.reached) =
      (assemble before frames reached).map change.node := by
  induction reached generalizing before frames with
  | nil =>
      rw [List.map_nil, assemble, assemble, ← List.map_reverse, Relabelling.plug_frame]
  | cons first rest ih =>
      rcases first with ⟨line, statement⟩
      cases statement with
      | operation op =>
          have next := ih (.operation line op :: before) frames
          simpa [assemble, Relabelling.reached] using next
      | opening condition =>
          have next := ih [] (⟨before, line, condition, []⟩ :: frames)
          simpa [assemble, Relabelling.reached, Relabelling.frame, plain] using next
      | closing =>
          cases frames with
          | nil => simp [assemble, Relabelling.reached]
          | cons frame frames =>
              have next := ih (frame.fill before.reverse :: frame.before) frames
              rw [List.map_cons, ← Relabelling.fill_frame, List.map_reverse] at next
              exact next

/-- What comes of a compilation on other lines. -/
theorem outcome_relabel (mode : Mode) (nodes : List Node) (ending : Ending) :
    outcome mode (nodes.map change.node) (change.ending ending) =
      match outcome mode nodes ending with
      | .error error => .error (change.error error)
      | .ok root => .ok (Node.root (root.children.map change.node)) := by
  cases ending with
  | unreadable line text => rfl
  | strayEnd line => cases mode <;> rfl
  | exhausted opened => cases mode <;> cases opened <;> rfl

end

/-! ## Statements that are not empty -/

/-- Empty statements are not noticed. -/
theorem scan_filter (opened : List Nat) (entries : List (Nat × String)) :
    scan opened (entries.filter (·.2 ≠ "")) = scan opened entries := by
  induction entries generalizing opened with
  | nil => rfl
  | cons entry entries ih =>
      rcases entry with ⟨line, text⟩
      by_cases blank : text = ""
      · simpa [scan, blank] using ih opened
      · simp only [ne_eq, decide_not] at ih
        simp [scan, blank, ih]

namespace Source

/-- The statements that are not empty. -/
def filled (statements : List String) : List String :=
  statements.filter (· ≠ "")

/-- A program without its empty statements. -/
def condensed (program : String) : String :=
  ";".intercalate (filled (statements program))

/-- The statements that are not empty, with their lines. -/
def entries (statements : List String) : List (Nat × String) :=
  (numbered statements).filter (·.2 ≠ "")

/-- From the lines of statements without empty ones to their lines in the program.  Line 0 is that of the root. -/
def restoring (statements : List String) : Relabelling where
  line := fun line => (0 :: (entries statements).map Prod.fst)[line]?.getD line

/-- A change of lines leads from some statements to those among others that are not empty, in order. -/
structure Places (few all : List String) (line : Nat → Nat) : Prop where
  root : line 0 = 0
  increasing : ∀ {earlier later : Nat}, earlier < later → later ≤ few.length → line earlier < line later
  same : ∀ {position : Nat} {text : String}, few[position]? = some text →
    ∃ place, line (position + 1) = place + 1 ∧ all[place]? = some text
  onto : ∀ {place : Nat} {text : String}, all[place]? = some text → text ≠ "" →
    ∃ position, few[position]? = some text ∧ line (position + 1) = place + 1

section
variable {statements : List String} {place line : Nat} {text : String}

theorem mem_numbered_iff :
    (line, text) ∈ numbered statements ↔ ∃ place, line = place + 1 ∧ statements[place]? = some text := by
  constructor
  · intro mem
    obtain ⟨⟨text', line'⟩, listed, swapped⟩ := List.mem_map.1 mem
    obtain ⟨rfl, rfl⟩ : line' = line ∧ text' = text := by simpa using swapped
    obtain ⟨first, found⟩ := List.mk_mem_zipIdx_iff_le_and_getElem?_sub.1 listed
    exact ⟨line' - 1, by omega, found⟩
  · rintro ⟨place, rfl, found⟩
    refine List.mem_map.2 ⟨(text, place + 1), ?_, rfl⟩
    exact List.mk_mem_zipIdx_iff_le_and_getElem?_sub.2 ⟨by omega, found⟩

theorem map_snd_numbered (statements : List String) : (numbered statements).map Prod.snd = statements := by
  simp [numbered, Function.comp_def, List.zipIdx_map_fst]

theorem map_fst_numbered (statements : List String) :
    (numbered statements).map Prod.fst = List.range' 1 statements.length := by
  simp [numbered, Function.comp_def, List.zipIdx_map_snd]

theorem filled_eq (statements : List String) : filled statements = (entries statements).map Prod.snd := by
  have cut := List.filter_map (f := Prod.snd) (p := (· ≠ "")) (l := numbered statements)
  rw [map_snd_numbered] at cut
  exact cut

theorem mem_entries_iff :
    (line, text) ∈ entries statements ↔ text ≠ "" ∧ ∃ place, line = place + 1 ∧ statements[place]? = some text := by
  rw [entries, List.mem_filter, mem_numbered_iff]
  simp [and_comm]

/-- Each statement that is not empty is restored to its own line. -/
theorem filled_of_entry {position : Nat} (found : (entries statements)[position]? = some (line, text)) :
    (filled statements)[position]? = some text ∧ (restoring statements).line (position + 1) = line := by
  rw [filled_eq]
  simp [restoring, found]

/-- The statements without empty ones, on the lines to which they are restored. -/
theorem numbered_filled (statements : List String) :
    (numbered (filled statements)).map (Prod.map (restoring statements).line id) = entries statements := by
  refine List.ext_getElem? fun position => ?_
  cases found : (entries statements)[position]? with
  | none =>
      have beyond := List.getElem?_eq_none_iff.1 found
      simp [numbered, filled_eq, beyond]
  | some entry =>
      rcases entry with ⟨line, text⟩
      obtain ⟨same, restored⟩ := filled_of_entry found
      simp [numbered, same, Nat.add_comm 1, restored]

/-- The lines of the statements that are not empty increase, and they are not line 0. -/
theorem pairwise_lines (statements : List String) : (0 :: (entries statements).map Prod.fst).Pairwise (· < ·) := by
  have lines : ((entries statements).map Prod.fst).Sublist (List.range' 1 statements.length) := by
    rw [← map_fst_numbered]
    exact List.filter_sublist.map Prod.fst
  refine List.pairwise_cons.2 ⟨?_, List.Pairwise.sublist lines List.pairwise_lt_range'⟩
  intro line mem
  have bounds := List.mem_range'_1.1 (lines.subset mem)
  omega

/-- Lines are restored to those of the same statements. -/
theorem places_restoring (statements : List String) :
    Places (filled statements) statements (restoring statements).line := by
  constructor
  case root => rfl
  case increasing =>
    intro earlier later before bound
    have inside : later < (0 :: (entries statements).map Prod.fst).length := by
      rw [filled_eq, List.length_map] at bound
      simpa using Nat.lt_succ_of_le bound
    have increases := List.pairwise_iff_getElem.1 (pairwise_lines statements) earlier later
      (Nat.lt_trans before inside) inside before
    simpa only [restoring, List.getElem?_eq_getElem inside, List.getElem?_eq_getElem (Nat.lt_trans before inside),
      Option.getD_some] using increases
  case same =>
    intro position text found
    rw [filled_eq, List.getElem?_map, Option.map_eq_some_iff] at found
    obtain ⟨⟨line, text'⟩, listed, rfl⟩ := found
    obtain ⟨_, place, rfl, there⟩ := mem_entries_iff.1 (List.mem_of_getElem? listed)
    exact ⟨place, (filled_of_entry listed).2, there⟩
  case onto =>
    intro place text there nonempty
    have mem : (place + 1, text) ∈ entries statements := mem_entries_iff.2 ⟨nonempty, place, rfl, there⟩
    obtain ⟨position, listed⟩ := List.getElem?_of_mem mem
    exact ⟨position, filled_of_entry listed⟩

end

/-! ## Programs without their empty statements -/

theorem statements_condensed {program : String} (nonempty : filled (statements program) ≠ []) :
    statements (condensed program) = filled (statements program) := by
  refine Text.pieces_intercalate nonempty fun text mem => ?_
  exact Text.notMem_of_mem_pieces (List.mem_filter.1 mem).1

/-- Of a program of empty statements, one of them is left. -/
theorem statements_condensed_blank {program : String} (empty : filled (statements program) = []) :
    statements (condensed program) = [""] := by
  rw [condensed, empty]
  decide

/-- The lines of a program without its empty statements are restored to those of the same statements. -/
theorem places_condensed (program : String) :
    Places (statements (condensed program)) (statements program) (restoring (statements program)).line := by
  by_cases empty : filled (statements program) = []
  · have blank : ∀ text ∈ statements program, text = "" := by simpa [filled] using empty
    have lines : entries (statements program) = [] := by simpa [filled_eq] using empty
    rw [statements_condensed_blank empty]
    constructor
    case root => rfl
    case increasing =>
      intro earlier later before bound
      have first : earlier = 0 ∧ later = 1 := by
        simp only [List.length_cons, List.length_nil] at bound
        omega
      simp [restoring, lines, first]
    case same =>
      intro position text found
      obtain ⟨rfl, rfl⟩ : position = 0 ∧ "" = text := by simpa [List.getElem?_singleton] using found
      obtain ⟨first, rest, split⟩ := List.exists_cons_of_ne_nil (Text.pieces_ne_nil ';' program)
      have head : first = "" := blank first (by simp [statements, split])
      exact ⟨0, by simp [restoring, lines], by simp [statements, split, head]⟩
    case onto =>
      intro place text there nonempty
      exact absurd (blank text (List.mem_of_getElem? there)) nonempty
  · rw [statements_condensed empty]
    exact places_restoring (statements program)

end Source

/-- Statements are compiled as those of them that are not empty, on their own lines. -/
theorem compileStatements_filled (mode : Mode) (statements : List String) :
    compileStatements mode statements =
      match compileStatements mode (Source.filled statements) with
      | .error error => .error ((Source.restoring statements).error error)
      | .ok root => .ok (Node.root (root.children.map (Source.restoring statements).node)) := by
  have scanned : scanFrom statements [] 0 =
      ⟨(scanFrom (Source.filled statements) [] 0).reached.map (Source.restoring statements).reached,
        (Source.restoring statements).ending (scanFrom (Source.filled statements) [] 0).ending⟩ := by
    calc
      scanFrom statements [] 0 = scan [] (Source.entries statements) := (scan_filter [] _).symm
      _ = scan [] ((Source.numbered (Source.filled statements)).map
            (Prod.map (Source.restoring statements).line id)) := by rw [Source.numbered_filled]
      _ = _ := scan_relabel [] _
  have assembled := @assemble_relabel (Source.restoring statements) (fun _ => rfl) [] []
    (scanFrom (Source.filled statements) [] 0).reached
  rw [List.map_nil, List.map_nil] at assembled
  rw [compileStatements_eq, compileStatements_eq, scanned, assembled, outcome_relabel]

theorem compile_condensed_eq (mode : Mode) (program : String) :
    compile mode (Source.condensed program) = compileStatements mode (Source.filled (Source.statements program)) := by
  rw [compile]
  by_cases empty : Source.filled (Source.statements program) = []
  · rw [Source.statements_condensed_blank empty, empty]
    cases mode <;> rfl
  · rw [Source.statements_condensed empty]

/-- A program without its empty statements has the same error as the program or the same tree, on lines that are
restored to those of the same statements in the program.  The two trees do the same, whatever the store they start
from; only the lines of the events have to be restored. -/
theorem compile_condensed (program : String) :
    Source.Places (Source.statements (Source.condensed program)) (Source.statements program)
        (Source.restoring (Source.statements program)).line ∧
      ∀ mode,
        let change := Source.restoring (Source.statements program)
        (∀ error, compile mode (Source.condensed program) = .error error →
          compile mode program = .error (change.error error)) ∧
        ∀ root, compile mode (Source.condensed program) = .ok root →
          ∃ there, compile mode program = .ok there ∧ there = Node.root (root.children.map change.node) ∧
            ∀ limit store,
              (execute limit store there).events = (execute limit store root).events.map change.event ∧
                (execute limit store there).outcome = (execute limit store root).outcome ∧
                (execute limit store there).store = (execute limit store root).store := by
  refine ⟨Source.places_condensed program, ?_⟩
  intro mode change
  have compiled := compileStatements_filled mode (Source.statements program)
  rw [← compile_condensed_eq] at compiled
  constructor
  · intro error failed
    rw [failed] at compiled
    exact compiled
  · intro root ok
    rw [ok] at compiled
    refine ⟨_, compiled, rfl, fun limit store => ?_⟩
    obtain ⟨nodes, rfl⟩ : ∃ nodes, root = Node.root nodes := by
      rw [compile, compileStatements_eq] at ok
      exact ⟨_, root_eq_of_outcome ok⟩
    -- the root stays on line 0
    have moved : change.machine (Machine.start store (Node.root nodes)) =
        Machine.start store (Node.root (nodes.map change.node)) := by
      simp [Relabelling.machine, Machine.start, Node.root, change, Source.restoring]
    have run := Relabelling.run_machine change (fun _ => rfl) (Machine.start store (Node.root nodes)) limit
    rw [moved] at run
    have same : execute limit store (Node.root ((Node.root nodes).children.map change.node)) =
        change.run (execute limit store (Node.root nodes)) := run
    rw [same]
    exact ⟨rfl, rfl, rfl⟩

/-- With empty statements behind the head of a loop, in front of its end and around a stray end: strict mode finds the
stray end on its own line, and in lenient mode the nodes and the events are on theirs. -/
theorem compile_condensed_strayEnd :
    let program := ";clear x;;while x not 2 do;;incr x;;;end;;end;;decr x;"
    let root := Node.root [.operation 1 (.clear "x"),
      .loop 2 (.compare .notEqual (.var "x") (.literal 2)) [.operation 3 (.increment "x")]]
    let there := Node.root [.operation 2 (.clear "x"),
      .loop 4 (.compare .notEqual (.var "x") (.literal 2)) [.operation 6 (.increment "x")]]
    Source.condensed program = "clear x;while x not 2 do;incr x;end;end;decr x" ∧
      compile .strict (Source.condensed program) = .error (.unexpectedEnd 5) ∧
      compile .strict program = .error (.unexpectedEnd 11) ∧
      compile .lenient (Source.condensed program) = .ok root ∧
      compile .lenient program = .ok there ∧
      (execute 5 .empty root).events.map Event.line = [0, 1, 2, 3, 2] ∧
      (execute 5 .empty there).events.map Event.line = [0, 2, 4, 6, 4] := by
  intro program root there
  have condensed : Source.condensed program = "clear x;while x not 2 do;incr x;end;end;decr x" := by decide +kernel
  have strict : compile .strict (Source.condensed program) = .error (.unexpectedEnd 5) := by
    rw [condensed]
    rfl
  have lenient : compile .lenient (Source.condensed program) = .ok root := by
    rw [condensed]
    rfl
  have whole := compile_condensed program
  obtain ⟨node, compiled, shape, same⟩ := (whole.2 .lenient).2 root lenient
  have places : (Source.entries (Source.statements program)).map Prod.fst = [2, 4, 6, 9, 11, 13] := by decide +kernel
  obtain rfl : node = there := by
    rw [shape]
    simp [root, there, Node.root, Node.children, Source.restoring, places]
  have lines : (execute 5 .empty root).events.map Event.line = [0, 1, 2, 3, 2] := rfl
  have stray : compile .strict program = .error (.unexpectedEnd 11) := by
    rw [(whole.2 .strict).1 _ strict]
    simp [Relabelling.error, Source.restoring, places]
  refine ⟨condensed, strict, stray, lenient, compiled, lines, ?_⟩
  have restored : (execute 5 .empty there).events.map Event.line =
      ((execute 5 .empty root).events.map Event.line).map (Source.restoring (Source.statements program)).line := by
    rw [(same 5 .empty).1, List.map_map, List.map_map]
    exact List.map_congr_left fun event _ => Relabelling.line_action _ event.action
  rw [restored, lines]
  simp [Source.restoring, places]

end CounterLang
