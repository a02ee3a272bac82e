import CounterLang.Proofs.Compilation.Finds
import Mathlib.Data.List.Forall2

/-!
# Records — what the log of a compilation tells of the program

The log has one record for each statement that is read, in the order of the statements.  How many statements are
read, and which warnings follow in lenient mode, is told from the program alone: reading ends in front of the first
statement that cannot be read, behind the first end outside of any loop, or at the end of the program.

- `compilationRecords`        : the records of a compilation
- `Source.filledPositions`    : where the statements stand that are not empty
- `Reports`                   : a record that tells of the statement at a position
- `Reach`                     : how many statements are read, and which warnings are due
- `Reach.unique`              : reading ends in one place only
- `filled_scanFrom`           : a scan reaches each statement that it reads
- `OpenSpans.exists_heads`    : the loops around a position are those that no end in front of it belongs to
- `descendProgram?`           : a compilation that reads blocks one inside the other, and reports on the way
- `descendProgram?_eq`        : it comes to the same, with the same reports
- `Emits`                     : the records that such a compilation emits
- `compilation_records`       : the log of a compilation mirrors what is read
-/

namespace CounterLang

open Statement (Denotes)
open Source

/-! ## Records -/

/-- The records of a compilation, in the order in which they are logged. -/
def compilationRecords (mode : Mode) (program : String) : List Log.Record :=
  (compilationNotices mode program).map Scan.Notice.record

/-- The positions from one up to, but without, another whose statements are not empty. -/
def Source.filledPositions (statements : List String) (start stop : Nat) : List Nat :=
  (List.range' start (stop - start)).filter fun position => statements[position]? ≠ some ""

/-- A record that tells of the statement at a position, on the line of that statement. -/
inductive Reports (statements : List String) (position : Nat) : Log.Record → Prop where
  | operation {text : String} {op : Operation} :
      statements[position]? = some text → Denotes text (.operation op) →
        Reports statements position
          ⟨.debug, "operation",
            [("line", toString (position + 1)), ("kind", op.keyword), ("target", op.target)]⟩
  | opening {text : String} {condition : Condition} :
      statements[position]? = some text → Denotes text (.opening condition) →
        Reports statements position
          ⟨.debug, "block opened",
            [("line", toString (position + 1)), ("condition", condition.outline.inline)]⟩
  | closing :
      statements[position]? = some "end" →
        Reports statements position ⟨.debug, "block closed", [("line", toString (position + 1))]⟩

/-- The warning about an end that stands outside of any loop. -/
def strayEndRecord (line : Nat) : Log.Record :=
  ⟨.warn, "'end' outside of any block, ignoring the rest of the program", [("line", toString line)]⟩

/-- The warning about a loop that no end belongs to. -/
def neverClosedRecord (line : Nat) : Log.Record :=
  ⟨.warn, "block is never closed with 'end', closing at end of input", [("line", toString line)]⟩

/-- How many statements are read, and which warnings are due when reading has ended. -/
inductive Reach (statements : List String) : Nat → List Log.Record → Prop where
  /-- Reading ends in front of the first statement that cannot be read. -/
  | unreadable {position : Nat} {text : String} :
      Passable statements position → Unreadable statements position text → Reach statements position []
  /-- Reading ends behind the first end that stands outside of any loop. -/
  | strayEnd {position : Nat} :
      Passable statements position → statements[position]? = some "end" → depth statements position = 0 →
        Reach statements (position + 1) [strayEndRecord (position + 1)]
  /-- All statements are read; the loops that are left open are warned of, the last one first. -/
  | exhausted {heads : List Nat} :
      Passable statements statements.length → heads.Pairwise (· > ·) →
        (∀ position, position ∈ heads ↔ Unclosed statements position) →
          Reach statements statements.length (heads.map fun head => neverClosedRecord (head + 1))

section
variable {statements : List String} {start stop position count countThere : Nat} {text : String}
  {warnings warningsThere : List Log.Record}

theorem Reports.level {record : Log.Record} (h : Reports statements position record) : record.level = .debug := by
  cases h <;> rfl

theorem Reports.levels {positions : List Nat} {records : List Log.Record}
    (h : List.Forall₂ (Reports statements) positions records) : ∀ record ∈ records, record.level = .debug :=
  ((List.forall₂_and_left _ _).1 (h.flip.imp fun _ _ reports => ⟨Reports.level reports, reports⟩)).1

/-! ## Reading ends in one place -/

/-- Lists that descend are told from their members. -/
theorem eq_of_descending {as bs : List Nat} (ha : as.Pairwise (· > ·)) (hb : bs.Pairwise (· > ·))
    (same : ∀ n, n ∈ as ↔ n ∈ bs) : as = bs := by
  have perm : as.Perm bs := (List.perm_ext_iff_of_nodup (ha.imp Nat.ne_of_gt) (hb.imp Nat.ne_of_gt)).2 same
  exact perm.eq_of_pairwise (fun _ _ _ _ above below => absurd above (Nat.lt_asymm below)) ha hb

namespace Reach

/-- What is due follows from the first statement that cannot be passed, if there is one. -/
theorem unique (h : Reach statements count warnings) (h' : Reach statements countThere warningsThere) :
    count = countThere ∧ warnings = warningsThere := by
  cases h with
  | unreadable passable unreadable =>
      have blocked : Blocked statements count := .inl ⟨_, unreadable⟩
      cases h' with
      | unreadable passable' unreadable' =>
          exact ⟨passable.eq_of_blocked blocked passable' (.inl ⟨_, unreadable'⟩), rfl⟩
      | strayEnd passable' found level =>
          have same := passable.eq_of_blocked blocked passable' (.inr ⟨found, level⟩)
          subst same
          exact absurd found unreadable.ne_end
      | exhausted whole _ _ => exact (whole.not_blocked blocked).elim
  | @strayEnd position passable found level =>
      have blocked : Blocked statements position := .inr ⟨found, level⟩
      cases h' with
      | unreadable passable' unreadable' =>
          have same := passable.eq_of_blocked blocked passable' (.inl ⟨_, unreadable'⟩)
          subst same
          exact absurd found unreadable'.ne_end
      | strayEnd passable' found' level' =>
          obtain rfl := passable.eq_of_blocked blocked passable' (.inr ⟨found', level'⟩)
          exact ⟨rfl, rfl⟩
      | exhausted whole _ _ => exact (whole.not_blocked blocked).elim
  | exhausted whole descends listed =>
      cases h' with
      | unreadable _ unreadable' => exact (whole.not_blocked (.inl ⟨_, unreadable'⟩)).elim
      | strayEnd _ found level => exact (whole.not_blocked (.inr ⟨found, level⟩)).elim
      | exhausted _ descends' listed' =>
          rw [eq_of_descending descends descends' fun position => (listed position).trans (listed' position).symm]
          exact ⟨rfl, rfl⟩

theorem level (h : Reach statements count warnings) : ∀ record ∈ warnings, record.level = .warn := by
  cases h with
  | unreadable _ _ => simp
  | strayEnd _ _ _ => simp [strayEndRecord]
  | exhausted _ _ _ => simp [neverClosedRecord]

/-- A program is warned of for one reason only. -/
theorem neverClosed_notMem (h : Reach statements count warnings) {line lineThere : Nat}
    (stray : strayEndRecord line ∈ warnings) : neverClosedRecord lineThere ∉ warnings := by
  cases h with
  | unreadable _ _ => simp at stray
  | strayEnd _ _ _ => simp [strayEndRecord, neverClosedRecord]
  | exhausted _ _ _ => simp [strayEndRecord, neverClosedRecord] at stray

end Reach

/-! ## A scan reaches each statement that it reads -/

theorem filledPositions_self : filledPositions statements start start = [] := by
  simp [filledPositions]

theorem filledPositions_of_blank (found : statements[start]? = some "") (before : start < stop) :
    filledPositions statements start stop = filledPositions statements (start + 1) stop := by
  rw [filledPositions, show stop - start = stop - (start + 1) + 1 by omega, List.range'_succ]
  simp [filledPositions, found]

theorem filledPositions_of_filled (found : statements[start]? = some text) (filled : text ≠ "")
    (before : start < stop) :
    filledPositions statements start stop = start :: filledPositions statements (start + 1) stop := by
  rw [filledPositions, show stop - start = stop - (start + 1) + 1 by omega, List.range'_succ]
  simp [filledPositions, found, filled]

theorem Reports.of_denotes {statement : Statement} (found : statements[position]? = some text)
    (denotes : Denotes text statement) :
    Reports statements position (Reached.notice ⟨position + 1, statement⟩).record := by
  cases statement with
  | operation op => exact .operation found denotes
  | opening condition => exact .opening found denotes
  | closing =>
      obtain rfl := Statement.denotes_closing_iff.1 denotes
      exact .closing found

/-- A scan that starts at a position tells of each statement from there on, up to where it ends, and skips only
those that are empty. -/
theorem filled_scanFrom (opened : List Nat) {position : Nat} (bound : position ≤ statements.length) :
    position ≤ (scanFrom statements opened position).ending.reach statements.length ∧
      List.Forall₂ (Reports statements)
        (filledPositions statements position
          ((scanFrom statements opened position).ending.reach statements.length))
        ((scanFrom statements opened position).reached.map fun reached => reached.notice.record) := by
  by_cases last : position = statements.length
  · subst last
    rw [scanFrom_length]
    exact ⟨Nat.le_refl _, by simp [Ending.reach, filledPositions_self]⟩
  · have inside : position < statements.length := by omega
    obtain ⟨text, found⟩ : ∃ text, statements[position]? = some text := ⟨_, List.getElem?_eq_getElem inside⟩
    rcases scanFrom_cases opened found with ⟨rfl, blank⟩ | unreadable | ⟨rfl, stray⟩ |
      ⟨statement, after, denotes, passed⟩
    · have behind := filled_scanFrom opened (show position + 1 ≤ statements.length from inside)
      rw [blank, filledPositions_of_blank found behind.1]
      exact ⟨Nat.le_of_succ_le behind.1, behind.2⟩
    · rw [unreadable]
      exact ⟨Nat.le_refl _, by simp [Ending.reach, filledPositions_self]⟩
    · rw [stray]
      refine ⟨Nat.le_succ _, ?_⟩
      rw [Ending.reach, filledPositions_of_filled found (by decide) (Nat.lt_succ_self _), filledPositions_self]
      exact .cons (.closing found) .nil
    · have behind := filled_scanFrom after (show position + 1 ≤ statements.length from inside)
      have filled : text ≠ "" := by
        rintro rfl
        exact Statement.not_denotes_empty statement denotes
      rw [passed, Scan.cons, filledPositions_of_filled found filled behind.1]
      exact ⟨Nat.le_of_succ_le behind.1, .cons (.of_denotes found denotes) behind.2⟩
termination_by statements.length - position

/-! ## Open loops -/

/-- A loop is opened at a position, and more loops are open from there on, up to another position. -/
def OpensAt (statements : List String) (stop position : Nat) : Prop :=
  (∃ text, statements[position]? = some text ∧ opensLoop text = true) ∧ position < stop ∧
    ∀ later, position < later → later ≤ stop → depth statements position < depth statements later

/-- At the end of a program the open loops are those that no end belongs to. -/
theorem opensAt_length_iff : OpensAt statements statements.length position ↔ Unclosed statements position := by
  constructor
  · rintro ⟨opens, inside, deeper⟩
    refine ⟨opens, ?_⟩
    intro later after
    by_cases within : later ≤ statements.length
    · exact deeper later after within
    · rw [depth_of_length_le (by omega : statements.length ≤ later)]
      exact deeper _ inside (Nat.le_refl _)
  · rintro ⟨⟨text, found, opens⟩, deeper⟩
    have inside := (List.getElem?_eq_some_iff.1 found).1
    exact ⟨⟨text, found, opens⟩, inside, fun later after _ => deeper later after⟩

/-- All loops that are opened inside of a span are closed there. -/
theorem Spans.not_opensAt {nodes : List Node} (h : Spans statements start nodes stop) (lower : start ≤ position) :
    ¬ OpensAt statements stop position := by
  rintro ⟨_, inside, deeper⟩
  have high := deeper stop inside (Nat.le_refl _)
  have low := h.depth_le lower (Nat.le_of_lt inside)
  have level := h.depth_stop
  omega

/-- Behind a loop head and nodes that span the statements there, one more loop is open than in front of the head. -/
theorem Spans.opensAt_iff {head : Nat} {condition : Condition} {nodes : List Node}
    (found : statements[head]? = some text) (denotes : Denotes text (.opening condition))
    (h : Spans statements (head + 1) nodes stop) :
    OpensAt statements stop position ↔ position = head ∨ OpensAt statements head position := by
  have opened := depth_succ found denotes
  simp only [Statement.rise] at opened
  have deeper : ∀ later, head < later → later ≤ stop → depth statements head < depth statements later := by
    intro later after within
    have low := h.depth_le after within
    omega
  constructor
  · intro opens
    rcases Nat.lt_trichotomy position head with left | here | right
    · refine .inr ⟨opens.1, left, ?_⟩
      intro later after within
      exact opens.2.2 later after (Nat.le_trans within (Nat.le_of_succ_le h.le))
    · exact .inl here
    · exact absurd opens (h.not_opensAt right)
  · rintro (rfl | ⟨opens, inside, rises⟩)
    · exact ⟨⟨text, found, by simp [denotes.opensLoop_eq, Statement.rise]⟩, h.le, deeper⟩
    · refine ⟨opens, Nat.lt_of_lt_of_le inside (Nat.le_of_succ_le h.le), ?_⟩
      intro later after within
      by_cases outside : later ≤ head
      · exact rises later after outside
      · -- in the body the depth is above that of the head, which is above that of the outer loop
        have inner := deeper later (by omega) within
        have outer := rises head inside (Nat.le_refl _)
        omega

namespace OpenSpans

variable {frames : List Frame} {before : List Node}

/-- The loops around a position are those that are open there, the last one first. -/
theorem exists_heads (h : OpenSpans statements 0 frames before stop) :
    ∃ heads : List Nat, frames.map Frame.line = heads.map (· + 1) ∧ heads.Pairwise (· > ·) ∧
      ∀ position, position ∈ heads ↔ OpensAt statements stop position := by
  induction h with
  | outside spans => exact ⟨[], rfl, .nil, by simp [spans.not_opensAt (Nat.zero_le _)]⟩
  | @inside frames outer before head stop text condition path found denotes spans ih =>
      rcases ih with ⟨heads, lines, descends, listed⟩
      refine ⟨head :: heads, by simp [lines], .cons ?_ descends, ?_⟩
      · intro position mem
        exact ((listed position).1 mem).2.1
      · intro position
        rw [List.mem_cons, listed, spans.opensAt_iff found denotes]

/-- Where a scan ends, reading ends, and it leaves the warnings that are due. -/
theorem reach {ending : Ending} (h : OpenSpans statements 0 frames before stop)
    (stops : Stops statements frames stop ending) :
    Reach statements (ending.reach statements.length) (ending.warnings.map Scan.Notice.record) := by
  cases stops with
  | unreadable found nonempty unreadable => exact .unreadable h.passable ⟨found, nonempty, unreadable⟩
  | strayEnd none found =>
      subst none
      exact .strayEnd h.passable found (by simpa using h.depth_eq)
  | exhausted last =>
      subst last
      rcases h.exists_heads with ⟨heads, lines, descends, listed⟩
      have due := Reach.exhausted h.passable descends fun position =>
        (listed position).trans opensAt_length_iff
      simpa [Ending.reach, Ending.warnings, lines, neverClosedRecord, Scan.Notice.record, Function.comp_def]
        using due

end OpenSpans
end

/-! ## The log of a compilation -/

/-- What becomes of a program that has been read as one block: the reports, and the tree or what is in the way.  An end
that belongs to no loop is refused in strict mode, and reported in lenient mode. -/
def Descent.program (mode : Mode) (descent : Descent) : List Scan.Notice × Except Obstacle Node :=
  match descent.result with
  | .error obstacle => (descent.log, .error obstacle)
  | .ok .exhausted => (descent.log, .ok (Node.root descent.body))
  | .ok (.closed consumed) =>
    match mode with
    | .strict => (descent.log, .error (.refused (.unexpectedEnd consumed)))
    | .lenient => (descent.log ++ [.strayEnd consumed], .ok (Node.root descent.body))

/-- Compiles a program by reading its blocks one inside the other, and reports on the way. -/
def descendProgram? (mode : Mode) (bound : Nat) (program : String) :
    Option (List Scan.Notice × Except Obstacle Node) :=
  (descend? mode (Source.statements program) bound [] [] 0 0).map (Descent.program mode)

/-- Compiled in this way, a program has the same reports and the same tree or error. -/
theorem descendProgram?_eq (mode : Mode) (program : String) {bound : Nat}
    (large : (Source.statements program).length < bound) :
    descendProgram? mode bound program =
      some (compilationNotices mode program, (compile mode program).mapError .refused) := by
  unfold descendProgram? compilationNotices compile
  generalize Source.statements program = statements at large
  rcases exists_finds mode (Nat.zero_le statements.length) with ⟨descent, descends, _, block, reported⟩
  have read : Block.read mode statements 0 =
      (scanFrom statements [] 0).ending.block mode 0 (assemble [] [] (scanFrom statements [] 0).reached) := rfl
  have whole : scan [] (Source.numbered statements) = scanFrom statements [] 0 := rfl
  rw [read] at block
  rw [descends bound large, Option.map_some, compileStatements_eq, whole]
  generalize scanFrom statements [] 0 = found at block reported ⊢
  rcases found with ⟨reached, ending⟩
  cases ending with
  | unreadable line text =>
      rw [Descent.eq_of_block?_error block, reported]
      cases mode <;> rfl
  | strayEnd line =>
      rw [Descent.eq_of_block?_ok block, reported]
      cases mode with
      | lenient => simp [Descent.program, Scan.notices, Ending.unclosed, Ending.warnings, outcome, Except.mapError]
      | strict => rfl
  | exhausted opened =>
      cases mode with
      | lenient =>
          rw [Descent.eq_of_block?_ok block, reported]
          rfl
      | strict =>
          cases opened with
          | nil =>
              rw [Descent.eq_of_block?_ok block, reported]
              rfl
          | cons line opened =>
              rw [Descent.eq_of_block?_error block, reported]
              rfl

/-- Reading its blocks one inside the other, a compilation comes to its result under every bound that is large enough,
and on the way it emits these records, in this order. -/
def Emits (mode : Mode) (program : String) (records : List Log.Record) : Prop :=
  ∀ bound, (Source.statements program).length < bound →
    ∃ log, descendProgram? mode bound program = some (log, (compile mode program).mapError .refused) ∧
      log.map Scan.Notice.record = records

theorem emits_compilationRecords (mode : Mode) (program : String) :
    Emits mode program (compilationRecords mode program) := by
  intro bound large
  exact ⟨_, descendProgram?_eq mode program large, rfl⟩

theorem outcome_eq_syntaxError {mode : Mode} {nodes : List Node} {ending : Ending} {line : Nat} {text : String}
    (h : outcome mode nodes ending = .error (.syntaxError line text)) : ending = .unreadable line text := by
  cases ending with
  | unreadable line' text' =>
      cases h
      rfl
  | strayEnd line' => cases mode <;> cases h
  | exhausted opened => cases mode <;> cases opened <;> cases h

end CounterLang
