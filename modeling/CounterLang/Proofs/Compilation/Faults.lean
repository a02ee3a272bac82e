import CounterLang.Proofs.Compilation.OpenSpans

/-!
# Faults — which programs are refused, and why

Statements are read from the first on.  A statement can be passed if it can be read and is no end outside of
any loop; the first statement that cannot be passed decides on the error of a strict compilation, and if there
is none, the innermost loop that is still open does.  A lenient compilation minds unreadable statements only.

- `Passable`                : all statements in front of a position can be passed
- `Unreadable`, `Unclosed`  : a statement without meaning, a loop head without end
- `Fault`                   : the error that is due, told from the statements
- `Fault.unique`            : at most one error is due
- `compile_error_iff`       : compilation reports just the error that is due
-/

namespace CounterLang

open Statement (Denotes)
open Source

/-! ## What can go wrong -/

/-- The statement at a position is not empty and has none of the forms of the language. -/
def Unreadable (statements : List String) (position : Nat) (text : String) : Prop :=
  statements[position]? = some text ∧ text ≠ "" ∧ ∀ statement, ¬ Denotes text statement

/-- A loop is opened at a position, and from there on more loops are open than in front of it. -/
def Unclosed (statements : List String) (position : Nat) : Prop :=
  (∃ text, statements[position]? = some text ∧ opensLoop text = true) ∧
    ∀ later, position < later → depth statements position < depth statements later

/-- In front of a position every statement can be read, and none is an end outside of any loop. -/
structure Passable (statements : List String) (position : Nat) : Prop where
  readable : ∀ earlier < position, ∀ text, ¬ Unreadable statements earlier text
  sheltered : ∀ earlier ≤ position, 0 ≤ depth statements earlier

/-- The error that is due in strict mode. -/
inductive Fault (statements : List String) : CompileError → Prop where
  /-- The first statement that cannot be passed is unreadable. -/
  | unreadable {position : Nat} {text : String} :
      Passable statements position → Unreadable statements position text →
        Fault statements (.syntaxError (position + 1) text)
  /-- The first statement that cannot be passed is an end, and no loop is open. -/
  | strayEnd {position : Nat} :
      Passable statements position → statements[position]? = some "end" →
        depth statements position = 0 → Fault statements (.unexpectedEnd (position + 1))
  /-- All statements can be passed, and this is the last loop head that no end belongs to. -/
  | unclosed {position : Nat} :
      Passable statements statements.length → Unclosed statements position →
        (∀ other, Unclosed statements other → other ≤ position) →
          Fault statements (.unterminatedBlock (position + 1))

section
variable {statements : List String} {position other : Nat} {text : String}

/-- An end in front of which no loop is open takes the depth below zero. -/
theorem depth_succ_strayEnd (found : statements[position]? = some "end")
    (level : depth statements position = 0) : depth statements (position + 1) = -1 := by
  calc
    depth statements (position + 1) = depth statements position - 1 := depth_succ found .closing
    _ = -1 := by rw [level]; rfl

/-- An end is readable. -/
theorem Unreadable.ne_end (h : Unreadable statements position text) : statements[position]? ≠ some "end" := by
  intro found
  have isEnd : text = "end" := by simpa [h.1] using found
  subst isEnd
  exact h.2.2 _ .closing

/-! ## At most one error is due -/

/-- A statement that cannot be passed. -/
def Blocked (statements : List String) (position : Nat) : Prop :=
  (∃ text, Unreadable statements position text) ∨
    (statements[position]? = some "end" ∧ depth statements position = 0)

theorem Blocked.lt_length (h : Blocked statements position) : position < statements.length := by
  rcases h with ⟨text, unreadable⟩ | ⟨found, _⟩
  · exact (List.getElem?_eq_some_iff.1 unreadable.1).1
  · exact (List.getElem?_eq_some_iff.1 found).1

namespace Passable

theorem le_of_blocked (passable : Passable statements position) (blocked : Blocked statements other) :
    position ≤ other := by
  by_cases reached : position ≤ other
  · exact reached
  · rcases blocked with ⟨text, unreadable⟩ | ⟨found, level⟩
    · exact absurd unreadable (passable.readable other (by omega) text)
    · -- behind a stray end the depth is below zero, which it is nowhere up to the position
      have below := depth_succ_strayEnd found level
      have above := passable.sheltered (other + 1) (by omega)
      omega

theorem eq_of_blocked (passable : Passable statements position) (blocked : Blocked statements position)
    (passableOther : Passable statements other) (blockedOther : Blocked statements other) :
    position = other :=
  Nat.le_antisymm (passable.le_of_blocked blockedOther) (passableOther.le_of_blocked blocked)

theorem not_blocked (whole : Passable statements statements.length) (blocked : Blocked statements position) :
    False := by
  have reached := whole.le_of_blocked blocked
  have inside := blocked.lt_length
  omega

/-- No error is due if all statements can be passed and all loops are closed. -/
theorem not_fault (whole : Passable statements statements.length)
    (closed : ∀ position, ¬ Unclosed statements position) (error : CompileError) :
    ¬ Fault statements error := by
  intro fault
  cases fault with
  | unreadable _ unreadable => exact whole.not_blocked (.inl ⟨_, unreadable⟩)
  | strayEnd _ found level => exact whole.not_blocked (.inr ⟨found, level⟩)
  | unclosed _ unclosed _ => exact closed _ unclosed

end Passable

theorem Fault.unique {a b : CompileError} (ha : Fault statements a) (hb : Fault statements b) : a = b := by
  -- there is just one position that is blocked and can be reached, and what stands there is one text
  cases ha with
  | @unreadable position text passable unreadable =>
      have blocked : Blocked statements position := .inl ⟨text, unreadable⟩
      cases hb with
      | @unreadable other otherText passableOther unreadableOther =>
          have same := passable.eq_of_blocked blocked passableOther (.inl ⟨_, unreadableOther⟩)
          subst same
          have sameText : text = otherText := by simpa [unreadable.1] using unreadableOther.1
          rw [sameText]
      | @strayEnd other passableOther found level =>
          have same := passable.eq_of_blocked blocked passableOther (.inr ⟨found, level⟩)
          subst same
          exact absurd found unreadable.ne_end
      | unclosed whole _ _ => exact (whole.not_blocked blocked).elim
  | @strayEnd position passable found level =>
      have blocked : Blocked statements position := .inr ⟨found, level⟩
      cases hb with
      | @unreadable other text passableOther unreadable =>
          have same := passable.eq_of_blocked blocked passableOther (.inl ⟨_, unreadable⟩)
          subst same
          exact absurd found unreadable.ne_end
      | @strayEnd other passableOther foundOther levelOther =>
          have same := passable.eq_of_blocked blocked passableOther (.inr ⟨foundOther, levelOther⟩)
          rw [same]
      | unclosed whole _ _ => exact (whole.not_blocked blocked).elim
  | @unclosed position whole unclosed last =>
      cases hb with
      | unreadable _ unreadable => exact (whole.not_blocked (.inl ⟨_, unreadable⟩)).elim
      | strayEnd _ found level => exact (whole.not_blocked (.inr ⟨found, level⟩)).elim
      | @unclosed other _ unclosedOther lastOther =>
          have same := Nat.le_antisymm (lastOther position unclosed) (last other unclosedOther)
          rw [same]

/-! ## Where a scan ends -/

variable {frames : List Frame} {before : List Node}

/-- A scan has passed what is in front of it. -/
theorem OpenSpans.passable (h : OpenSpans statements 0 frames before position) :
    Passable statements position where
  readable := by
    -- what has been passed is empty or denotes something, and an unreadable text is neither
    intro earlier upper text unreadable
    rcases h.readable (Nat.zero_le _) upper with ⟨other, found, meaning⟩
    have same : text = other := by simpa [unreadable.1] using found
    subst same
    rcases meaning with blank | ⟨statement, denotes⟩
    · exact unreadable.2.1 blank
    · exact unreadable.2.2 statement denotes
  sheltered := by
    intro earlier upper
    have low := h.depth_le (Nat.zero_le _) upper
    simpa using low

/-- A scan that meets an end with no loop open has found the first such end. -/
theorem OpenSpans.strayEnd?_eq_some (h : OpenSpans statements 0 [] before position)
    (found : statements[position]? = some "end") : strayEnd? statements = some position := by
  have level : depth statements position = 0 := by simpa using h.depth_eq
  have below := depth_succ_strayEnd found level
  have inside := (List.getElem?_eq_some_iff.1 found).1
  exact Source.strayEnd?_eq_some inside (by omega) h.passable.sheltered

/-- A scan that passes all statements has met no such end. -/
theorem OpenSpans.strayEnd?_eq_none (h : OpenSpans statements 0 frames before statements.length) :
    strayEnd? statements = none :=
  Source.strayEnd?_eq_none h.passable.sheltered

/-- All loops that are opened in front of the end of a program are closed if the nodes there span it. -/
theorem Spans.not_unclosed {start : Nat} {nodes : List Node}
    (h : Spans statements start nodes statements.length) (lower : start ≤ position) :
    ¬ Unclosed statements position := by
  rintro ⟨⟨text, found, opens⟩, deeper⟩
  have inside := (List.getElem?_eq_some_iff.1 found).1
  rcases (h.part lower inside).closed found opens with ⟨later, after, low⟩
  have high := deeper later after
  omega

/-- The innermost loop that is open at the end of a program is the last one without end. -/
theorem OpenSpans.unclosed {start : Nat} {frame : Frame}
    (h : OpenSpans statements start (frame :: frames) before statements.length) :
    ∃ head, frame.line = head + 1 ∧ Unclosed statements head ∧
      ∀ other, Unclosed statements other → other ≤ head := by
  cases h with
  | @inside _ _ _ head _ text condition path found denotes spans =>
      refine ⟨head, rfl, ⟨⟨text, found, ?_⟩, ?_⟩, ?_⟩
      · simp [denotes.opensLoop_eq, Statement.rise]
      · -- everything behind the head is in its body
        intro later after
        have opened := depth_succ found denotes
        have level := spans.depth_stop
        simp only [Statement.rise] at opened
        by_cases inside : later ≤ statements.length
        · have low := spans.depth_le after inside
          omega
        · have beyond : depth statements later = depth statements statements.length :=
            depth_of_length_le (by omega)
          omega
      · -- all heads in that body have their ends
        intro other unclosed
        by_cases upper : other ≤ head
        · exact upper
        · exact absurd unclosed (spans.not_unclosed (by omega))

/-- A strict compilation fails with the error that is due, or no error is due and it succeeds. -/
theorem compileStatements_strict (statements : List String) :
    (∃ error, Fault statements error ∧ compileStatements .strict statements = .error error) ∨
      (Passable statements statements.length ∧ (∀ position, ¬ Unclosed statements position) ∧
        ∃ root, compileStatements .strict statements = .ok root) := by
  rcases compileStatements_cases statements with ⟨frames, before, stop, ending, path, _, stops, result⟩
  rw [result]
  cases stops with
  | @unreadable text found nonempty unreadable =>
      exact .inl ⟨_, .unreadable path.passable ⟨found, nonempty, unreadable⟩, rfl⟩
  | strayEnd none found =>
      subst none
      have level := path.depth_eq
      exact .inl ⟨_, .strayEnd path.passable found (by simpa using level), rfl⟩
  | exhausted last =>
      subst last
      cases frames with
      | nil =>
          cases path with
          | outside spans =>
              refine .inr ⟨(OpenSpans.outside spans).passable, ?_, _, rfl⟩
              intro position
              exact spans.not_unclosed (Nat.zero_le _)
      | cons frame frames =>
          rcases path.unclosed with ⟨head, line, unclosed, largest⟩
          refine .inl ⟨_, .unclosed path.passable unclosed largest, ?_⟩
          simp [outcome, line]

/-- A lenient compilation fails exactly where a strict one fails over an unreadable statement, and otherwise
succeeds. -/
theorem compileStatements_lenient (statements : List String) :
    (∃ position text, Passable statements position ∧ Unreadable statements position text ∧
        ∀ mode, compileStatements mode statements = .error (.syntaxError (position + 1) text)) ∨
      ((∀ position text, Passable statements position → ¬ Unreadable statements position text) ∧
        ∃ root, compileStatements .lenient statements = .ok root) := by
  rcases compileStatements_cases statements with ⟨frames, before, stop, ending, path, _, stops, result⟩
  cases stops with
  | @unreadable text found nonempty unreadable =>
      exact .inl ⟨stop, text, path.passable, ⟨found, nonempty, unreadable⟩, fun mode => by rw [result]; rfl⟩
  | strayEnd none found =>
      subst none
      have level : depth statements stop = 0 := by simpa using path.depth_eq
      refine .inr ⟨?_, _, (result .lenient).trans rfl⟩
      intro position text passable unreadable
      -- an unreadable statement that can be reached would have to stand where the end stands
      have same := passable.eq_of_blocked (.inl ⟨text, unreadable⟩) path.passable (.inr ⟨found, level⟩)
      subst same
      exact unreadable.ne_end found
  | exhausted last =>
      subst last
      refine .inr ⟨?_, _, (result .lenient).trans rfl⟩
      intro position text _ unreadable
      exact path.passable.not_blocked (.inl ⟨text, unreadable⟩)

end

/-! ## Compilation -/

/-- A strict compilation reports the error that is due, if one is due; a lenient one reports it only if it is
over an unreadable statement. -/
theorem compile_error_iff (program : String) :
    (∀ error, compile .strict program = .error error ↔ Fault (Source.statements program) error) ∧
      ((∃ root, compile .strict program = .ok root) ↔
        Passable (Source.statements program) (Source.statements program).length ∧
          ∀ position, ¬ Unclosed (Source.statements program) position) ∧
      (∀ error, compile .lenient program = .error error ↔
        ∃ position text, Passable (Source.statements program) position ∧
          Unreadable (Source.statements program) position text ∧
          error = .syntaxError (position + 1) text) := by
  unfold compile
  generalize Source.statements program = statements
  -- that the error is due follows from how the scan ends; that no other is due, from uniqueness
  refine ⟨?_, ?_, ?_⟩
  · intro error
    rcases compileStatements_strict statements with ⟨due, fault, failed⟩ | ⟨whole, closed, root, ok⟩
    · rw [failed]
      constructor
      · intro same
        obtain rfl := Except.error.inj same
        exact fault
      · intro other
        rw [fault.unique other]
    · rw [ok]
      constructor
      · intro impossible
        cases impossible
      · intro fault
        exact absurd fault (whole.not_fault closed error)
  · rcases compileStatements_strict statements with ⟨due, fault, failed⟩ | ⟨whole, closed, root, ok⟩
    · rw [failed]
      constructor
      · rintro ⟨root, impossible⟩
        cases impossible
      · rintro ⟨whole, closed⟩
        exact absurd fault (whole.not_fault closed due)
    · exact ⟨fun _ => ⟨whole, closed⟩, fun _ => ⟨root, ok⟩⟩
  · intro error
    rcases compileStatements_lenient statements with
      ⟨position, text, passable, unreadable, failed⟩ | ⟨readable, root, ok⟩
    · rw [failed]
      constructor
      · intro same
        exact ⟨position, text, passable, unreadable, (Except.error.inj same).symm⟩
      · rintro ⟨other, otherText, passableOther, unreadableOther, rfl⟩
        have same := Fault.unique (.unreadable passable unreadable) (.unreadable passableOther unreadableOther)
        rw [same]
    · rw [ok]
      constructor
      · intro impossible
        cases impossible
      · rintro ⟨position, text, passable, unreadable, _⟩
        exact absurd unreadable (readable position text passable)

end CounterLang
