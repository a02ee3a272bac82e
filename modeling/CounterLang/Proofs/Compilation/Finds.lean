import CounterLang.Proofs.Compilation.Descent

/-!
# Finds — what reading a block comes to

Blocks that are read one inside the other come to the block that `Block.read` finds with a single scan, and so do the
reports on the way.  Where a block ends is told from the program alone: at the first end that belongs to no loop opened
in the block, at the first statement without a rule, or where the statements run out.

- `Finds`            : what the function comes to, told from where it stops
- `told_scanFrom`    : what a scan reaches is what is reported
- `exists_finds`     : the function comes to something, and this is the block that `Block.read` finds
- `depth_drop`       : the depth from a position on
- `Finds.closed_iff`, `Finds.exhausted_iff` : how a block ends, told from the program
- `descend_block`    : the contract of the function
-/

namespace CounterLang

open Statement (Denotes)
open Source

section
variable {mode : Mode} {statements : List String} {start position stop : Nat} {nodes : List Node} {text : String}
  {log : List Scan.Notice} {frames : List Frame} {before : List Node}

/-! ## What is found -/

/-- What the function comes to, told from the forest that it has passed and from where it stops. -/
inductive Finds (mode : Mode) (statements : List String) (start : Nat) : Descent → Prop where
  | closed {nodes : List Node} {stop : Nat} :
      Spans statements start nodes stop → statements[stop]? = some "end" →
        Finds mode statements start ⟨told statements start (stop + 1), nodes, .ok (.closed (stop - start + 1))⟩
  | exhausted {frames : List Frame} {before : List Node} :
      OpenSpans statements start frames before statements.length → (mode = .strict → frames = []) →
        Finds mode statements start
          ⟨told statements start statements.length ++ Frame.warnings frames, plug before.reverse frames,
            .ok .exhausted⟩
  | unreadable {frames : List Frame} {before body : List Node} {stop : Nat} {text : String} :
      OpenSpans statements start frames before stop → statements[stop]? = some text → Ruleless text →
        Finds mode statements start
          ⟨told statements start stop, body, .error (.refused (.syntaxError (stop + 1) text))⟩
  | unterminated {frame : Frame} {frames : List Frame} {before body : List Node} :
      mode = .strict → OpenSpans statements start (frame :: frames) before statements.length →
        Finds mode statements start
          ⟨told statements start statements.length, body, .error (.refused (.unterminatedBlock frame.line))⟩

/-- The block that a descent stands for; a breach stands for none. -/
def Descent.block? (descent : Descent) : Option (Except CompileError Block) :=
  match descent.result with
  | .ok ending => some (.ok ⟨descent.body, ending⟩)
  | .error (.refused error) => some (.error error)
  | .error (.breach _) => none

theorem Descent.eq_of_block?_ok {descent : Descent} {block : Block} (h : descent.block? = some (.ok block)) :
    descent = ⟨descent.log, block.nodes, .ok block.ending⟩ := by
  rcases descent with ⟨log, body, (error | breach) | ending⟩
  · cases h
  · cases h
  · cases h
    rfl

theorem Descent.eq_of_block?_error {descent : Descent} {error : CompileError}
    (h : descent.block? = some (.error error)) : descent = ⟨descent.log, descent.body, .error (.refused error)⟩ := by
  rcases descent with ⟨log, body, (error | breach) | ending⟩
  · cases h
    rfl
  · cases h
  · cases h

/-- The block that comes of a scan from some position on, which has passed some nodes. -/
def Ending.block (mode : Mode) (start : Nat) (nodes : List Node) : Ending → Except CompileError Block
  | .unreadable line text => .error (.syntaxError line text)
  | .strayEnd line => .ok ⟨nodes, .closed (line - start)⟩
  | .exhausted opened =>
    match mode, opened with
    | .strict, line :: _ => .error (.unterminatedBlock line)
    | _, _ => .ok ⟨nodes, .exhausted⟩

/-- The number of statements that a scan has read when it ends, given the number of all of them. -/
def Ending.reach (length : Nat) : Ending → Nat
  | exhausted _ => length
  | unreadable line _ => line - 1
  | strayEnd line => line

/-- The warnings that are due when a block has been read: in lenient mode one for each loop that stays open. -/
def Ending.unclosed (mode : Mode) : Ending → List Scan.Notice
  | exhausted opened =>
    match mode with
    | .lenient => opened.map .neverClosed
    | .strict => []
  | _ => []

/-- A scan from a position on reports the statements from there up to where it ends. -/
theorem told_scanFrom (opened : List Nat) {position : Nat} (bound : position ≤ statements.length) :
    position ≤ (scanFrom statements opened position).ending.reach statements.length ∧
      (scanFrom statements opened position).reached.map Reached.notice =
        told statements position ((scanFrom statements opened position).ending.reach statements.length) := by
  by_cases last : position = statements.length
  · subst last
    rw [scanFrom_length]
    exact ⟨Nat.le_refl _, (told_self statements _).symm⟩
  · have inside : position < statements.length := by omega
    obtain ⟨text, found⟩ : ∃ text, statements[position]? = some text := ⟨_, List.getElem?_eq_getElem inside⟩
    rcases scanFrom_cases opened found with ⟨rfl, blank⟩ | unreadable | ⟨rfl, stray⟩ |
      ⟨statement, after, denotes, passed⟩
    · have behind := told_scanFrom opened (show position + 1 ≤ statements.length from inside)
      rw [blank, ← told_append (Nat.le_succ position) behind.1, told_blank found]
      exact ⟨Nat.le_of_succ_le behind.1, behind.2⟩
    · rw [unreadable]
      exact ⟨Nat.le_refl _, (told_self statements _).symm⟩
    · rw [stray]
      exact ⟨Nat.le_succ _, (told_denotes found .closing).symm⟩
    · have behind := told_scanFrom after (show position + 1 ≤ statements.length from inside)
      rw [passed, Scan.cons, List.map_cons, behind.2, ← told_append (Nat.le_succ position) behind.1,
        told_denotes found denotes]
      exact ⟨Nat.le_of_succ_le behind.1, rfl⟩
termination_by statements.length - position

/-- Where the statements run out, the function has found what a scan finds: the loops that stay open are reported in
lenient mode, and the innermost one of them is missed in strict mode. -/
theorem OpenSpans.exists_finds_exhausted (mode : Mode)
    (path : OpenSpans statements start frames before statements.length) :
    let ending := Ending.exhausted (frames.map Frame.line)
    ∃ descent, Descends mode statements start start [] [] descent ∧ Finds mode statements start descent ∧
      descent.block? = some (ending.block mode start (plug before.reverse frames)) ∧
        descent.log = told statements start statements.length ++ ending.unclosed mode := by
  intro ending
  cases mode with
  | lenient =>
      have descends : Descends .lenient statements start start [] [] _ := path.descends_exhausted (.exhausted _ _ _)
      exact ⟨_, descends, .exhausted path nofun, rfl, by simp [ending, Ending.unclosed, Frame.warnings]⟩
  | strict =>
      cases frames with
      | nil =>
          cases path with
          | outside spans =>
              have ended : Descends .strict statements start statements.length
                  ([] ++ told statements start statements.length) ([] ++ before.reverse) _ := .exhausted _ _ _
              have found := Finds.exhausted (.outside spans) fun _ : Mode.strict = .strict => rfl
              rw [show Frame.warnings [] = [] from rfl, List.append_nil] at found
              exact ⟨_, spans.descends [] [] ended, found, rfl, (List.append_nil _).symm⟩
      | cons frame frames =>
          rcases path.descends_unterminated [] with ⟨body, descends⟩
          exact ⟨_, descends, .unterminated rfl path, rfl, (List.append_nil _).symm⟩

/-- The function reads a block, and it is the block that a scan finds; it reports what the scan reaches, and in lenient
mode the loops that stay open. -/
theorem exists_finds (mode : Mode) (inside : start ≤ statements.length) :
    ∃ descent, Descends mode statements start start [] [] descent ∧ Finds mode statements start descent ∧
      descent.block? = some (Block.read mode statements start) ∧
        descent.log = (scanFrom statements [] start).reached.map Reached.notice ++
          (scanFrom statements [] start).ending.unclosed mode := by
  have outside : OpenSpans statements start [] [] start := .outside .nil
  rcases outside.exists_stop inside with ⟨frames, before, stop, path, bound, stops, nodes⟩
  simp only [List.map_nil] at stops nodes
  have read : Block.read mode statements start =
      (scanFrom statements [] start).ending.block mode start (plug before.reverse frames) := by
    rw [← nodes]
    rfl
  rw [read, (told_scanFrom [] inside).2]
  generalize (scanFrom statements [] start).ending = ending at stops
  -- the scan keeps a stack of open loops where the function has calls that are still going on
  cases stops with
  | @unreadable text found nonempty unreadable =>
      rcases path.descends_obstacle (.unreadable _ _ _ found nonempty unreadable) with ⟨body, descends⟩
      exact ⟨_, descends, .unreadable path found (ruleless_iff.2 ⟨nonempty, unreadable⟩), rfl,
        (List.append_nil _).symm⟩
  | strayEnd none found =>
      subst none
      cases path with
      | outside spans =>
          have ended :
              Descends mode statements start stop ([] ++ told statements start stop) ([] ++ before.reverse) _ :=
            .closing _ _ found spans.le
          rw [append_told [] spans.le (Nat.le_succ stop)] at ended
          refine ⟨_, spans.descends [] [] ended, .closed spans found, ?_, (List.append_nil _).symm⟩
          rw [Ending.block, Nat.sub_add_comm spans.le]
          rfl
  | exhausted last =>
      subst last
      exact path.exists_finds_exhausted mode

/-! ## Depth from a position on -/

/-- From a position on, the depth is counted from what it is there. -/
theorem depth_drop (statements : List String) (start offset : Nat) :
    depth (statements.drop start) offset = depth statements (start + offset) - depth statements start := by
  have split : statements.take (start + offset) = statements.take start ++ (statements.drop start).take offset :=
    List.take_add
  simp only [depth, split, List.countP_append]
  omega

namespace OpenSpans

theorem depth_drop_nonneg (h : OpenSpans statements start frames before position) :
    ∀ offset ≤ position - start, 0 ≤ depth (statements.drop start) offset := by
  intro offset upper
  have lower := h.le
  have level := h.depth_le (Nat.le_add_right start offset) (by omega)
  rw [depth_drop]
  omega

/-- What has been passed has a rule, unless it is empty. -/
theorem not_ruleless (h : OpenSpans statements start frames before position) :
    ∀ text ∈ (statements.drop start).take (position - start), ¬ Ruleless text := by
  rintro text mem ruleless
  rcases List.getElem?_of_mem mem with ⟨offset, found⟩
  rw [List.getElem?_take] at found
  split at found
  · next upper =>
    rw [List.getElem?_drop] at found
    rcases h.readable (Nat.le_add_right start offset) (by omega) with ⟨other, there, meaning⟩
    obtain rfl : text = other := Option.some.inj (found.symm.trans there)
    rcases ruleless_iff.1 ruleless with ⟨nonempty, unreadable⟩
    rcases meaning with blank | ⟨statement, denotes⟩
    · exact nonempty blank
    · exact unreadable statement denotes
  · cases found

theorem strayEnd?_drop_eq_none (h : OpenSpans statements start frames before statements.length) :
    strayEnd? (statements.drop start) = none :=
  Source.strayEnd?_eq_none (by simpa using h.depth_drop_nonneg)

end OpenSpans

theorem Spans.strayEnd?_drop (h : Spans statements start nodes stop) (found : statements[stop]? = some "end") :
    strayEnd? (statements.drop start) = some (stop - start) := by
  have path : OpenSpans statements start [] nodes.reverse stop := .outside (by simpa using h)
  have lower := h.le
  have inside := (List.getElem?_eq_some_iff.1 found).1
  have place : start + (stop - start + 1) = stop + 1 := by omega
  refine Source.strayEnd?_eq_some (by rw [List.length_drop]; omega) ?_ path.depth_drop_nonneg
  have level := h.depth_stop
  have lowered := depth_succ found .closing
  simp only [Statement.rise] at lowered
  rw [depth_drop, place]
  omega

theorem getElem?_drop_sub (lower : start ≤ stop) : (statements.drop start)[stop - start]? = statements[stop]? := by
  rw [List.getElem?_drop, Nat.add_sub_of_le lower]

/-- A statement that lowers the depth is an end. -/
theorem eq_end_of_depth_lt (found : statements[position]? = some text)
    (lowered : depth statements (position + 1) < depth statements position) : text = "end" := by
  rw [depth_succ_eq found] at lowered
  have closes : closesLoop text = true := by
    cases closes : closesLoop text with
    | true => rfl
    | false =>
        rw [closes, if_neg Bool.false_ne_true] at lowered
        split at lowered
        all_goals omega
  exact eq_of_beq closes

/-- An end that belongs to no loop comes behind the first statement without a rule, if there is one. -/
theorem OpenSpans.exists_ruleless (h : OpenSpans statements start frames before stop)
    (found : statements[stop]? = some text) (ruleless : Ruleless text) {offset : Nat}
    (stray : strayEnd? (statements.drop start) = some offset) :
    ∃ text ∈ (statements.drop start).take offset, Ruleless text := by
  have there : (statements.drop start)[stop - start]? = some text := (getElem?_drop_sub h.le).trans found
  have below : depth (statements.drop start) (offset + 1) < 0 := by simpa using List.find?_some stray
  have above := h.depth_drop_nonneg
  have behind : stop - start < offset := by
    rcases Nat.lt_trichotomy offset (stop - start) with before | rfl | behind
    · have level := above (offset + 1) before
      omega
    · -- there is a rule for an end
      have isEnd := eq_end_of_depth_lt there (Int.lt_of_lt_of_le below (above _ (Nat.le_refl _)))
      exact absurd (isEnd ▸ Denotes.closing) ((ruleless_iff.1 ruleless).2 .closing)
    · exact behind
  refine ⟨text, List.mem_iff_getElem?.2 ⟨stop - start, ?_⟩, ruleless⟩
  rw [List.getElem?_take_of_lt behind, there]

/-- The innermost loop that is still open has been opened from the start on. -/
theorem OpenSpans.exists_unclosed {frame : Frame}
    (h : OpenSpans statements start (frame :: frames) before statements.length) :
    ∃ head, start ≤ head ∧ Unclosed statements head := by
  rcases h.unclosed with ⟨head, line, unclosed, _⟩
  refine ⟨head, ?_, unclosed⟩
  cases h with
  | inside path _ _ _ =>
      have lower := path.le
      simp only at line
      omega

namespace Finds

variable {result : Except Obstacle BlockEnd} {consumed : Nat}

theorem ne_breach (h : Finds mode statements start ⟨log, nodes, result⟩) (breach : Breach) :
    result ≠ .error (.breach breach) := by
  cases h <;> simp

/-- A block is closed by the first end that belongs to no loop inside of it. -/
theorem closed_iff (h : Finds mode statements start ⟨log, nodes, result⟩) :
    result = .ok (.closed consumed) ↔
      ∃ offset, strayEnd? (statements.drop start) = some offset ∧
        (∀ text ∈ (statements.drop start).take offset, ¬ Ruleless text) ∧ consumed = offset + 1 := by
  cases h with
  | @closed nodes stop spans found =>
      have path : OpenSpans statements start [] nodes.reverse stop := .outside (by simpa using spans)
      rw [spans.strayEnd?_drop found]
      constructor
      · rintro ⟨⟩
        exact ⟨_, rfl, path.not_ruleless, rfl⟩
      · rintro ⟨offset, same, _, rfl⟩
        rw [Option.some.inj same]
  | exhausted path _ => simp [path.strayEnd?_drop_eq_none]
  | unreadable path found ruleless =>
      refine iff_of_false nofun ?_
      rintro ⟨offset, stray, readable, _⟩
      rcases path.exists_ruleless found ruleless stray with ⟨text, mem, ruleless⟩
      exact readable text mem ruleless
  | unterminated _ path => simp [path.strayEnd?_drop_eq_none]

/-- The end that closes a block is the last position that the block takes up. -/
theorem closed_bounds (h : Finds mode statements start ⟨log, nodes, result⟩)
    (closed : result = .ok (.closed consumed)) :
    1 ≤ consumed ∧ consumed ≤ statements.length - start ∧ statements[start + consumed - 1]? = some "end" := by
  cases h with
  | @closed nodes stop spans found =>
      cases closed
      have lower := spans.le
      have inside := (List.getElem?_eq_some_iff.1 found).1
      have place : start + (stop - start + 1) - 1 = stop := by omega
      exact ⟨by omega, by omega, place.symm ▸ found⟩
  | exhausted _ _ => cases closed
  | unreadable _ _ _ => cases closed
  | unterminated _ _ => cases closed

/-- Statements run out in a block if nothing stops it, and in strict mode if all loops in it are closed. -/
theorem exhausted_iff (h : Finds mode statements start ⟨log, nodes, result⟩) :
    result = .ok .exhausted ↔
      (∀ text ∈ statements.drop start, ¬ Ruleless text) ∧ strayEnd? (statements.drop start) = none ∧
        (mode = .strict → ∀ position, start ≤ position → ¬ Unclosed statements position) := by
  cases h with
  | closed spans found => simp [spans.strayEnd?_drop found]
  | exhausted path closed =>
      refine iff_of_true rfl ⟨?_, path.strayEnd?_drop_eq_none, ?_⟩
      · have readable := path.not_ruleless
        rwa [List.take_of_length_le (by simp)] at readable
      · intro strict position lower
        cases closed strict
        cases path with
        | outside spans => exact spans.not_unclosed lower
  | unreadable path found ruleless =>
      refine iff_of_false nofun ?_
      rintro ⟨readable, _⟩
      exact readable _ (List.mem_of_getElem? ((getElem?_drop_sub path.le).trans found)) ruleless
  | unterminated strict path =>
      refine iff_of_false nofun ?_
      rintro ⟨_, _, closed⟩
      rcases path.exists_unclosed with ⟨head, lower, unclosed⟩
      exact closed strict head lower unclosed

end Finds
end

/-! ## Reading a block -/

/-- A block is read from any position of a program on, in either mode.  The function comes to a result as soon as the
bound is larger than the number of statements that are left; the log and the body that it is given stay in front of
what it appends to them, and neither what it appends nor the result depend on them.  No index is out of range, nothing
is taken from a smaller number, and no keyword belongs to no operation.  What is read is the block that `Block.read`
finds.

The block is closed if and only if there is an end that belongs to no loop opened in the block, and no statement
without a rule in front of the first such end; then the block takes up all positions up to this end, which is the last
of them.  The statements run out if and only if each of them is empty or has a rule, there is no such end, and, in
strict mode, each loop that is opened in the block is closed. -/
theorem descend_block (mode : Mode) (statements : List String) {start : Nat} (inside : start ≤ statements.length) :
    let rest := statements.drop start
    ∃ told appended result,
      (∀ log body bound, statements.length - start < bound →
          descend? mode statements bound log body start start = some ⟨log ++ told, body ++ appended, result⟩) ∧
        (∀ breach, result ≠ .error (.breach breach)) ∧
        Descent.block? ⟨told, appended, result⟩ = some (Block.read mode statements start) ∧
        (∀ consumed, result = .ok (.closed consumed) ↔
          ∃ offset, strayEnd? rest = some offset ∧ (∀ text ∈ rest.take offset, ¬ Ruleless text) ∧
            consumed = offset + 1) ∧
        (∀ consumed, result = .ok (.closed consumed) →
          1 ≤ consumed ∧ consumed ≤ statements.length - start ∧ statements[start + consumed - 1]? = some "end") ∧
        (result = .ok .exhausted ↔
          (∀ text ∈ rest, ¬ Ruleless text) ∧ strayEnd? rest = none ∧
            (mode = .strict → ∀ position, start ≤ position → ¬ Unclosed statements position)) := by
  rcases exists_finds mode inside with ⟨⟨told, appended, result⟩, descends, finds, block, _⟩
  refine ⟨told, appended, result, ?_, finds.ne_breach, block, fun _ => finds.closed_iff, fun _ => finds.closed_bounds,
    finds.exhausted_iff⟩
  intro log body bound large
  have whole : descend? mode statements bound (log ++ []) (body ++ []) start start = _ :=
    descend?_append log [] body [] bound start start
  rw [List.append_nil, List.append_nil, descends bound large] at whole
  exact whole

/-- The body of a loop, in front of an end that belongs to no loop at all. -/
theorem descend_block_body :
    let statements := ["while x not 3 do", "incr x", "end", "end"]
    1 ≤ statements.length ∧
      ∃ told appended, ∀ log body bound, 3 < bound →
        descend? .strict statements bound log body 1 1 = some ⟨log ++ told, body ++ appended, .ok (.closed 2)⟩ := by
  intro statements
  have inside : 1 ≤ statements.length := by decide
  rcases descend_block .strict statements inside with ⟨told, appended, result, descends, _, _, closed, _⟩
  have stray : strayEnd? (statements.drop 1) = some 1 := by decide
  have readable : ∀ text ∈ (statements.drop 1).take 1, ¬ Ruleless text := by decide
  obtain rfl := (closed 2).2 ⟨1, stray, readable, rfl⟩
  exact ⟨inside, told, appended, descends⟩

end CounterLang
