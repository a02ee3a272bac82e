import CounterLang.Compilation
import CounterLang.Proofs.Compilation.Spans

/-!
# Open spans — what is known of a program while it is scanned

When a scan has come to some position, the statements it has passed describe the forest in front of the
position, up to the loops that are still open there; these are kept as frames.  A scan ends where one of
three things is found: the end of the program, a statement that cannot be read, or an end outside of any loop.

- `scanFrom_cases`                  : all that a scan can do with a statement
- `OpenSpans`                       : the forest in front of a position and the open loops around it
- `Stops`                           : what makes a scan end at a position
- `OpenSpans.exists_stop`           : every scan comes to such a position, with all nodes it has passed
- `Spans.scan`                      : a scan passes over a span, and puts its forest behind what it has
- `compileStatements_cases`         : every compilation ends somewhere, and with what its scan has passed
- `OpenSpans.compileStatements_eq`  : the outcome of a compilation, told from where its scan ends
- `compileStatements_strict_ok`     : the programs that strict mode accepts, with their trees
-/

namespace CounterLang

open Statement (Denotes)
open Source

/-! ## Scanning from a position -/

/-- Scans the statements from a position on, given the lines of the loops that are open there. -/
def scanFrom (statements : List String) (opened : List Nat) (position : Nat) : Scan :=
  scan opened ((Source.numbered statements).drop position)

/-- A scan with one more statement in front. -/
def Scan.cons (reached : Reached) (scan : Scan) : Scan :=
  { scan with reached := reached :: scan.reached }

section
variable {statements : List String} {opened : List Nat} {position : Nat} {text : String}

theorem numbered_drop (found : statements[position]? = some text) :
    (Source.numbered statements).drop position =
      (position + 1, text) :: (Source.numbered statements).drop (position + 1) := by
  rcases List.getElem?_eq_some_iff.1 found with ⟨inside, rfl⟩
  have bound : position < (Source.numbered statements).length := by
    simpa [Source.numbered] using inside
  rw [List.drop_eq_getElem_cons bound]
  simp [Source.numbered, Nat.add_comm]

theorem scanFrom_length (opened : List Nat) :
    scanFrom statements opened statements.length = ⟨[], .exhausted opened⟩ := by
  have nothing : (Source.numbered statements).drop statements.length = [] := by
    simp [Source.numbered]
  rw [scanFrom, nothing]
  rfl

theorem scanFrom_blank (found : statements[position]? = some "") :
    scanFrom statements opened position = scanFrom statements opened (position + 1) := by
  simp [scanFrom, numbered_drop found, scan]

theorem scanFrom_unreadable (found : statements[position]? = some text) (nonempty : text ≠ "")
    (unreadable : ∀ statement, ¬ Denotes text statement) :
    scanFrom statements opened position = ⟨[], .unreadable (position + 1) text⟩ := by
  have nothing : Statement.parse? text = none := by
    cases read : Statement.parse? text with
    | none => rfl
    | some statement => exact absurd (Statement.parse?_eq_some_iff.1 read) (unreadable statement)
  simp [scanFrom, numbered_drop found, scan, nonempty, nothing]

theorem scanFrom_denotes (opened : List Nat) {after : List Nat} {statement : Statement}
    (found : statements[position]? = some text) (denotes : Denotes text statement)
    (opens : statement.openAfter? (position + 1) opened = some after) :
    scanFrom statements opened position =
      (scanFrom statements after (position + 1)).cons ⟨position + 1, statement⟩ := by
  have nonempty : text ≠ "" := by
    rintro rfl
    exact Statement.not_denotes_empty statement denotes
  have read := Statement.parse?_eq_some_iff.2 denotes
  simp [scanFrom, numbered_drop found, scan, nonempty, read, opens, Scan.cons]

theorem scanFrom_strayEnd (found : statements[position]? = some "end") :
    scanFrom statements [] position = ⟨[⟨position + 1, .closing⟩], .strayEnd (position + 1)⟩ := by
  have read := Statement.parse?_eq_some_iff.2 Denotes.closing
  simp [scanFrom, numbered_drop found, scan, read, Statement.openAfter?]

/-- All that a scan can do with the statement at a position: pass over it, stop in front of it or behind it, or
take it up and go on. -/
theorem scanFrom_cases (opened : List Nat) (found : statements[position]? = some text) :
    (text = "" ∧ scanFrom statements opened position = scanFrom statements opened (position + 1)) ∨
      scanFrom statements opened position = ⟨[], .unreadable (position + 1) text⟩ ∨
        (text = "end" ∧
          scanFrom statements opened position = ⟨[⟨position + 1, .closing⟩], .strayEnd (position + 1)⟩) ∨
          ∃ statement after, Denotes text statement ∧
            scanFrom statements opened position =
              (scanFrom statements after (position + 1)).cons ⟨position + 1, statement⟩ := by
  by_cases blank : text = ""
  · subst blank
    exact .inl ⟨rfl, scanFrom_blank found⟩
  · by_cases readable : ∃ statement, Denotes text statement
    · rcases readable with ⟨statement, denotes⟩
      refine .inr (.inr ?_)
      cases opens : statement.openAfter? (position + 1) opened with
      | some after => exact .inr ⟨statement, after, denotes, scanFrom_denotes opened found denotes opens⟩
      | none =>
          -- only an end with no loop open cannot be passed
          cases statement with
          | operation op => cases opens
          | opening condition => cases opens
          | closing =>
              obtain rfl := Statement.denotes_closing_iff.1 denotes
              cases opened with
              | nil => exact .inl ⟨rfl, scanFrom_strayEnd found⟩
              | cons line opened => cases opens
    · refine .inr (.inl (scanFrom_unreadable found blank ?_))
      intro statement denotes
      exact readable ⟨statement, denotes⟩

end

/-! ## A scan passes over a span -/

/-- A scan in front of a span goes on behind it with the same loops open, and its forest follows the nodes
that were there before. -/
theorem Spans.scan {statements : List String} {start stop : Nat} {nodes : List Node}
    (h : Spans statements start nodes stop) (opened : List Nat) (before : List Node) (frames : List Frame) :
    (scanFrom statements opened start).ending = (scanFrom statements opened stop).ending ∧
      assemble before frames (scanFrom statements opened start).reached =
        assemble (nodes.reverse ++ before) frames (scanFrom statements opened stop).reached := by
  induction h generalizing opened before frames with
  | nil => simp
  | blank found _ ih =>
      rw [scanFrom_blank found]
      exact ih opened before frames
  | @operation start stop nodes text op found denotes _ ih =>
      rw [scanFrom_denotes opened found denotes rfl]
      have next := ih opened (.operation (start + 1) op :: before) frames
      simpa [Scan.cons, assemble] using next
  | @loop start close stop children nodes text condition found denotes _ close' _ ihChildren ihRest =>
      have inner := ihChildren ((start + 1) :: opened) [] (⟨before, start + 1, condition, []⟩ :: frames)
      have outer := ihRest opened (.loop (start + 1) condition children :: before) frames
      -- the body is scanned with one more loop open, which its end takes away again
      rw [scanFrom_denotes opened found denotes rfl]
      rw [scanFrom_denotes ((start + 1) :: opened) close' .closing rfl] at inner
      simp only [Scan.cons, assemble] at inner ⊢
      refine ⟨inner.1.trans outer.1, inner.2.trans ?_⟩
      simpa [Frame.fill] using outer.2

/-! ## The open loops around a position -/

/-- The statements from `start` on, up to a position, describe the nodes in front of it, nearest first; the
loops that are still open there, innermost first, have no siblings behind them yet. -/
inductive OpenSpans (statements : List String) (start : Nat) : List Frame → List Node → Nat → Prop where
  | outside {before : List Node} {stop : Nat} :
      Spans statements start before.reverse stop → OpenSpans statements start [] before stop
  | inside {frames : List Frame} {outer before : List Node} {head stop : Nat} {text : String}
      {condition : Condition} :
      OpenSpans statements start frames outer head → statements[head]? = some text →
        Denotes text (.opening condition) → Spans statements (head + 1) before.reverse stop →
          OpenSpans statements start (⟨outer, head + 1, condition, []⟩ :: frames) before stop

/-- What makes a scan end at a position with some loops open. -/
inductive Stops (statements : List String) (frames : List Frame) (stop : Nat) : Ending → Prop where
  | exhausted :
      stop = statements.length → Stops statements frames stop (.exhausted (frames.map Frame.line))
  | unreadable {text : String} :
      statements[stop]? = some text → text ≠ "" → (∀ statement, ¬ Denotes text statement) →
        Stops statements frames stop (.unreadable (stop + 1) text)
  | strayEnd :
      frames = [] → statements[stop]? = some "end" → Stops statements frames stop (.strayEnd (stop + 1))

namespace OpenSpans

variable {statements : List String} {start position : Nat} {frames : List Frame} {before nodes : List Node}

/-- A span behind the position belongs to the innermost body. -/
theorem append {stop : Nat} (h : OpenSpans statements start frames before position)
    (span : Spans statements position nodes stop) :
    OpenSpans statements start frames (nodes.reverse ++ before) stop := by
  cases h with
  | outside spans =>
      refine .outside ?_
      simpa using spans.append span
  | inside outer found denotes spans =>
      refine .inside outer found denotes ?_
      simpa using spans.append span

/-- An end closes the innermost loop. -/
theorem close {frame : Frame} (h : OpenSpans statements start (frame :: frames) before position)
    (found : statements[position]? = some "end") :
    OpenSpans statements start frames (frame.fill before.reverse :: frame.before) (position + 1) := by
  cases h with
  | inside outer head denotes spans =>
      have loop := outer.append (.loop head denotes spans found .nil)
      simpa [Frame.fill] using loop

/-- Wherever a scan has come to, it ends at some position behind, with all that it has passed on the way. -/
theorem exists_stop {frames : List Frame} {before : List Node} {position : Nat}
    (h : OpenSpans statements start frames before position) (bound : position ≤ statements.length) :
    ∃ framesThere beforeThere stop,
      OpenSpans statements start framesThere beforeThere stop ∧ stop ≤ statements.length ∧
        Stops statements framesThere stop (scanFrom statements (frames.map Frame.line) position).ending ∧
        assemble before frames (scanFrom statements (frames.map Frame.line) position).reached =
          plug beforeThere.reverse framesThere := by
  by_cases last : position = statements.length
  · -- nothing is left to scan
    subst last
    rw [scanFrom_length]
    exact ⟨frames, before, _, h, bound, .exhausted rfl, rfl⟩
  · have inside : position < statements.length := by omega
    obtain ⟨text, found⟩ : ∃ text, statements[position]? = some text :=
      ⟨_, List.getElem?_eq_getElem inside⟩
    by_cases blank : text = ""
    · -- an empty statement belongs to the innermost body like any other
      subst blank
      rw [scanFrom_blank found]
      exact exists_stop (h.append (.blank found .nil)) inside
    · by_cases readable : ∃ statement, Denotes text statement
      · rcases readable with ⟨statement, denotes⟩
        cases statement with
        | operation op =>
            rw [scanFrom_denotes _ found denotes rfl]
            exact exists_stop (h.append (.operation found denotes .nil)) inside
        | opening condition =>
            -- what has been passed becomes the front of a new frame
            have deeper : OpenSpans statements start (⟨before, position + 1, condition, []⟩ :: frames) []
                (position + 1) := .inside h found denotes .nil
            rw [scanFrom_denotes _ found denotes rfl]
            exact exists_stop deeper inside
        | closing =>
            obtain rfl := Statement.denotes_closing_iff.1 denotes
            cases frames with
            | nil =>
                rw [List.map_nil, scanFrom_strayEnd found]
                exact ⟨[], before, position, h, bound, .strayEnd rfl found, rfl⟩
            | cons frame frames =>
                rw [List.map_cons, scanFrom_denotes _ found denotes rfl]
                exact exists_stop (h.close found) inside
      · have unreadable : ∀ statement, ¬ Denotes text statement := fun statement denotes =>
          readable ⟨statement, denotes⟩
        rw [scanFrom_unreadable found blank unreadable]
        exact ⟨frames, before, position, h, bound, .unreadable found blank unreadable, rfl⟩
termination_by statements.length - position

/-! ### Depth and readability in front of the position -/

/-- The depth tells the number of open loops. -/
theorem depth_eq (h : OpenSpans statements start frames before position) :
    depth statements position = depth statements start + frames.length := by
  induction h with
  | outside spans => simp [spans.depth_stop]
  | @inside frames outer before head stop text condition path found denotes spans ih =>
      have opened := depth_succ found denotes
      calc
        depth statements stop = depth statements (head + 1) := spans.depth_stop
        _ = depth statements head + 1 := opened
        _ = depth statements start + frames.length + 1 := by rw [ih]
        _ = depth statements start + (frames.length + 1 : Nat) := by simp [Int.add_assoc]

theorem depth_le {earlier : Nat} (h : OpenSpans statements start frames before position)
    (lower : start ≤ earlier) (upper : earlier ≤ position) :
    depth statements start ≤ depth statements earlier := by
  induction h with
  | outside spans => exact spans.depth_le lower upper
  | @inside frames outer before head stop text condition path found denotes spans ih =>
      by_cases inside : earlier ≤ head
      · exact ih inside
      · -- behind the head of the innermost loop at least one more is open
        have opened := depth_succ found denotes
        have level := path.depth_eq
        have inner := spans.depth_le (by omega) upper
        simp only [Statement.rise] at opened
        omega

/-- Every statement in front of the position has its place in the forest, unless it is the head of a loop that
is still open. -/
theorem readable {earlier : Nat} (h : OpenSpans statements start frames before position)
    (lower : start ≤ earlier) (upper : earlier < position) :
    ∃ text, statements[earlier]? = some text ∧ (text = "" ∨ ∃ statement, Denotes text statement) := by
  induction h with
  | outside spans => exact (spans.part lower upper).readable
  | @inside frames outer before head stop text condition path found denotes spans ih =>
      by_cases inside : earlier < head
      · exact ih inside
      · by_cases first : earlier = head
        · subst first
          exact ⟨text, found, .inr ⟨_, denotes⟩⟩
        · exact (spans.part (by omega) upper).readable

end OpenSpans

/-! ## The outcome of a compilation -/

/-- What comes of a program whose scan ends in some way, having passed some nodes. -/
def outcome (mode : Mode) (nodes : List Node) : Ending → Except CompileError Node
  | .unreadable line text => .error (.syntaxError line text)
  | .strayEnd line =>
    match mode with
    | .lenient => .ok (Node.root nodes)
    | .strict => .error (.unexpectedEnd line)
  | .exhausted opened =>
    match mode, opened with
    | .strict, line :: _ => .error (.unterminatedBlock line)
    | _, _ => .ok (Node.root nodes)

/-- Whatever the mode, the tree of a program holds the nodes that its scan has passed. -/
theorem root_eq_of_outcome {mode : Mode} {nodes : List Node} {ending : Ending} {root : Node}
    (h : outcome mode nodes ending = .ok root) : root = Node.root nodes := by
  cases ending with
  | unreadable line text => cases h
  | strayEnd line =>
      cases mode with
      | lenient => exact (Except.ok.inj h).symm
      | strict => cases h
  | exhausted opened =>
      cases mode with
      | lenient => exact (Except.ok.inj h).symm
      | strict =>
          cases opened with
          | nil => exact (Except.ok.inj h).symm
          | cons line opened => cases h

theorem compileStatements_eq (mode : Mode) (statements : List String) :
    compileStatements mode statements =
      outcome mode (assemble [] [] (scanFrom statements [] 0).reached) (scanFrom statements [] 0).ending := by
  have whole : scan [] ((Source.numbered statements).drop 0) = scanFrom statements [] 0 := rfl
  -- a block that starts at the first statement is read by the scan of the whole program
  unfold compileStatements Block.read
  rw [whole]
  rcases scanFrom statements [] 0 with ⟨reached, ending⟩
  cases ending with
  | unreadable line text => rfl
  | strayEnd line => cases mode <;> rfl
  | exhausted opened => cases mode <;> cases opened <;> rfl

/-- Every compilation ends at some position, with the loops that are open there; what is found there decides
on the outcome. -/
theorem compileStatements_cases (statements : List String) :
    ∃ frames before stop ending,
      OpenSpans statements 0 frames before stop ∧ stop ≤ statements.length ∧
        Stops statements frames stop ending ∧
        ∀ mode, compileStatements mode statements = outcome mode (plug before.reverse frames) ending := by
  have start : OpenSpans statements 0 [] [] 0 := .outside .nil
  rcases start.exists_stop (Nat.zero_le _) with ⟨frames, before, stop, path, bound, stops, nodes⟩
  refine ⟨frames, before, stop, _, path, bound, stops, ?_⟩
  intro mode
  rw [compileStatements_eq, ← nodes]
  rfl

/-- A scan of the whole program comes to any position with the loops that are open there. -/
theorem OpenSpans.scan {statements : List String} {frames : List Frame} {before : List Node} {position : Nat}
    (h : OpenSpans statements 0 frames before position) :
    (scanFrom statements [] 0).ending = (scanFrom statements (frames.map Frame.line) position).ending ∧
      assemble [] [] (scanFrom statements [] 0).reached =
        assemble before frames (scanFrom statements (frames.map Frame.line) position).reached := by
  induction h with
  | outside spans => simpa using spans.scan [] [] []
  | @inside frames outer before head stop text condition path found denotes spans ih =>
      -- the head is scanned where the body around it is left, and then the innermost body
      have inner := spans.scan ((head + 1) :: frames.map Frame.line) []
        (⟨outer, head + 1, condition, []⟩ :: frames)
      rw [scanFrom_denotes _ found denotes rfl] at ih
      simp only [Scan.cons, assemble] at ih
      simp only [List.reverse_reverse, List.append_nil] at inner
      exact ⟨ih.1.trans inner.1, ih.2.trans inner.2⟩

/-- The outcome of a compilation, told from any position where a scan has to end. -/
theorem OpenSpans.compileStatements_eq {statements : List String} {frames : List Frame} {before : List Node}
    {stop : Nat} {ending : Ending} (h : OpenSpans statements 0 frames before stop)
    (stops : Stops statements frames stop ending) (mode : Mode) :
    compileStatements mode statements = outcome mode (plug before.reverse frames) ending := by
  have passed := h.scan
  rw [CounterLang.compileStatements_eq, passed.1, passed.2]
  cases stops with
  | exhausted last =>
      subst last
      rw [scanFrom_length]
      rfl
  | unreadable found nonempty unreadable =>
      rw [scanFrom_unreadable found nonempty unreadable]
      rfl
  | strayEnd none found =>
      subst none
      rw [List.map_nil, scanFrom_strayEnd found]
      rfl

/-- A program that a forest spans from its first statement to its last has this forest as its tree. -/
theorem Spans.compileStatements_ok {statements : List String} {nodes : List Node}
    (h : Spans statements 0 nodes statements.length) (mode : Mode) :
    compileStatements mode statements = .ok (Node.root nodes) := by
  have path : OpenSpans statements 0 [] nodes.reverse statements.length := .outside (by simpa using h)
  rw [path.compileStatements_eq (.exhausted rfl) mode]
  cases mode <;> simp [outcome, plug]

/-- Strict mode accepts a program just if a forest spans it, and that forest is its tree. -/
theorem compileStatements_strict_ok {statements : List String} {root : Node} :
    compileStatements .strict statements = .ok root ↔
      ∃ nodes, Spans statements 0 nodes statements.length ∧ root = Node.root nodes := by
  constructor
  · intro h
    rcases compileStatements_cases statements with ⟨frames, before, stop, ending, path, _, stops, result⟩
    have ok := (result .strict).symm.trans h
    obtain rfl := root_eq_of_outcome ok
    -- of all ways to stop, strict mode lets pass but one: at the end, and with no loop open
    cases stops with
    | unreadable _ _ _ => cases ok
    | strayEnd _ _ => cases ok
    | exhausted last =>
        subst last
        cases path with
        | outside spans => exact ⟨_, spans, rfl⟩
        | inside _ _ _ _ => cases ok
  · rintro ⟨nodes, spans, rfl⟩
    exact spans.compileStatements_ok .strict

end CounterLang
