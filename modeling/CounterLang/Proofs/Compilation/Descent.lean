import CounterLang.Compilation.Log
import CounterLang.Proofs.Compilation.Faults
import CounterLang.Proofs.Statement.Acceptance

/-!
# Descent — reading blocks one inside the other

A block can be read by a function that calls itself for the body of each loop, and goes on behind the positions that
the body takes up.  Here this function is written down with all that could go wrong on the way: an index may lie
behind the end of a list, a keyword may belong to no operation, and a block may seem to end in front of its start.
None of this happens, and the function reads the same blocks as `Block.read`.

The function also reports what it does, at the time when it does it: a statement when it has been read, before anything
is made of it, and in lenient mode a loop that stays open, on the way back from its body.

- `Breach`                : what must not happen
- `Descent.follow`        : what is done at a single statement
- `descend?`              : the function, with a bound on the depth of its calls
- `Descends`              : what it comes to, under every bound that is large enough
- `Source.told`           : the reports on the statements from a position up to another
- `descend?_append`       : a log and a body are only appended to
- `Spans.descends`        : the function passes a span, and puts the forest of the span behind what it has
- `OpenSpans.descends_obstacle`, `OpenSpans.descends_exhausted`, `OpenSpans.descends_unterminated` : how it comes out
  of the loops that are open
-/

namespace CounterLang

open Statement (Denotes)
open Source

/-! ## The function -/

/-- What must not happen while a block is read. -/
inductive Breach
  /-- There is no statement at a position. -/
  | statement
  /-- There is no word at an index. -/
  | word
  /-- A word that ought to name an operation does not. -/
  | keyword
  /-- A block ends in front of the position where it starts. -/
  | underflow
  deriving DecidableEq, Repr

/-- Why a block is not read to its end. -/
inductive Obstacle
  | refused (error : CompileError)
  | breach (breach : Breach)
  deriving DecidableEq, Repr

/-- What has become of the log and of a body, and how the block of the body ends. -/
structure Descent where
  log : List Scan.Notice
  body : List Node
  result : Except Obstacle BlockEnd

namespace Descent

/-- The word at an index. -/
def word (tokens : List Token) (index : Nat) : Except Obstacle Token :=
  match tokens[index]? with
  | some token => .ok token
  | none => .error (.breach .word)

/-- The operation that a keyword and a target stand for. -/
def operation (keyword target : Token) : Except Obstacle Statement :=
  match Operation.unary? keyword.text target.text with
  | some op => .ok (.operation op)
  | none => .error (.breach .keyword)

/-- What the words of a statement say by a rule that accepts them. -/
def ofTokens (rule : Rule) (tokens : List Token) : Except Obstacle Statement := do
  let keyword ← word tokens rule.key
  match rule.production with
  | .operation => operation keyword (← word tokens 1)
  | .control comparison =>
    let left ← word tokens 1
    let right ← word tokens 3
    return .opening (.compare comparison (.parse left.text) (.parse right.text))
  | .close => return .closing

/-- What the statement on a line says. -/
def readLine (line : Nat) (text : String) : Except Obstacle Statement :=
  match Grammar.lookup? (Token.ofStatement text) with
  | none => .error (.refused (.syntaxError line text))
  | some rule => ofTokens rule (Token.ofStatement text)

/-- What is done at a statement, given the function that goes on with a log and a body, from a position of the block
that starts at another one. -/
def follow (mode : Mode) (size : Nat) (next : List Scan.Notice → List Node → Nat → Nat → Option Descent)
    (log : List Scan.Notice) (body : List Node) (start position : Nat) : Statement → Option Descent
  | .operation op =>
    next (log ++ [.operation (position + 1) op]) (body ++ [.operation (position + 1) op]) start (position + 1)
  | .opening condition =>
    match next (log ++ [.blockOpened (position + 1) condition]) [] (position + 1) (position + 1) with
    | none => none
    | some ⟨log, _, .error obstacle⟩ => some ⟨log, body, .error obstacle⟩
    | some ⟨log, children, .ok (.closed consumed)⟩ =>
      next log (body ++ [.loop (position + 1) condition children]) start (position + 1 + consumed)
    | some ⟨log, children, .ok .exhausted⟩ =>
      match mode with
      | .strict =>
        some ⟨log, body ++ [.loop (position + 1) condition children],
          .error (.refused (.unterminatedBlock (position + 1)))⟩
      | .lenient =>
        next (log ++ [.neverClosed (position + 1)]) (body ++ [.loop (position + 1) condition children]) start size
  | .closing =>
    if start ≤ position then
      some ⟨log ++ [.blockClosed (position + 1)], body, .ok (.closed (position - start + 1))⟩
    else some ⟨log ++ [.blockClosed (position + 1)], body, .error (.breach .underflow)⟩

end Descent

/-- Reads the block that starts behind the first `start` statements, from a position of it on, into a body.  There is
no result if the bound is too small. -/
def descend? (mode : Mode) (statements : List String) :
    Nat → List Scan.Notice → List Node → Nat → Nat → Option Descent
  | 0, _, _, _, _ => none
  | bound + 1, log, body, start, position =>
    if position < statements.length then
      match statements[position]? with
      | none => some ⟨log, body, .error (.breach .statement)⟩
      | some text =>
        if text = "" then descend? mode statements bound log body start (position + 1)
        else
          match Descent.readLine (position + 1) text with
          | .error obstacle => some ⟨log, body, .error obstacle⟩
          | .ok statement =>
            Descent.follow mode statements.length (descend? mode statements bound) log body start position statement
    else some ⟨log, body, .ok .exhausted⟩

/-- The body of a loop takes up its end as well. -/
example :
    (descend? .strict ["while x not 1 do", "incr x", "end", "end"] 9 [] [] 0 0).map Descent.result =
      some (.ok (.closed 4)) := rfl

/-- What the function comes to, under every bound that is large enough for the statements that are left. -/
def Descends (mode : Mode) (statements : List String) (start position : Nat) (log : List Scan.Notice)
    (body : List Node) (descent : Descent) : Prop :=
  ∀ bound, statements.length - position < bound →
    descend? mode statements bound log body start position = some descent

/-- A statement that is not empty and that no rule accepts. -/
def Ruleless (text : String) : Prop :=
  text ≠ "" ∧ Grammar.lookup? (Token.ofStatement text) = none

instance (text : String) : Decidable (Ruleless text) :=
  inferInstanceAs (Decidable (_ ∧ _))

section
variable {mode : Mode} {statements : List String} {start position stop : Nat} {body nodes : List Node} {text : String}
  {descent : Descent}

/-! ## Statements -/

/-- The rules accept just the statements that denote something. -/
theorem lookup?_eq_none_iff :
    Grammar.lookup? (Token.ofStatement text) = none ↔ ∀ statement, ¬ Denotes text statement := by
  constructor
  · intro none statement denotes
    rcases denotes.inWords.exists_rule with ⟨rule, mem, accepts, _⟩
    exact Grammar.accepts_of_lookup?_eq_none none rule mem accepts
  · intro unreadable
    cases found : Grammar.lookup? (Token.ofStatement text) with
    | none => rfl
    | some rule =>
        have production : (Grammar.lookup? (Token.ofStatement text)).map Rule.production = some rule.production :=
          congrArg (Option.map Rule.production) found
        rcases Statement.production?_eq_some_iff.1 production with ⟨statement, denotes, _⟩
        exact absurd denotes (unreadable statement)

theorem ruleless_iff : Ruleless text ↔ text ≠ "" ∧ ∀ statement, ¬ Denotes text statement :=
  and_congr_right fun _ => lookup?_eq_none_iff

/-- A rule names a word of its own pattern. -/
theorem Grammar.key_lt : ∀ rule ∈ Grammar.rules, rule.key < rule.pattern.length := by
  decide

theorem Descent.word_of_getElem? {tokens : List Token} {index : Nat} {token : Token}
    (found : tokens[index]? = some token) : word tokens index = .ok token := by
  rw [word, found]

/-- A statement that denotes something is read as just that, and none of its words is missed. -/
theorem Descent.readLine_of_denotes {statement : Statement} (denotes : Denotes text statement) (line : Nat) :
    readLine line text = .ok statement := by
  have read := Statement.parse?_eq_some_iff.2 denotes
  unfold Statement.parse? Statement.ofTokens? at read
  rw [readLine]
  generalize Token.ofStatement text = tokens at read ⊢
  cases found : Grammar.lookup? tokens with
  | none => simp [found] at read
  | some rule =>
      rcases Grammar.lookup?_eq_some found with ⟨listed, accepted⟩
      -- the rule names a word of its pattern, and so there is such a word
      have same : tokens.map Token.kind = rule.pattern := eq_of_beq accepted
      have inside : rule.key < tokens.length := by
        rw [← List.length_map Token.kind, same]
        exact Grammar.key_lt rule listed
      have keyword := word_of_getElem? (List.getElem?_eq_getElem inside)
      rw [found, Option.bind_eq_bind, Option.bind_some] at read
      rcases rule with ⟨key, pattern, production⟩
      cases production with
      | operation =>
          rcases Option.bind_eq_some_iff.1 read with ⟨first, foundFirst, read⟩
          rcases Option.bind_eq_some_iff.1 read with ⟨target, foundTarget, read⟩
          rcases Option.bind_eq_some_iff.1 read with ⟨op, unary, read⟩
          obtain rfl := Option.some.inj read
          simp [ofTokens, word_of_getElem? foundFirst, word_of_getElem? foundTarget, operation, unary, bind,
            Except.bind]
      | control comparison =>
          rcases Option.bind_eq_some_iff.1 read with ⟨left, foundLeft, read⟩
          rcases Option.bind_eq_some_iff.1 read with ⟨right, foundRight, read⟩
          obtain rfl := Option.some.inj read
          simp [ofTokens, keyword, word_of_getElem? foundLeft, word_of_getElem? foundRight, bind, Except.bind, pure,
            Except.pure]
      | close =>
          obtain rfl := Option.some.inj read
          simp [ofTokens, keyword, bind, Except.bind, pure, Except.pure]

theorem Descent.readLine_of_unreadable (unreadable : ∀ statement, ¬ Denotes text statement) (line : Nat) :
    readLine line text = .error (.refused (.syntaxError line text)) := by
  rw [readLine, lookup?_eq_none_iff.2 unreadable]

/-! ## The reports on some statements -/

/-- The report on the statement at a position; there is none if it is empty or cannot be read. -/
def Source.noticeAt? (statements : List String) (position : Nat) : Option Scan.Notice :=
  (statements[position]?.bind Statement.parse?).map fun statement => Reached.notice ⟨position + 1, statement⟩

/-- The reports on the statements from a position up to, but without, another. -/
def Source.told (statements : List String) (start stop : Nat) : List Scan.Notice :=
  (List.range' start (stop - start)).filterMap (noticeAt? statements)

theorem Source.told_self (statements : List String) (start : Nat) : told statements start start = [] := by
  simp [told]

theorem Source.told_append (lower : start ≤ position) (upper : position ≤ stop) :
    told statements start position ++ told statements position stop = told statements start stop := by
  have whole : stop - start = (position - start) + (stop - position) := by omega
  have middle : position = start + (position - start) := by omega
  rw [told, told, told, whole, ← List.range'_append_1, List.filterMap_append, ← middle]

theorem Source.told_succ (statements : List String) (position : Nat) :
    told statements position (position + 1) = (noticeAt? statements position).toList := by
  rw [told, Nat.add_sub_cancel_left, List.range'_one, List.filterMap_cons]
  cases noticeAt? statements position <;> rfl

theorem Source.told_blank (found : statements[position]? = some "") : told statements position (position + 1) = [] := by
  have unread : Statement.parse? "" = none := rfl
  rw [told_succ, noticeAt?, found, Option.bind_some, unread]
  rfl

theorem Source.told_denotes {statement : Statement} (found : statements[position]? = some text)
    (denotes : Denotes text statement) :
    told statements position (position + 1) = [Reached.notice ⟨position + 1, statement⟩] := by
  rw [told_succ, noticeAt?, found, Option.bind_some, Statement.parse?_eq_some_iff.2 denotes]
  rfl

theorem Source.told_opening {condition : Condition} (found : statements[position]? = some text)
    (denotes : Denotes text (.opening condition)) :
    told statements position (position + 1) = [.blockOpened (position + 1) condition] :=
  told_denotes found denotes

/-- What has been told up to a position is told on from there. -/
theorem Source.append_told (log : List Scan.Notice) (lower : start ≤ position) (upper : position ≤ stop) :
    log ++ told statements start position ++ told statements position stop = log ++ told statements start stop := by
  rw [List.append_assoc, told_append lower upper]

/-! ## A log and a body are only appended to -/

/-- The same descent, with reports in front of its log and nodes in front of its body. -/
def Descent.behind (earlier : List Scan.Notice) (front : List Node) (descent : Descent) : Descent :=
  { descent with log := earlier ++ descent.log, body := front ++ descent.body }

/-- What is done at a statement only appends to a log and a body, if the function that goes on does. -/
theorem Descent.follow_append {size : Nat} {next : List Scan.Notice → List Node → Nat → Nat → Option Descent}
    {earlier : List Scan.Notice}
    (appends : ∀ front log body start position,
      next (earlier ++ log) (front ++ body) start position = (next log body start position).map (behind earlier front))
    (front : List Node) (log : List Scan.Notice) (body : List Node) (start position : Nat) (statement : Statement) :
    follow mode size next (earlier ++ log) (front ++ body) start position statement =
      (follow mode size next log body start position statement).map (behind earlier front) := by
  cases statement with
  | operation op =>
      simp only [follow, List.append_assoc]
      exact appends ..
  | opening condition =>
      -- the children are read into an empty body, whatever stands in front of the loop
      have inner : next (earlier ++ (log ++ [.blockOpened (position + 1) condition])) [] (position + 1) (position + 1) =
          (next (log ++ [.blockOpened (position + 1) condition]) [] (position + 1) (position + 1)).map
            (behind earlier []) := appends [] _ [] _ _
      simp only [follow, List.append_assoc]
      rw [inner]
      cases next (log ++ [.blockOpened (position + 1) condition]) [] (position + 1) (position + 1) with
      | none => rfl
      | some descent =>
          rcases descent with ⟨told, children, obstacle | consumed | _⟩
          · rfl
          · exact appends ..
          · cases mode with
            | strict => rfl
            | lenient =>
                simp only [Option.map_some, behind, List.append_assoc]
                exact appends ..
  | closing =>
      simp only [follow, List.append_assoc]
      split <;> rfl

/-- What has been in a log and in a body before stays in front of them. -/
theorem descend?_append (earlier log : List Scan.Notice) (front body : List Node) (bound start position : Nat) :
    descend? mode statements bound (earlier ++ log) (front ++ body) start position =
      (descend? mode statements bound log body start position).map (Descent.behind earlier front) := by
  induction bound generalizing front log body start position with
  | zero => rfl
  | succ bound ih =>
      rw [descend?, descend?]
      split
      next inside =>
        split
        next _ => rfl
        next text _ =>
          split
          next blank => exact ih log front body start (position + 1)
          next nonempty =>
            split
            next obstacle _ => rfl
            next statement _ =>
              exact Descent.follow_append (fun front log => ih log front) front log body start position statement
      next _ => rfl

/-! ## Steps -/

variable {log : List Scan.Notice}

namespace Descends

variable {logged : List Scan.Notice} {condition : Condition} {children : List Node} {consumed : Nat}
  {obstacle : Obstacle}

/-- Inside of a program there is one step more than the steps behind it need. -/
theorem of_succ (inside : position < statements.length)
    (h : ∀ bound, statements.length - (position + 1) < bound →
      descend? mode statements (bound + 1) log body start position = some descent) :
    Descends mode statements start position log body descent := by
  intro bound large
  cases bound with
  | zero => omega
  | succ bound => exact h bound (by omega)

theorem exhausted (start : Nat) (log : List Scan.Notice) (body : List Node) :
    Descends mode statements start statements.length log body ⟨log, body, .ok .exhausted⟩ := by
  intro bound large
  cases bound with
  | zero => omega
  | succ bound => simp [descend?]

theorem blank (found : statements[position]? = some "")
    (h : Descends mode statements start (position + 1) log body descent) :
    Descends mode statements start position log body descent := by
  have inside := (List.getElem?_eq_some_iff.1 found).1
  refine of_succ inside fun bound large => ?_
  rw [descend?, if_pos inside, found]
  exact h bound large

theorem unreadable (start : Nat) (log : List Scan.Notice) (body : List Node) (found : statements[position]? = some text)
    (nonempty : text ≠ "") (unreadable : ∀ statement, ¬ Denotes text statement) :
    Descends mode statements start position log body
      ⟨log, body, .error (.refused (.syntaxError (position + 1) text))⟩ := by
  have inside := (List.getElem?_eq_some_iff.1 found).1
  refine of_succ inside fun bound large => ?_
  rw [descend?, if_pos inside, found]
  simp only [if_neg nonempty, Descent.readLine_of_unreadable unreadable]

/-- At a statement that denotes something, what it denotes is followed. -/
theorem of_denotes {statement : Statement} (found : statements[position]? = some text)
    (denotes : Denotes text statement)
    (h : ∀ bound, statements.length - (position + 1) < bound →
      Descent.follow mode statements.length (descend? mode statements bound) log body start position statement =
        some descent) :
    Descends mode statements start position log body descent := by
  have inside := (List.getElem?_eq_some_iff.1 found).1
  have nonempty : text ≠ "" := by
    rintro rfl
    exact Statement.not_denotes_empty statement denotes
  refine of_succ inside fun bound large => ?_
  rw [descend?, if_pos inside, found]
  simp only [if_neg nonempty, Descent.readLine_of_denotes denotes]
  exact h bound large

theorem operation {op : Operation} (found : statements[position]? = some text)
    (denotes : Denotes text (.operation op))
    (h : Descends mode statements start (position + 1) (log ++ told statements position (position + 1))
      (body ++ [.operation (position + 1) op]) descent) :
    Descends mode statements start position log body descent := by
  rw [told_denotes found denotes] at h
  exact of_denotes found denotes h

theorem closing (log : List Scan.Notice) (body : List Node) (found : statements[position]? = some "end")
    (lower : start ≤ position) :
    Descends mode statements start position log body
      ⟨log ++ told statements position (position + 1), body, .ok (.closed (position - start + 1))⟩ := by
  rw [told_denotes found .closing]
  exact of_denotes found .closing fun _ _ => if_pos lower

/-- Behind a loop that is closed the block goes on. -/
theorem opening_closed (found : statements[position]? = some text) (denotes : Denotes text (.opening condition))
    (inner : Descends mode statements (position + 1) (position + 1)
      (log ++ told statements position (position + 1)) [] ⟨logged, children, .ok (.closed consumed)⟩)
    (h : Descends mode statements start (position + 1 + consumed) logged
      (body ++ [.loop (position + 1) condition children]) descent) :
    Descends mode statements start position log body descent := by
  rw [told_opening found denotes] at inner
  refine of_denotes found denotes fun bound large => ?_
  rw [Descent.follow, inner bound large]
  exact h bound (by omega)

/-- What is in the way in a body is in the way of the block around it. -/
theorem opening_obstacle (body : List Node) (found : statements[position]? = some text)
    (denotes : Denotes text (.opening condition))
    (inner : Descends mode statements (position + 1) (position + 1)
      (log ++ told statements position (position + 1)) [] ⟨logged, children, .error obstacle⟩) :
    Descends mode statements start position log body ⟨logged, body, .error obstacle⟩ := by
  rw [told_opening found denotes] at inner
  refine of_denotes found denotes fun bound large => ?_
  rw [Descent.follow, inner bound large]

theorem opening_exhausted_strict (body : List Node) (found : statements[position]? = some text)
    (denotes : Denotes text (.opening condition))
    (inner : Descends .strict statements (position + 1) (position + 1)
      (log ++ told statements position (position + 1)) [] ⟨logged, children, .ok .exhausted⟩) :
    Descends .strict statements start position log body
      ⟨logged, body ++ [.loop (position + 1) condition children],
        .error (.refused (.unterminatedBlock (position + 1)))⟩ := by
  rw [told_opening found denotes] at inner
  refine of_denotes found denotes fun bound large => ?_
  rw [Descent.follow, inner bound large]

/-- In lenient mode a loop that stays open is reported on the way back from its body. -/
theorem opening_exhausted_lenient (body : List Node) (found : statements[position]? = some text)
    (denotes : Denotes text (.opening condition))
    (inner : Descends .lenient statements (position + 1) (position + 1)
      (log ++ told statements position (position + 1)) [] ⟨logged, children, .ok .exhausted⟩) :
    Descends .lenient statements start position log body
      ⟨logged ++ [.neverClosed (position + 1)], body ++ [.loop (position + 1) condition children],
        .ok .exhausted⟩ := by
  rw [told_opening found denotes] at inner
  refine of_denotes found denotes fun bound large => ?_
  rw [Descent.follow, inner bound large]
  -- there is nothing left behind the loop, so that any bound is large enough
  exact exhausted start _ _ bound (by omega)

end Descends

/-! ## Spans and open spans -/

/-- A span is passed: its statements are reported, and its forest comes behind what is there. -/
theorem Spans.descends (h : Spans statements position nodes stop) (log : List Scan.Notice) (body : List Node)
    (further : Descends mode statements start stop (log ++ told statements position stop) (body ++ nodes) descent) :
    Descends mode statements start position log body descent := by
  induction h generalizing log body start descent with
  | nil => simpa [told_self] using further
  | @blank position stop nodes found rest ih =>
      rw [← append_told log (Nat.le_succ position) rest.le, told_blank found, List.append_nil] at further
      exact .blank found (ih log body further)
  | @operation position stop nodes text op found denotes rest ih =>
      rw [← append_told log (Nat.le_succ position) rest.le] at further
      exact .operation found denotes (ih _ _ (by simpa using further))
  | @loop head close stop children nodes text condition found denotes inner close' rest ihChildren ihRest =>
      have lower := inner.le
      have upper := rest.le
      -- the end of the loop is the end of the block that its body is
      have ended : Descends mode statements (head + 1) close (log ++ told statements head close) children _ :=
        .closing _ _ close' lower
      rw [append_told log (by omega) (Nat.le_succ close), ← append_told log (Nat.le_succ head) lower] at ended
      have behind : head + 1 + (close - (head + 1) + 1) = close + 1 := by omega
      refine .opening_closed found denotes (ihChildren _ [] ended) ?_
      rw [← append_told log (by omega : head ≤ close + 1) upper] at further
      rw [behind]
      exact ihRest _ _ (by simpa using further)

/-! ### Loops that stay open -/

variable {frames : List Frame} {before : List Node}

/-- The position where the innermost of some open blocks starts: behind the head of its loop. -/
def innerStart (start : Nat) : List Frame → Nat
  | [] => start
  | frame :: _ => frame.line

/-- The warnings about some loops that stay open, innermost first. -/
def Frame.warnings (frames : List Frame) : List Scan.Notice :=
  frames.map fun frame => .neverClosed frame.line

namespace OpenSpans

variable {logged : List Scan.Notice}

theorem le (h : OpenSpans statements start frames before position) : start ≤ position := by
  induction h with
  | outside spans => exact spans.le
  | inside _ _ _ spans ih => exact Nat.le_trans ih (Nat.le_trans (Nat.le_succ _) spans.le)

/-- The body of a loop is read from its start on, with all that has been reported in front of it. -/
theorem descends_body {outer : List Node} {head : Nat} (path : OpenSpans statements start frames outer head)
    (spans : Spans statements (head + 1) before.reverse stop)
    (further : Descends mode statements (head + 1) stop (log ++ told statements start stop) before.reverse descent) :
    Descends mode statements (head + 1) (head + 1)
      (log ++ told statements start head ++ told statements head (head + 1)) [] descent := by
  have upper := spans.le
  have lower := path.le
  refine spans.descends _ [] ?_
  rw [append_told _ (Nat.le_succ head) upper, append_told log lower (by omega)]
  exact further

/-- What is in the way in the innermost block is in the way of all blocks around it. -/
theorem descends_obstacle {obstacle : Obstacle} (h : OpenSpans statements start frames before position)
    (stuck : Descends mode statements (innerStart start frames) position (log ++ told statements start position)
      before.reverse ⟨logged, body, .error obstacle⟩) :
    ∃ reached, Descends mode statements start start log [] ⟨logged, reached, .error obstacle⟩ := by
  induction h generalizing body with
  | outside spans => exact ⟨body, spans.descends log [] stuck⟩
  | @inside frames outer before head stop text condition path found denotes spans ih =>
      have inner := path.descends_body spans stuck
      exact ih (.opening_obstacle outer.reverse found denotes inner)

/-- In lenient mode the blocks that are open end together where the innermost one does, and on the way back they are
reported one by one. -/
theorem descends_exhausted (h : OpenSpans statements start frames before position)
    (ended : Descends .lenient statements (innerStart start frames) position (log ++ told statements start position)
      before.reverse ⟨logged, body, .ok .exhausted⟩) :
    Descends .lenient statements start start log []
      ⟨logged ++ Frame.warnings frames, plug body frames, .ok .exhausted⟩ := by
  induction h generalizing logged body with
  | outside spans =>
      rw [show Frame.warnings [] = [] from rfl, List.append_nil]
      exact spans.descends log [] ended
  | @inside frames outer before head stop text condition path found denotes spans ih =>
      have inner := path.descends_body spans ended
      have further := ih (.opening_exhausted_lenient outer.reverse found denotes inner)
      rwa [List.append_assoc] at further

/-- In strict mode a block that is open is missed. -/
theorem descends_unterminated {frame : Frame}
    (h : OpenSpans statements start (frame :: frames) before statements.length) (log : List Scan.Notice) :
    ∃ reached, Descends .strict statements start start log []
      ⟨log ++ told statements start statements.length, reached,
        .error (.refused (.unterminatedBlock frame.line))⟩ := by
  cases h with
  | @inside _ outer _ head _ text condition path found denotes spans =>
      have inner : Descends .strict statements (head + 1) (head + 1)
          (log ++ told statements start head ++ told statements head (head + 1)) [] _ :=
        path.descends_body spans (.exhausted _ _ _)
      exact path.descends_obstacle (.opening_exhausted_strict outer.reverse found denotes inner)

end OpenSpans

end
end CounterLang
