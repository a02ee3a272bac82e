import CounterLang.Proofs.Statement.Wording

/-!
# Acceptance — the language that the rules accept

A statement follows a rule of the grammar exactly if it is one of three operations with a name, the head of a loop with
a name and a numeral, or the end of a loop; and it follows no other rule then.  What is a name and what is a numeral is
told from the characters of a word.

- `Numeral.Writes`            : an optional sign and some digits, with the integer that they stand for
- `Numeral.read?_eq_some_iff` : the numerals of numbers in range, and no other texts, denote numbers
- `isName_iff`                : names, told without reading numerals
- `Statement.production?_eq_some_iff` : what the rules say of a text that denotes a statement
- `Grammar.accepts_unique`    : no two rules accept the same words
- `find?_eq_of_perm`          : so they may be listed in any order
- `statement_acceptance`      : the texts that follow each of the rules
-/

namespace CounterLang

/-! ## Numerals -/

namespace Numeral

/-- At least one decimal digit. -/
structure IsDigits (digits : List Char) : Prop where
  nonempty : digits ≠ []
  digit : ∀ c ∈ digits, c.isDigit = true

/-- An optional sign and some digits, and the integer that they stand for. -/
inductive Writes : List Char → Int → Prop where
  | unsigned {digits : List Char} : IsDigits digits → Writes digits (Nat.ofDigitChars 10 digits 0)
  | positive {digits : List Char} : IsDigits digits → Writes ('+' :: digits) (Nat.ofDigitChars 10 digits 0)
  | negative {digits : List Char} : IsDigits digits → Writes ('-' :: digits) (-Nat.ofDigitChars 10 digits 0)

/-- The numeral of a number in the range of signed 64-bit words. -/
def IsNumeral (text : String) : Prop :=
  ∃ value, Writes text.toList value ∧ Int64.minValue.toInt ≤ value ∧ value ≤ Int64.maxValue.toInt

section
variable {digits : List Char} {n : Nat} {i : Int} {value : Int64} {text : String}

theorem magnitude?_eq_some_iff :
    magnitude? digits = some n ↔ IsDigits digits ∧ Nat.ofDigitChars 10 digits 0 = n := by
  unfold magnitude?
  split
  next h =>
    have isDigits : IsDigits digits := by
      simp only [Bool.and_eq_true, Bool.not_eq_true', List.isEmpty_eq_false_iff, List.all_eq_true] at h
      exact ⟨h.1, h.2⟩
    simp [isDigits]
  next h =>
    refine ⟨nofun, ?_⟩
    rintro ⟨isDigits, _⟩
    refine absurd ?_ h
    simp [isDigits.nonempty]
    exact isDigits.digit

theorem word?_eq_some_iff : word? i = some value ↔ value.toInt = i := by
  constructor
  · intro h
    unfold word? at h
    split at h
    · rw [← Option.some.inj h, Int64.toInt_ofIntLE]
    · cases h
  · rintro rfl
    exact word?_toInt value

theorem readChars?_eq_some_iff {chars : List Char} : readChars? chars = some value ↔ Writes chars value.toInt := by
  constructor
  · intro h
    unfold readChars? at h
    split at h
    all_goals
      rcases Option.bind_eq_some_iff.1 h with ⟨n, magnitude, word⟩
      obtain ⟨isDigits, rfl⟩ := magnitude?_eq_some_iff.1 magnitude
      rw [word?_eq_some_iff.1 word]
    · exact .negative isDigits
    · exact .positive isDigits
    · exact .unsigned isDigits
  · generalize written : value.toInt = i
    intro h
    cases h with
    | @unsigned digits isDigits =>
        cases chars with
        | nil => exact absurd rfl isDigits.nonempty
        | cons c cs =>
            rw [readChars?_of_isDigit (isDigits.digit c List.mem_cons_self),
              magnitude?_eq_some_iff.2 ⟨isDigits, rfl⟩]
            exact word?_eq_some_iff.2 written
    | positive isDigits =>
        rw [readChars?, magnitude?_eq_some_iff.2 ⟨isDigits, rfl⟩]
        exact word?_eq_some_iff.2 written
    | negative isDigits =>
        rw [readChars?, magnitude?_eq_some_iff.2 ⟨isDigits, rfl⟩]
        exact word?_eq_some_iff.2 written

/-- A text denotes a number if and only if it writes that number. -/
theorem read?_eq_some_iff : read? text = some value ↔ Writes text.toList value.toInt :=
  readChars?_eq_some_iff

theorem isNumeral_iff : IsNumeral text ↔ ∃ value, read? text = some value := by
  constructor
  · rintro ⟨i, writes, lower, upper⟩
    refine ⟨Int64.ofInt i, read?_eq_some_iff.2 ?_⟩
    rwa [Int64.toInt_ofInt_of_le lower (Int.lt_of_le_sub_one upper)]
  · rintro ⟨value, h⟩
    refine ⟨value.toInt, read?_eq_some_iff.1 h, ?_, ?_⟩
    · exact Int64.minValue_le_toInt value
    · exact Int64.toInt_le value

end
end Numeral

/-- A name is a single word that is neither reserved nor a numeral. -/
theorem isName_iff {word : String} :
    IsName word ↔ ' ' ∉ word.toList ∧ word ∉ reservedWords ∧ ¬ Numeral.IsNumeral word := by
  have free : Numeral.read? word = none ↔ ¬ Numeral.IsNumeral word := by
    rw [Numeral.isNumeral_iff, Option.eq_none_iff_forall_ne_some, not_exists]
  constructor
  · intro isName
    exact ⟨isName.spaceless, isName.notReserved, free.1 isName.notNumeral⟩
  · rintro ⟨spaceless, notReserved, notNumeral⟩
    exact ⟨spaceless, notReserved, free.2 notNumeral⟩

/-! ## Rules -/

namespace Grammar

variable {tokens : List Token} {rule other : Rule}

theorem lookup?_eq_some (found : lookup? tokens = some rule) : rule ∈ rules ∧ rule.accepts tokens = true := by
  unfold lookup? at found
  have accepts := List.find?_some found
  exact ⟨List.mem_of_find?_eq_some found, accepts⟩

theorem accepts_of_lookup?_eq_none (none : lookup? tokens = none) : ∀ rule ∈ rules, rule.accepts tokens ≠ true := by
  unfold lookup? at none
  exact List.find?_eq_none.1 none

/-- No two rules accept the same words. -/
theorem accepts_unique (mem : rule ∈ rules) (memOther : other ∈ rules)
    (accepts : rule.accepts tokens = true) (acceptsOther : other.accepts tokens = true) : rule = other := by
  have distinct : ∀ rule ∈ rules, ∀ other ∈ rules, rule.pattern = other.pattern → rule = other := by decide
  have kinds : tokens.map Token.kind = rule.pattern := eq_of_beq accepts
  have kindsOther : tokens.map Token.kind = other.pattern := eq_of_beq acceptsOther
  exact distinct rule mem other memOther (kinds.symm.trans kindsOther)

end Grammar

/-- Where at most one item of a list meets a condition, it is found wherever it stands. -/
theorem find?_eq_of_perm {α : Type} {condition : α → Bool} {items other : List α} (perm : other.Perm items)
    (unique : ∀ a ∈ items, ∀ b ∈ items, condition a = true → condition b = true → a = b) :
    other.find? condition = items.find? condition := by
  cases found : items.find? condition with
  | none =>
      rw [List.find?_eq_none] at found ⊢
      exact fun a mem => found a (perm.mem_iff.1 mem)
  | some a =>
      have mem := List.mem_of_find?_eq_some found
      have meets := List.find?_some found
      cases here : other.find? condition with
      | none => exact absurd meets (List.find?_eq_none.1 here a (perm.mem_iff.2 mem))
      | some b =>
          have memOther := perm.mem_iff.1 (List.mem_of_find?_eq_some here)
          rw [unique b memOther a mem (List.find?_some here) meets]

/-! ## Statements and their rules -/

namespace Statement

/-- What the rule for a statement says that it is. -/
inductive Follows : Statement → Production → Prop where
  | operation {op : Operation} : Follows (.operation op) .operation
  | opening {comparison : Comparison} {left right : Operand} :
      Follows (.opening (.compare comparison left right)) (.control comparison)
  | closing : Follows .closing .close

theorem Follows.unique {statement : Statement} {a b : Production} (h : statement.Follows a) (h' : statement.Follows b) :
    a = b := by
  cases h <;> cases h' <;> rfl

/-- Words that denote a statement are accepted by a rule for it. -/
theorem WordsDenote.exists_rule {words : List String} {statement : Statement} (h : WordsDenote words statement) :
    ∃ rule ∈ Grammar.rules, rule.accepts (words.map Token.ofWord) = true ∧ statement.Follows rule.production := by
  have operation : ∀ keyword name, TokenKind.ofWord keyword = .unaryOperator → IsName name →
      Rule.accepts ⟨0, [.unaryOperator, .identifier], .operation⟩ ([keyword, name].map Token.ofWord) = true := by
    intro keyword name unary isName
    simp [Rule.accepts, Token.ofWord, unary, kind_of_isName isName]
  cases h with
  | clear isName => exact ⟨_, List.mem_cons_self, operation "clear" _ rfl isName, .operation⟩
  | increment isName => exact ⟨_, List.mem_cons_self, operation "incr" _ rfl isName, .operation⟩
  | decrement isName => exact ⟨_, List.mem_cons_self, operation "decr" _ rfl isName, .operation⟩
  | @opening name number value isName isNumber =>
      have numeral : TokenKind.ofWord number = .literal := TokenKind.ofWord_eq_literal.2 ⟨value, isNumber⟩
      refine ⟨⟨0, [.control, .identifier, .negation, .literal, .opener], .control .notEqual⟩, by decide, ?_, .opening⟩
      simp only [Rule.accepts, Token.ofWord, List.map_cons, List.map_nil, kind_of_isName isName, numeral]
      rfl
  | closing => exact ⟨⟨0, [.closer], .close⟩, by decide, rfl, .closing⟩

/-- The rule that is found for a text is the one for the statement that the text denotes. -/
theorem production?_eq_some_iff {text : String} {production : Production} :
    (Grammar.lookup? (Token.ofStatement text)).map Rule.production = some production ↔
      ∃ statement, Denotes text statement ∧ statement.Follows production := by
  -- a rule that accepts the words is the one that is found, since no other rule accepts them
  have sameRule : ∀ statement, Denotes text statement → ∀ rule, Grammar.lookup? (Token.ofStatement text) = some rule →
      statement.Follows rule.production := by
    intro statement denotes rule found
    obtain ⟨listed, accepted⟩ := Grammar.lookup?_eq_some found
    rcases denotes.inWords.exists_rule with ⟨other, mem, accepts, follows⟩
    rwa [Grammar.accepts_unique listed mem accepted accepts]
  constructor
  · intro h
    obtain ⟨rule, found, rfl⟩ := Option.map_eq_some_iff.1 h
    obtain ⟨listed, accepted⟩ := Grammar.lookup?_eq_some found
    have kinds : (Text.pieces ' ' text).map TokenKind.ofWord = rule.pattern := by
      simpa [Rule.accepts, Token.ofStatement, Function.comp_def, Token.ofWord] using accepted
    rcases exists_wordsDenote (fun word mem => Text.notMem_of_mem_pieces mem) listed kinds with ⟨statement, inWords⟩
    have denotes : Denotes text statement := denotes_iff_words.2 inWords
    exact ⟨statement, denotes, sameRule statement denotes rule found⟩
  · rintro ⟨statement, denotes, follows⟩
    cases found : Grammar.lookup? (Token.ofStatement text) with
    | none =>
        rcases denotes.inWords.exists_rule with ⟨rule, mem, accepts, _⟩
        exact absurd accepts (Grammar.accepts_of_lookup?_eq_none found rule mem)
    | some rule => rw [Option.map_some, (sameRule statement denotes rule found).unique follows]

/-! ## The texts that are accepted -/

/-- The text of an operation, in two words. -/
structure IsOperation (text keyword name : String) : Prop where
  known : keyword ∈ ["clear", "incr", "decr"]
  isName : IsName name
  spelled : text = keyword ++ " " ++ name

/-- The text of the head of a loop, with two words of its own. -/
structure IsHead (text name number : String) : Prop where
  isName : IsName name
  isNumeral : Numeral.IsNumeral number
  spelled : text = "while " ++ name ++ " not " ++ number ++ " do"

section
variable {text keyword keyword' name name' number number' : String}

theorem exists_isOperation_iff :
    (∃ keyword name, IsOperation text keyword name) ↔ ∃ statement, Denotes text statement ∧ statement.Follows .operation := by
  constructor
  · rintro ⟨keyword, name, known, isName, rfl⟩
    simp only [List.mem_cons, List.not_mem_nil, or_false] at known
    rcases known with rfl | rfl | rfl
    · exact ⟨_, .clear isName, .operation⟩
    · exact ⟨_, .increment isName, .operation⟩
    · exact ⟨_, .decrement isName, .operation⟩
  · rintro ⟨_, denotes, ⟨⟩⟩
    cases denotes with
    | clear isName => exact ⟨"clear", _, by simp, isName, rfl⟩
    | increment isName => exact ⟨"incr", _, by simp, isName, rfl⟩
    | decrement isName => exact ⟨"decr", _, by simp, isName, rfl⟩

theorem exists_isHead_iff :
    (∃ name number, IsHead text name number) ↔
      ∃ statement, Denotes text statement ∧ statement.Follows (.control .notEqual) := by
  constructor
  · rintro ⟨name, number, isName, isNumeral, rfl⟩
    obtain ⟨value, isNumber⟩ := Numeral.isNumeral_iff.1 isNumeral
    exact ⟨_, .opening isName isNumber, .opening⟩
  · rintro ⟨_, denotes, ⟨⟩⟩
    cases denotes with
    | opening isName isNumber => exact ⟨_, _, isName, Numeral.isNumeral_iff.2 ⟨_, isNumber⟩, rfl⟩

/-- The words of an operation are its keyword and its name. -/
theorem IsOperation.tokens (h : IsOperation text keyword name) :
    Token.ofStatement text = [⟨.unaryOperator, keyword⟩, ⟨.identifier, name⟩] := by
  obtain ⟨known, isName, rfl⟩ := h
  have unary : TokenKind.ofWord keyword = .unaryOperator ∧ ' ' ∉ keyword.toList := by
    simp only [List.mem_cons, List.not_mem_nil, or_false] at known
    rcases known with rfl | rfl | rfl <;> decide
  rw [Token.ofStatement, words_operation keyword unary.2 (by simp) isName]
  simp [Token.ofWord, unary.1, kind_of_isName isName]

/-- They are handed on to the operation. -/
theorem IsOperation.parse? (h : IsOperation text keyword name) :
    ∃ op, Operation.unary? keyword name = some op ∧ Statement.parse? text = some (.operation op) := by
  obtain ⟨known, isName, rfl⟩ := h
  simp only [List.mem_cons, List.not_mem_nil, or_false] at known
  rcases known with rfl | rfl | rfl
  · exact ⟨_, rfl, parse?_eq_some_iff.2 (.clear isName)⟩
  · exact ⟨_, rfl, parse?_eq_some_iff.2 (.increment isName)⟩
  · exact ⟨_, rfl, parse?_eq_some_iff.2 (.decrement isName)⟩

/-- The head of a loop has five words, of which three are always the same. -/
theorem IsHead.tokens (h : IsHead text name number) :
    Token.ofStatement text =
      [⟨.control, "while"⟩, ⟨.identifier, name⟩, ⟨.negation, "not"⟩, ⟨.literal, number⟩, ⟨.opener, "do"⟩] := by
  obtain ⟨isName, isNumeral, rfl⟩ := h
  obtain ⟨value, isNumber⟩ := Numeral.isNumeral_iff.1 isNumeral
  have numeral : TokenKind.ofWord number = .literal := TokenKind.ofWord_eq_literal.2 ⟨value, isNumber⟩
  rw [Token.ofStatement, words_opening isName isNumber]
  simp only [List.map_cons, List.map_nil, Token.ofWord, kind_of_isName isName, numeral]
  rfl

/-- The other two are handed on to the condition. -/
theorem IsHead.parse? (h : IsHead text name number) :
    Statement.parse? text = some (.opening (.compare .notEqual (.parse name) (.parse number))) := by
  obtain ⟨isName, isNumeral, rfl⟩ := h
  obtain ⟨value, isNumber⟩ := Numeral.isNumeral_iff.1 isNumeral
  have left : Operand.parse name = .var name := by simp [Operand.parse, isName.notNumeral]
  have right : Operand.parse number = .literal value := by simp [Operand.parse, isNumber]
  rw [left, right]
  exact parse?_eq_some_iff.2 (.opening isName isNumber)

theorem IsOperation.unique (h : IsOperation text keyword name) (h' : IsOperation text keyword' name') :
    keyword = keyword' ∧ name = name' := by
  have same := h.tokens.symm.trans h'.tokens
  simpa using same

theorem IsHead.unique (h : IsHead text name number) (h' : IsHead text name' number') :
    name = name' ∧ number = number' := by
  have same := h.tokens.symm.trans h'.tokens
  simpa using same

end
end Statement

open Statement (IsOperation IsHead)

/-- A text follows the rule for operations, for heads of loops, or for ends of loops exactly if it is put together in
one of three ways, and follows no rule otherwise.  Its name and its number are its own, and they are what the operation
or the condition is made from.  A name is any single word that is neither reserved nor a numeral.  Whatever the kinds
of some words are, at most one rule accepts them, so that the order of the rules does not matter. -/
theorem statement_acceptance :
    (∀ text : String,
      let production? := (Grammar.lookup? (Token.ofStatement text)).map Rule.production
      (production? = some .operation ↔ ∃ keyword name, IsOperation text keyword name) ∧
        (production? = some (.control .notEqual) ↔ ∃ name number, IsHead text name number) ∧
        (production? = some .close ↔ text = "end") ∧
        ∀ production, production? = some production → production ∈ [.operation, .control .notEqual, .close]) ∧
      (∀ text keyword name, IsOperation text keyword name →
        Token.ofStatement text = [⟨.unaryOperator, keyword⟩, ⟨.identifier, name⟩] ∧
          (∃ op, Operation.unary? keyword name = some op ∧ Statement.parse? text = some (.operation op)) ∧
          ∀ keyword' name', IsOperation text keyword' name' → keyword = keyword' ∧ name = name') ∧
      (∀ text name number, IsHead text name number →
        Token.ofStatement text =
            [⟨.control, "while"⟩, ⟨.identifier, name⟩, ⟨.negation, "not"⟩, ⟨.literal, number⟩, ⟨.opener, "do"⟩] ∧
          Statement.parse? text = some (.opening (.compare .notEqual (.parse name) (.parse number))) ∧
          ∀ name' number', IsHead text name' number' → name = name' ∧ number = number') ∧
      (∀ word, IsName word ↔ ' ' ∉ word.toList ∧ word ∉ reservedWords ∧ ¬ Numeral.IsNumeral word) ∧
      ∀ tokens : List Token,
        (∀ rule ∈ Grammar.rules, ∀ other ∈ Grammar.rules,
          rule.accepts tokens = true → other.accepts tokens = true → rule = other) ∧
        ∀ table : List Rule, table.Perm Grammar.rules →
          table.find? (·.accepts tokens) = Grammar.lookup? tokens := by
  refine ⟨?_, ?_, ?_, fun word => isName_iff, ?_⟩
  · intro text production?
    refine ⟨?_, ?_, ?_, ?_⟩
    · exact Statement.production?_eq_some_iff.trans Statement.exists_isOperation_iff.symm
    · exact Statement.production?_eq_some_iff.trans Statement.exists_isHead_iff.symm
    · rw [← Statement.denotes_closing_iff]
      refine Statement.production?_eq_some_iff.trans ⟨?_, fun denotes => ⟨_, denotes, .closing⟩⟩
      rintro ⟨_, denotes, ⟨⟩⟩
      exact denotes
    · intro production found
      rcases Statement.production?_eq_some_iff.1 found with ⟨_, denotes, follows⟩
      cases follows with
      | operation => simp
      | opening =>
          cases denotes
          simp
      | closing => simp
  · intro text keyword name h
    exact ⟨h.tokens, h.parse?, fun keyword' name' => h.unique⟩
  · intro text name number h
    exact ⟨h.tokens, h.parse?, fun name' number' => h.unique⟩
  · intro tokens
    have unique : ∀ rule ∈ Grammar.rules, ∀ other ∈ Grammar.rules,
        rule.accepts tokens = true → other.accepts tokens = true → rule = other := by
      intro rule mem other memOther accepts acceptsOther
      exact Grammar.accepts_unique mem memOther accepts acceptsOther
    exact ⟨unique, fun table perm => find?_eq_of_perm perm unique⟩

/-- The empty word is a name, and so is a numeral that is out of range; a number may have a sign and leading zeros.  A
reserved word is no name. -/
theorem statement_acceptance_unusual :
    IsOperation "clear " "clear" "" ∧
      (Grammar.lookup? (Token.ofStatement "clear ")).map Rule.production = some .operation ∧
      IsHead "while 9223372036854775808 not -007 do" "9223372036854775808" "-007" ∧
      Statement.parse? "while 9223372036854775808 not -007 do" =
        some (.opening (.compare .notEqual (.parse "9223372036854775808") (.parse "-007"))) ∧
      ¬ IsName "do" := by
  rcases statement_acceptance with ⟨production, _, head, isName, _⟩
  have clearNothing : IsOperation "clear " "clear" "" := ⟨by decide, ⟨by decide, by decide, rfl⟩, rfl⟩
  have whileOutOfRange : IsHead "while 9223372036854775808 not -007 do" "9223372036854775808" "-007" :=
    ⟨⟨by decide, by decide, rfl⟩, Numeral.isNumeral_iff.2 ⟨-7, rfl⟩, rfl⟩
  refine ⟨clearNothing, (production "clear ").1.2 ⟨_, _, clearNothing⟩, whileOutOfRange, (head _ _ _ whileOutOfRange).2.1, ?_⟩
  intro named
  exact ((isName "do").1 named).2.1 (by decide)

end CounterLang
