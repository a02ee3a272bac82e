import CounterLang.Statement

/-!
# Wording — how statements are put into words

A text is a statement exactly if it has one of five forms: one of three operations with a name, the head of
a loop with a name and a number, or the end of a loop.  Between two words stands a single space.

- `IsName`                        : the words that name variables
- `Statement.Denotes`             : the five forms, each with the statement that it denotes
- `Statement.denotes_iff_words`   : the same forms, told from the words of a text
- `Statement.parse?_eq_some_iff`  : a text is read as a statement exactly if it denotes that statement
-/

namespace CounterLang

/-! ## Names -/

/-- The words that have a meaning of their own. -/
def reservedWords : List String :=
  ["clear", "incr", "decr", "while", "not", "do", "end"]

/-- The words that name variables; the empty word is one of them. -/
structure IsName (word : String) : Prop where
  spaceless : ' ' ∉ word.toList
  notReserved : word ∉ reservedWords
  notNumeral : Numeral.read? word = none

namespace TokenKind

theorem mem_of_lookup {word : String} {kind : TokenKind} (found : keywords.lookup word = some kind) :
    (word, kind) ∈ keywords := by
  rcases List.lookup_eq_some_iff.1 found with ⟨before, after, split, -⟩
  simp [split]

/-- The two open kinds are not listed. -/
theorem kind_of_mem_keywords {word : String} {kind : TokenKind} (listed : (word, kind) ∈ keywords) :
    kind ≠ identifier ∧ kind ≠ literal := by
  constructor
  · rintro rfl
    simp [keywords] at listed
  · rintro rfl
    simp [keywords] at listed

/-- A word of any other kind than the two open ones is listed with its kind. -/
theorem mem_keywords {word : String} {kind : TokenKind} (h : ofWord word = kind)
    (notName : kind ≠ identifier) (notNumber : kind ≠ literal) : (word, kind) ∈ keywords := by
  unfold ofWord at h
  cases found : keywords.lookup word with
  | some other =>
      rw [found] at h
      subst h
      exact mem_of_lookup found
  | none =>
      -- a word that is not listed is a number or a name
      rw [found] at h
      simp only at h
      split at h
      · exact absurd h.symm notNumber
      · exact absurd h.symm notName

theorem lookup_keywords_eq_none {word : String} :
    keywords.lookup word = none ↔ word ∉ reservedWords := by
  simp [keywords, reservedWords]

theorem ofWord_eq_identifier {word : String} :
    ofWord word = identifier ↔ word ∉ reservedWords ∧ Numeral.read? word = none := by
  rw [← lookup_keywords_eq_none]
  unfold ofWord
  cases found : keywords.lookup word with
  | some kind =>
      have closed := (kind_of_mem_keywords (mem_of_lookup found)).1
      simp [closed]
  | none =>
      cases Numeral.read? word <;> simp

/-- No reserved word is a numeral. -/
theorem read?_of_mem_reservedWords : ∀ word ∈ reservedWords, Numeral.read? word = none := by
  decide

theorem ofWord_eq_literal {word : String} :
    ofWord word = literal ↔ ∃ value, Numeral.read? word = some value := by
  constructor
  · intro h
    unfold ofWord at h
    cases found : keywords.lookup word with
    | some kind =>
        rw [found] at h
        exact absurd h (kind_of_mem_keywords (mem_of_lookup found)).2
    | none =>
        rw [found] at h
        cases number : Numeral.read? word with
        | some value => exact ⟨value, rfl⟩
        | none => simp [number] at h
  · rintro ⟨value, number⟩
    -- the list of reserved words is searched first, but it holds no numeral
    have free : keywords.lookup word = none := by
      rw [lookup_keywords_eq_none]
      intro reserved
      simp [read?_of_mem_reservedWords word reserved] at number
    simp [ofWord, free, number]

end TokenKind

/-! ## Words with a single space between each two -/

theorem Numeral.spaceless_of_magnitude? {digits : List Char} {n : Nat} :
    magnitude? digits = some n → ' ' ∉ digits := by
  intro h blank
  unfold magnitude? at h
  split at h
  · next digital =>
      have all : digits.all Char.isDigit := (Bool.and_eq_true_iff.1 digital).2
      exact absurd (List.all_eq_true.1 all ' ' blank) (by decide)
  · cases h

/-- A numeral is a single word. -/
theorem Numeral.spaceless_of_read? {word : String} {value : Int64} :
    read? word = some value → ' ' ∉ word.toList := by
  intro h
  unfold read? readChars? at h
  -- a sign is no space, and the rest are digits
  split at h
  · rcases Option.bind_eq_some_iff.1 h with ⟨n, digits, -⟩
    have spaceless := spaceless_of_magnitude? digits
    simp_all
  · rcases Option.bind_eq_some_iff.1 h with ⟨n, digits, -⟩
    have spaceless := spaceless_of_magnitude? digits
    simp_all
  · rcases Option.bind_eq_some_iff.1 h with ⟨n, digits, -⟩
    exact spaceless_of_magnitude? digits

/-- A text consists of given words exactly if they are joined by single spaces. -/
theorem words_eq_iff {text : String} {words : List String} :
    Text.pieces ' ' text = words ↔
      text = " ".intercalate words ∧ words ≠ [] ∧ ∀ word ∈ words, ' ' ∉ word.toList :=
  Text.pieces_eq_iff

/-! ## The five forms -/

namespace Statement

/-- The statement that a text denotes, if it denotes one. -/
inductive Denotes : String → Statement → Prop where
  | clear {name : String} :
      IsName name → Denotes ("clear " ++ name) (.operation (.clear name))
  | increment {name : String} :
      IsName name → Denotes ("incr " ++ name) (.operation (.increment name))
  | decrement {name : String} :
      IsName name → Denotes ("decr " ++ name) (.operation (.decrement name))
  | opening {name number : String} {value : Int64} :
      IsName name → Numeral.read? number = some value →
        Denotes ("while " ++ name ++ " not " ++ number ++ " do")
          (.opening (.compare .notEqual (.var name) (.literal value)))
  | closing :
      Denotes "end" .closing

/-- The five forms, told from the words of a text. -/
inductive WordsDenote : List String → Statement → Prop where
  | clear {name : String} :
      IsName name → WordsDenote ["clear", name] (.operation (.clear name))
  | increment {name : String} :
      IsName name → WordsDenote ["incr", name] (.operation (.increment name))
  | decrement {name : String} :
      IsName name → WordsDenote ["decr", name] (.operation (.decrement name))
  | opening {name number : String} {value : Int64} :
      IsName name → Numeral.read? number = some value →
        WordsDenote ["while", name, "not", number, "do"]
          (.opening (.compare .notEqual (.var name) (.literal value)))
  | closing :
      WordsDenote ["end"] .closing

/-- A keyword and a name are two words, whichever way the space between them is written. -/
theorem words_operation {start name : String} (keyword : String) (single : ' ' ∉ keyword.toList)
    (spaced : start.toList = keyword.toList ++ [' ']) (isName : IsName name) :
    Text.pieces ' ' (start ++ name) = [keyword, name] := by
  refine words_eq_iff.2 ⟨?_, by simp, ?_⟩
  · rw [← String.toList_inj]
    simp [spaced]
  · simp [single, isName.spaceless]

theorem words_opening {name number : String} {value : Int64} (isName : IsName name)
    (isNumber : Numeral.read? number = some value) :
    Text.pieces ' ' ("while " ++ name ++ " not " ++ number ++ " do") =
      ["while", name, "not", number, "do"] := by
  refine words_eq_iff.2 ⟨?_, by simp, ?_⟩
  · rw [← String.toList_inj]
    simp
  · simp [isName.spaceless, Numeral.spaceless_of_read? isNumber]

theorem Denotes.inWords {text : String} {statement : Statement} :
    Denotes text statement → WordsDenote (Text.pieces ' ' text) statement := by
  intro h
  cases h with
  | clear isName =>
      rw [words_operation "clear" (by decide) (by decide) isName]
      exact .clear isName
  | increment isName =>
      rw [words_operation "incr" (by decide) (by decide) isName]
      exact .increment isName
  | decrement isName =>
      rw [words_operation "decr" (by decide) (by decide) isName]
      exact .decrement isName
  | opening isName isNumber =>
      rw [words_opening isName isNumber]
      exact .opening isName isNumber
  | closing =>
      have words : Text.pieces ' ' "end" = ["end"] := by decide
      rw [words]
      exact .closing

theorem WordsDenote.text {words : List String} {statement : Statement} :
    WordsDenote words statement → Denotes (" ".intercalate words) statement := by
  intro h
  cases h with
  | clear isName => exact .clear isName
  | increment isName => exact .increment isName
  | decrement isName => exact .decrement isName
  | @opening name number value isName isNumber =>
      have text : " ".intercalate ["while", name, "not", number, "do"] =
          "while " ++ name ++ " not " ++ number ++ " do" := by
        rw [← String.toList_inj]
        simp
      rw [text]
      exact .opening isName isNumber
  | closing => exact .closing

/-- The forms can be told from the words alone. -/
theorem denotes_iff_words {text : String} {statement : Statement} :
    Denotes text statement ↔ WordsDenote (Text.pieces ' ' text) statement := by
  constructor
  · exact Denotes.inWords
  · intro h
    have joined : " ".intercalate (Text.pieces ' ' text) = text := Text.intercalate_pieces ' ' text
    simpa [joined] using h.text

/-! ## The grammar accepts these forms and no others -/

/-- Every name is a word of the kind `identifier`. -/
theorem kind_of_isName {name : String} (isName : IsName name) : TokenKind.ofWord name = .identifier :=
  TokenKind.ofWord_eq_identifier.2 ⟨isName.notReserved, isName.notNumeral⟩

theorem ofTokens?_operation {name : String} (keyword : String)
    (unary : TokenKind.ofWord keyword = .unaryOperator) (isName : IsName name) :
    ofTokens? [Token.ofWord keyword, Token.ofWord name] =
      (Operation.unary? keyword name).map operation := by
  have kinds : [Token.ofWord keyword, Token.ofWord name].map Token.kind =
      [.unaryOperator, .identifier] := by
    simp [Token.ofWord, unary, kind_of_isName isName]
  simp only [ofTokens?, Grammar.lookup?, Grammar.rules, Rule.accepts, kinds]
  cases h : Operation.unary? keyword name <;> simp [Token.ofWord, h]

theorem WordsDenote.ofTokens? {words : List String} {statement : Statement} :
    WordsDenote words statement → ofTokens? (words.map Token.ofWord) = some statement := by
  intro h
  cases h with
  | clear isName => exact ofTokens?_operation "clear" rfl isName
  | increment isName => exact ofTokens?_operation "incr" rfl isName
  | decrement isName => exact ofTokens?_operation "decr" rfl isName
  | @opening name number value isName isNumber =>
      have numeral : TokenKind.ofWord number = .literal :=
        TokenKind.ofWord_eq_literal.2 ⟨value, isNumber⟩
      have kinds : (["while", name, "not", number, "do"].map Token.ofWord).map Token.kind =
          [.control, .identifier, .negation, .literal, .opener] := by
        simp only [List.map_cons, List.map_nil, Token.ofWord, kind_of_isName isName, numeral]
        rfl
      simp only [Statement.ofTokens?, Grammar.lookup?, Grammar.rules, Rule.accepts, kinds]
      simp [Token.ofWord, Operand.parse, isNumber, isName.notNumeral]
  | closing => rfl

/-- Words that a rule of the grammar accepts denote a statement. -/
theorem exists_wordsDenote {words : List String} {rule : Rule}
    (spaceless : ∀ word ∈ words, ' ' ∉ word.toList) (mem : rule ∈ Grammar.rules)
    (kinds : words.map TokenKind.ofWord = rule.pattern) : ∃ statement, WordsDenote words statement := by
  -- the kind of a word leaves open whether there are spaces in it
  have isName : ∀ word ∈ words, TokenKind.ofWord word = .identifier → IsName word := by
    intro word wordMem kind
    have free := TokenKind.ofWord_eq_identifier.1 kind
    exact ⟨spaceless word wordMem, free.1, free.2⟩
  simp only [Grammar.rules, List.mem_cons, List.not_mem_nil, or_false] at mem
  rcases mem with rfl | rfl | rfl
  · -- an operation; the keyword is one of three
    simp only [List.map_eq_cons_iff, List.map_eq_nil_iff] at kinds
    rcases kinds with ⟨keyword, _, rfl, unary, name, _, rfl, identifier, rfl⟩
    have known := TokenKind.mem_keywords unary (by decide) (by decide)
    have named := isName name (by simp) identifier
    simp [keywords] at known
    rcases known with rfl | rfl | rfl
    · exact ⟨_, .clear named⟩
    · exact ⟨_, .increment named⟩
    · exact ⟨_, .decrement named⟩
  · -- the head of a loop
    simp only [List.map_eq_cons_iff, List.map_eq_nil_iff] at kinds
    rcases kinds with ⟨w₁, _, rfl, control, name, _, rfl, identifier, w₃, _, rfl, negation,
      number, _, rfl, literal, w₅, _, rfl, opener, rfl⟩
    -- three of the five words are listed, and there is just one word of each of their kinds
    have known₁ := TokenKind.mem_keywords control (by decide) (by decide)
    have known₃ := TokenKind.mem_keywords negation (by decide) (by decide)
    have known₅ := TokenKind.mem_keywords opener (by decide) (by decide)
    have named := isName name (by simp) identifier
    rcases TokenKind.ofWord_eq_literal.1 literal with ⟨value, numeral⟩
    simp [keywords] at known₁ known₃ known₅
    subst known₁ known₃ known₅
    exact ⟨_, .opening named numeral⟩
  · -- the end of a loop
    simp only [List.map_eq_cons_iff, List.map_eq_nil_iff] at kinds
    rcases kinds with ⟨word, _, rfl, closer, rfl⟩
    have known := TokenKind.mem_keywords closer (by decide) (by decide)
    simp [keywords] at known
    subst known
    exact ⟨_, .closing⟩

theorem wordsDenote_of_ofTokens? {words : List String} {statement : Statement}
    (spaceless : ∀ word ∈ words, ' ' ∉ word.toList) :
    Statement.ofTokens? (words.map Token.ofWord) = some statement → WordsDenote words statement := by
  intro h
  cases found : Grammar.lookup? (words.map Token.ofWord) with
  | none => simp [Statement.ofTokens?, found] at h
  | some rule =>
      unfold Grammar.lookup? at found
      have accepts := List.find?_some found
      have kinds : words.map TokenKind.ofWord = rule.pattern := by
        simpa [Rule.accepts, Function.comp_def, Token.ofWord] using accepts
      rcases exists_wordsDenote spaceless (List.mem_of_find?_eq_some found) kinds with ⟨other, denotes⟩
      -- the words denote just one statement, since reading them is a function
      have same : some other = some statement :=
        calc
          some other = Statement.ofTokens? (words.map Token.ofWord) := denotes.ofTokens?.symm
          _ = some statement := h
      rw [← Option.some.inj same]
      exact denotes

/-- A text is read as a statement exactly if it has one of the five forms. -/
theorem parse?_eq_some_iff {text : String} {statement : Statement} :
    parse? text = some statement ↔ Denotes text statement := by
  -- the grammar is asked about the words, and these are free of spaces
  rw [denotes_iff_words]
  constructor
  · exact wordsDenote_of_ofTokens? fun word mem => Text.notMem_of_mem_pieces mem
  · exact WordsDenote.ofTokens?

/-- A text denotes at most one statement. -/
theorem Denotes.unique {text : String} {a b : Statement} (ha : Denotes text a) (hb : Denotes text b) :
    a = b := by
  have same : some a = some b :=
    calc
      some a = parse? text := (parse?_eq_some_iff.2 ha).symm
      _ = some b := parse?_eq_some_iff.2 hb
  exact Option.some.inj same

theorem denotes_closing_iff {text : String} : Denotes text .closing ↔ text = "end" := by
  constructor
  · intro h
    cases h
    rfl
  · rintro rfl
    exact .closing

/-- The empty text denotes nothing. -/
theorem not_denotes_empty (statement : Statement) : ¬ Denotes "" statement := by
  intro h
  have read := parse?_eq_some_iff.2 h
  have nothing : parse? "" = none := by decide
  simp [nothing] at read

end Statement
end CounterLang
