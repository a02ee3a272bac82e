import CounterLang.Numeral
import CounterLang.Text.Pieces

/-!
# Token — the words of a statement and their kinds

A statement is a sequence of words with a single space between each two.  The kind of a word depends on
the word alone: seven words are keywords, numerals are literals, and all other words, the empty one
included, name variables.

- `TokenKind`           : the kinds of words
- `keywords`            : the reserved words, with their kinds
- `TokenKind.ofWord`    : the kind of a word
- `Token.ofStatement`   : the words of a statement, each with its kind
-/

namespace CounterLang

/-! ## Kinds -/

inductive TokenKind
  | identifier
  | literal
  | unaryOperator
  | control
  | negation
  | opener
  | closer
  | binaryOperator
  deriving DecidableEq, Repr

/-- The reserved words.  No word is a binary operator yet. -/
def keywords : List (String × TokenKind) :=
  [("clear", .unaryOperator),
   ("incr", .unaryOperator),
   ("decr", .unaryOperator),
   ("while", .control),
   ("not", .negation),
   ("do", .opener),
   ("end", .closer)]

namespace TokenKind

/-- The name under which a kind is shown. -/
def name : TokenKind → String
  | identifier => "VARIABLE"
  | literal => "LITERAL"
  | unaryOperator => "UOPERATOR"
  | control => "CONTROL"
  | negation => "NOT"
  | opener => "DO"
  | closer => "END"
  | binaryOperator => "BOPERATOR"

/-- The kind of a word: a reserved word has its own, a numeral is a literal. -/
def ofWord (word : String) : TokenKind :=
  match keywords.lookup word with
  | some kind => kind
  | none => if (Numeral.read? word).isSome then literal else identifier

end TokenKind

/-! ## Tokens -/

structure Token where
  kind : TokenKind
  text : String
  deriving DecidableEq, Repr

namespace Token

def ofWord (word : String) : Token :=
  ⟨TokenKind.ofWord word, word⟩

/-- The words of a statement.  Each space separates, so that two spaces enclose an empty word. -/
def ofStatement (statement : String) : List Token :=
  (Text.pieces ' ' statement).map ofWord

end Token
end CounterLang
