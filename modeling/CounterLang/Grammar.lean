import CounterLang.Condition
import CounterLang.Token

/-!
# Grammar — the forms a statement can have

- `Production`      : what a statement of some form is
- `Rule`            : a sequence of kinds of words, and what the statements of that form are
- `Grammar.rules`   : the forms of the language
- `Grammar.lookup?` : the first rule that a sequence of words follows
-/

namespace CounterLang

/-- What a statement is, as far as its form tells. -/
inductive Production
  | operation
  | control (comparison : Comparison)
  | close
  deriving DecidableEq, Repr

structure Rule where
  /-- The position of the word that names what is to be done. -/
  key : Nat := 0
  pattern : List TokenKind
  production : Production
  deriving DecidableEq, Repr

namespace Rule

/-- A rule asks for exactly the kinds of its pattern, in this order. -/
def accepts (rule : Rule) (tokens : List Token) : Bool :=
  tokens.map Token.kind == rule.pattern

end Rule

namespace Grammar

/-- An operation on a variable, the head of a loop, and the end of one. -/
def rules : List Rule :=
  [{ pattern := [.unaryOperator, .identifier]
     production := .operation },
   { pattern := [.control, .identifier, .negation, .literal, .opener]
     production := .control .notEqual },
   { pattern := [.closer]
     production := .close }]

/-- The first rule that accepts a sequence of words. -/
def lookup? (tokens : List Token) : Option Rule :=
  rules.find? (·.accepts tokens)

end Grammar
end CounterLang
