import CounterLang.Grammar
import CounterLang.Operation

/-!
# Statement — what a single statement says

- `Statement`           : an operation, the opening of a loop, or the end of one
- `Statement.ofTokens?` : what a sequence of words says, if the grammar accepts it
- `Statement.parse?`    : what a text says
-/

namespace CounterLang

inductive Statement
  | operation (operation : Operation)
  | opening (condition : Condition)
  | closing
  deriving DecidableEq, Repr

namespace Statement

/-- Reads a sequence of words by the first rule that accepts it. -/
def ofTokens? (tokens : List Token) : Option Statement := do
  let rule ← Grammar.lookup? tokens
  match rule.production with
  | .operation =>
    let keyword ← tokens[rule.key]?
    let target ← tokens[1]?
    return operation (← Operation.unary? keyword.text target.text)
  | .control comparison =>
    let left ← tokens[1]?
    let right ← tokens[3]?
    return opening (.compare comparison (.parse left.text) (.parse right.text))
  | .close => return closing

/-- Reads the text of a single statement. -/
def parse? (text : String) : Option Statement :=
  ofTokens? (Token.ofStatement text)

end Statement
end CounterLang
