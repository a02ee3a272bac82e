import CounterLang.Operation

/-!
# Runtime errors — why a program cannot go on

- `RuntimeError`          : a variable without a value, or arithmetic that is only reserved
- `RuntimeError.message`  : the error in words
-/

namespace CounterLang

inductive RuntimeError
  | undefinedVariable (name : String)
  | notImplemented (kind : Arithmetic)
  deriving DecidableEq, Repr

namespace RuntimeError

def message : RuntimeError → String
  | undefinedVariable name => "Variable '" ++ name ++ "' is read before it was ever cleared"
  | notImplemented kind => "Operation '" ++ kind.keyword ++ "' is reserved but not implemented"

end RuntimeError
end CounterLang
