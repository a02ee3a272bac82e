/-!
# Compile errors — why a text is no program

- `Mode`                  : whether loops and their ends have to match
- `CompileError`          : an unreadable statement, a loop without end, an end without loop
- `CompileError.message`  : the error in words
-/

namespace CounterLang

/-- What happens when loops and their ends do not match.  In lenient mode open loops end with the program
and an end outside of any loop ends the program; in strict mode both are errors. -/
inductive Mode
  | lenient
  | strict
  deriving DecidableEq, Repr

inductive CompileError
  | syntaxError (line : Nat) (statement : String)
  | unterminatedBlock (line : Nat)
  | unexpectedEnd (line : Nat)
  deriving DecidableEq, Repr

namespace CompileError

def message : CompileError → String
  | syntaxError line statement => "SyntaxError in line " ++ toString line ++ ": '" ++ statement ++ ";'"
  | unterminatedBlock line =>
    "Block opened at line " ++ toString line ++ " is never closed with 'end'"
  | unexpectedEnd line => "Unexpected 'end' at line " ++ toString line ++ " outside of any block"

end CompileError
end CounterLang
