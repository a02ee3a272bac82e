import CounterLang.Operand

/-!
# Operation — what a single statement does to a variable

- `Operation`         : clearing, counting up, counting down, and the arithmetic that is only reserved
- `Operation.target`  : the variable it works on
- `Operation.keyword` : the word it is known by
- `Operation.unary?`  : the operation that a keyword and a target stand for
-/

namespace CounterLang

/-- Arithmetic that the language names but does not carry out. -/
inductive Arithmetic
  | add
  | subtract
  | multiply
  | divide
  deriving DecidableEq, Repr

def Arithmetic.keyword : Arithmetic → String
  | add => "add"
  | subtract => "sub"
  | multiply => "mul"
  | divide => "div"

inductive Operation
  | clear (target : String)
  | increment (target : String)
  | decrement (target : String)
  | arithmetic (kind : Arithmetic) (target : String) (operand : Operand)
  deriving DecidableEq, Repr

namespace Operation

def target : Operation → String
  | clear target | increment target | decrement target | arithmetic _ target _ => target

def keyword : Operation → String
  | clear _ => "clear"
  | increment _ => "incr"
  | decrement _ => "decr"
  | arithmetic kind _ _ => kind.keyword

/-- The operation of a statement with one operand; reserved arithmetic has no statement. -/
def unary? (keyword target : String) : Option Operation :=
  if keyword = "clear" then some (clear target)
  else if keyword = "incr" then some (increment target)
  else if keyword = "decr" then some (decrement target)
  else none

end Operation
end CounterLang
