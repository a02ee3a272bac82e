import CounterLang.Operand

/-!
# Condition — what decides whether a loop goes round again

- `Comparison`  : the four relations between two numbers
- `Condition`   : a comparison of two operands, or a trigger that lets a loop go round exactly once
-/

namespace CounterLang

/-! ## Comparisons -/

inductive Comparison
  | equal
  | notEqual
  | greaterThan
  | lessThan
  deriving DecidableEq, Repr

namespace Comparison

/-- Whether the relation holds between two numbers. -/
def holds : Comparison → Int64 → Int64 → Bool
  | equal, left, right => left == right
  | notEqual, left, right => left != right
  | greaterThan, left, right => right < left
  | lessThan, left, right => left < right

end Comparison

/-! ## Conditions -/

inductive Condition
  /-- Lets the loop go round the first time it is tested; `fired` tells whether that has happened. -/
  | once (fired : Bool)
  | compare (comparison : Comparison) (left right : Operand)
  deriving DecidableEq, Repr

end CounterLang
