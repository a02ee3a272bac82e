import CounterLang.Condition
import CounterLang.Store

/-!
# Evaluation — conditions and operations in a store

- `Condition.holds`   : whether a condition lets its loop go round
- `Condition.tested`  : the condition after it has been tested
- `Operation.apply`   : the store after an operation
-/

namespace CounterLang

namespace Condition

/-- Whether a condition lets its loop go round.  Of two operands the left one is looked up first. -/
def holds (store : Store) : Condition → Except RuntimeError Bool
  | once fired => .ok !fired
  | compare comparison left right => do
    let leftValue ← store.resolve left
    let rightValue ← store.resolve right
    return comparison.holds leftValue rightValue

/-- A condition after a test; only a trigger remembers it. -/
def tested : Condition → Condition
  | once _ => once true
  | condition => condition

end Condition

namespace Operation

/-- The store after an operation.  Counting needs a value to start from, and wraps around at either end of
the range of words. -/
def apply (store : Store) : Operation → Except RuntimeError Store
  | clear target => .ok (store.set target 0)
  | increment target => do
    let value ← store.read target
    return store.set target (value + 1)
  | decrement target => do
    let value ← store.read target
    return store.set target (value - 1)
  | arithmetic kind _ _ => .error (.notImplemented kind)

end Operation
end CounterLang
