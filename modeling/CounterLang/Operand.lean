import CounterLang.Numeral

/-!
# Operand — what a comparison reads

- `Operand`        : a number, or a variable that is looked up each time it is read
- `Operand.parse`  : a text is a number if it is a numeral, and the name of a variable otherwise
-/

namespace CounterLang

inductive Operand
  | literal (value : Int64)
  | var (name : String)
  deriving DecidableEq, Repr

namespace Operand

/-- Reads a text as an operand; every text is one. -/
def parse (text : String) : Operand :=
  match Numeral.read? text with
  | some value => literal value
  | none => var text

end Operand
end CounterLang
