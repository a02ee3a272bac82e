import CounterLang.Grammar
import CounterLang.Node
import CounterLang.Text.Outline
import CounterLang.Text.Quoted

/-!
# Display — how the parts of a program are shown

Values are shown as outlines: names quoted, numbers as numerals, and every other value under the name of
its kind.

- `Operand.outline`, `Condition.outline`, `Operation.outline`, `Node.outline`  : programs
- `Production.outline`                                                         : the rules' productions
-/

namespace CounterLang

open Text

def Operand.outline : Operand → Outline
  | literal value => .group "Literal" .round [.atom (Numeral.write value)]
  | var name => .group "Variable" .round [.atom (quote name)]

def Comparison.name : Comparison → String
  | equal => "Equal"
  | notEqual => "NotEqual"
  | greaterThan => "GreaterThan"
  | lessThan => "LessThan"

def Condition.outline : Condition → Outline
  | once fired => .group "Once" .curly [.field "fired" (.atom (if fired then "true" else "false"))]
  | compare comparison left right => .group comparison.name .round [left.outline, right.outline]

def Arithmetic.name : Arithmetic → String
  | add => "Add"
  | subtract => "Subtract"
  | multiply => "Multiply"
  | divide => "Divide"

def Operation.outline : Operation → Outline
  | clear target => .group "Clear" .round [.atom (quote target)]
  | increment target => .group "Increment" .round [.atom (quote target)]
  | decrement target => .group "Decrement" .round [.atom (quote target)]
  | arithmetic kind target operand =>
    .group kind.name .round [.atom (quote target), operand.outline]

def Production.outline : Production → Outline
  | operation => .atom "Operation"
  | control comparison => .group "Control" .round [.atom comparison.name]
  | close => .atom "End"

namespace Node

mutual

def outline : Node → Outline
  | operation line op =>
    .group "Operator" .curly
      [.field "line" (.atom (toString line)), .field "operation" op.outline]
  | loop line condition children =>
    .group "Condition" .curly
      [.field "line" (.atom (toString line)), .field "condition" condition.outline,
       .field "children" (.group "" .square (outlines children))]

def outlines : List Node → List Outline
  | [] => []
  | node :: nodes => node.outline :: outlines nodes

end

end Node
end CounterLang
