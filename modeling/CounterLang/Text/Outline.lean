/-!
# Outline — structured values as text, on one line or on many

An outline is a value ready to be shown: atoms, named fields and bracketed groups.  It has two written
forms.  On one line the parts of a group stand beside each other, separated by commas.  Indented, every
part stands on a line of its own, four columns further in, and a comma follows each part.

- `Outline.inline`    : the form on one line
- `Outline.indented`  : the form on many lines
-/

namespace CounterLang
namespace Text

/-- How the parts of a group are held together. -/
inductive Bracket
  | round
  | curly
  | square
  deriving DecidableEq, Repr

/-- A value ready to be shown. -/
inductive Outline where
  | atom (text : String)
  | field (name : String) (value : Outline)
  | group (head : String) (bracket : Bracket) (parts : List Outline)

namespace Bracket

/-- What stands between the head of a group and its parts; curly brackets keep a distance. -/
def opening : Bracket → String
  | round => "("
  | curly => " \x7b"
  | square => "["

def closing : Bracket → String
  | round => ")"
  | curly => "\x7d"
  | square => "]"

/-- The distance from a bracket to the parts beside it, on one line. -/
def gap : Bracket → String
  | curly => " "
  | _ => ""

end Bracket

namespace Outline

/-! ## On one line -/

mutual

def inline : Outline → String
  | atom text => text
  | field name value => name ++ ": " ++ value.inline
  | group head bracket parts =>
    head ++ bracket.opening ++ bracket.gap ++ ", ".intercalate (inlineAll parts) ++
      bracket.gap ++ bracket.closing

def inlineAll : List Outline → List String
  | [] => []
  | part :: parts => part.inline :: inlineAll parts

end

/-! ## On many lines -/

/-- The blank columns before a line at some depth. -/
def margin (depth : Nat) : String :=
  String.ofList (List.replicate (4 * depth) ' ')

mutual

/-- The indented form of a value whose first line starts at the given depth. -/
def indentedAt (depth : Nat) : Outline → String
  | atom text => text
  | field name value => name ++ ": " ++ value.indentedAt depth
  | group head bracket [] => head ++ bracket.opening ++ bracket.closing
  | group head bracket (part :: parts) =>
    head ++ bracket.opening ++ "\n" ++ linesAt (depth + 1) (part :: parts) ++
      margin depth ++ bracket.closing

def linesAt (depth : Nat) : List Outline → String
  | [] => ""
  | part :: parts => margin depth ++ part.indentedAt depth ++ ",\n" ++ linesAt depth parts

end

def indented (outline : Outline) : String :=
  outline.indentedAt 0

end Outline
end Text
end CounterLang
