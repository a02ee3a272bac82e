import CounterLang.Text.Pieces

/-!
# Source — program texts and their statements

The statements of a program stand between semicolons.  A statement's line is its position among them,
counted from one; empty statements say nothing but count as positions.  A file may spread its program over
several lines of text and indent them by multiples of four spaces; taking the layout away leaves the
program as one line.

- `Source.withoutLayout`  : a file without its line ends and its indentation
- `Source.statements`     : the texts between the semicolons
- `Source.numbered`       : the statements with their lines
-/

namespace CounterLang
namespace Source

/-! ## Layout -/

/-- Drops every line end, `\n` or `\r\n`, and every four spaces that stand together. -/
def stripLayout : List Char → List Char
  | ' ' :: ' ' :: ' ' :: ' ' :: rest => stripLayout rest
  | '\r' :: '\n' :: rest => stripLayout rest
  | '\n' :: rest => stripLayout rest
  | c :: rest => c :: stripLayout rest
  | [] => []

/-- The program in a file, on one line. -/
def withoutLayout (file : String) : String :=
  String.ofList (stripLayout file.toList)

/-! ## Statements -/

/-- The texts between the semicolons, empty ones included. -/
def statements (program : String) : List String :=
  Text.pieces ';' program

/-- Statements with their lines. -/
def numbered (statements : List String) : List (Nat × String) :=
  (statements.zipIdx 1).map Prod.swap

end Source
end CounterLang
