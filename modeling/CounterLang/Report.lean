import CounterLang.Display
import CounterLang.Run
import CounterLang.Source

/-!
# Report — what is printed about programs and their runs

- `Report.store`     : the variables with their values, one on a line
- `Report.event`     : a step of a run, with the statement behind it and the values after it
- `Report.trace`     : the steps of a run that belong to a statement
- `Report.words`     : the statements of a program, each with the kinds of its words
- `Report.grammar`   : the rules of the grammar
-/

namespace CounterLang
namespace Report

/-! ## Columns -/

/-- Fills a text with spaces on its right up to a number of characters. -/
def padRight (width : Nat) (text : String) : String :=
  text ++ String.ofList (List.replicate (width - text.length) ' ')

/-- Fills a text with spaces on its left up to a number of characters. -/
def padLeft (width : Nat) (text : String) : String :=
  String.ofList (List.replicate (width - text.length) ' ') ++ text

/-! ## Runs -/

def store (store : Store) : String :=
  String.join (store.toList.map fun entry => entry.1 ++ ": " ++ Numeral.write entry.2 ++ "\n")

/-- The text of the statement on a line; there is none on lines outside of the program. -/
def statementOn (statements : List String) (line : Nat) : String :=
  statements[line - 1]?.getD ""

def event (statements : List String) (event : Event) : String :=
  "\nLine " ++ toString event.line ++ " - " ++ statementOn statements event.line ++ ";" ++
    (if event.looping then "  Control statement passed, so looping inside...\n\n" else "\n\n") ++
    store event.store

/-- The steps of a run; the program as a whole, on line 0, has no statement. -/
def trace (statements : List String) (events : List Event) : String :=
  String.join ((events.filter fun e => e.line > 0).map (event statements))

/-! ## Programs -/

def tree (root : Node) : String :=
  "=== AST ===\n" ++ root.outline.indented ++ "\n"

/-- The names of some kinds of words, side by side. -/
def kinds (kinds : List TokenKind) : String :=
  " ".intercalate (kinds.map TokenKind.name)

/-- A statement that is not empty, with its line and the kinds of its words. -/
def statementWords (line : Nat) (statement : String) : String :=
  padLeft 4 (toString line) ++ ": " ++ padRight 24 statement ++ " " ++
    kinds ((Token.ofStatement statement).map Token.kind) ++ "\n"

def words (statements : List String) : String :=
  String.join
    (((Source.numbered statements).filter fun s => s.2 ≠ "").map fun s => statementWords s.1 s.2)

/-! ## The grammar -/

def rule (rule : Rule) : String :=
  "  " ++ padRight 36 (kinds rule.pattern) ++ " -> " ++ rule.production.outline.inline ++ "\n"

def grammar : String :=
  "Accepted grammars:\n" ++ String.join (Grammar.rules.map rule)

end Report
end CounterLang
