import CounterLang.Source
import CounterLang.Statement

/-!
# Scan — going through the statements of a program

A scan reads statements from the first on and keeps the lines of the loops that are open.  It stops before
the first statement that cannot be read, after the first end outside of any loop, or when there are no
more statements.

- `Reached`                 : a statement together with its line
- `Ending`                  : why a scan stopped
- `Statement.openAfter?`    : the loops that are open after a statement
- `scan`                    : the statements that are reached, and the reason for stopping
-/

namespace CounterLang

/-- A statement that a scan has read. -/
structure Reached where
  line : Nat
  statement : Statement
  deriving DecidableEq, Repr

inductive Ending
  /-- There are no more statements; the lines of the loops still open, innermost first. -/
  | exhausted (opened : List Nat)
  /-- A statement follows no rule of the grammar. -/
  | unreadable (line : Nat) (text : String)
  /-- An end stands outside of any loop. -/
  | strayEnd (line : Nat)
  deriving DecidableEq, Repr

structure Scan where
  reached : List Reached
  ending : Ending
  deriving DecidableEq, Repr

/-- The lines of the open loops, innermost first, after a statement on some line; an end needs one. -/
def Statement.openAfter? (line : Nat) (opened : List Nat) : Statement → Option (List Nat)
  | operation _ => some opened
  | opening _ => some (line :: opened)
  | closing =>
    match opened with
    | [] => none
    | _ :: opened => some opened

/-- Scans numbered statements, given the lines of the loops that are open before them. -/
def scan (opened : List Nat) : List (Nat × String) → Scan
  | [] => ⟨[], .exhausted opened⟩
  | (line, text) :: rest =>
    if text = "" then scan opened rest
    else
      match Statement.parse? text with
      | none => ⟨[], .unreadable line text⟩
      | some statement =>
        match statement.openAfter? line opened with
        | none => ⟨[⟨line, statement⟩], .strayEnd line⟩
        | some opened =>
          let remaining := scan opened rest
          ⟨⟨line, statement⟩ :: remaining.reached, remaining.ending⟩

end CounterLang
