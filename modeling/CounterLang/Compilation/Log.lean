import CounterLang.Compilation
import CounterLang.Display
import CounterLang.Log

/-!
# Compilation log — what a compilation reports

Every statement that the scan reaches is reported, whatever becomes of the program.  Once all statements
are read, a lenient compilation warns of what a strict one refuses.  This is the log as a whole; how it comes about
piece by piece, while blocks are read one inside the other, is told by `descend?`.

- `Scan.Notice`         : what is worth reporting
- `Scan.notices`        : the reports on a scan, in order
- `compilationNotices`  : the reports on the compilation of a program text
- `Scan.Notice.record`  : a report as a record of the log
-/

namespace CounterLang

inductive Scan.Notice
  | operation (line : Nat) (operation : Operation)
  | blockOpened (line : Nat) (condition : Condition)
  | blockClosed (line : Nat)
  | neverClosed (line : Nat)
  | strayEnd (line : Nat)
  deriving DecidableEq, Repr

/-- The report on a statement. -/
def Reached.notice (reached : Reached) : Scan.Notice :=
  match reached.statement with
  | .operation op => .operation reached.line op
  | .opening condition => .blockOpened reached.line condition
  | .closing => .blockClosed reached.line

/-- The warnings about the end of a program: one for each open loop, or one for a stray end. -/
def Ending.warnings : Ending → List Scan.Notice
  | exhausted opened => opened.map .neverClosed
  | unreadable _ _ => []
  | strayEnd line => [.strayEnd line]

/-- The reports on a scan; only lenient mode warns. -/
def Scan.notices (mode : Mode) (scan : Scan) : List Notice :=
  scan.reached.map Reached.notice ++
    match mode with
    | .lenient => scan.ending.warnings
    | .strict => []

/-- The reports on the compilation of a program text. -/
def compilationNotices (mode : Mode) (program : String) : List Scan.Notice :=
  (scan [] (Source.numbered (Source.statements program))).notices mode

namespace Scan.Notice

def record : Notice → Log.Record
  | operation line op =>
    ⟨.debug, "operation", [("line", toString line), ("kind", op.keyword), ("target", op.target)]⟩
  | blockOpened line condition =>
    ⟨.debug, "block opened", [("line", toString line), ("condition", condition.outline.inline)]⟩
  | blockClosed line => ⟨.debug, "block closed", [("line", toString line)]⟩
  | neverClosed line =>
    ⟨.warn, "block is never closed with 'end', closing at end of input", [("line", toString line)]⟩
  | strayEnd line =>
    ⟨.warn, "'end' outside of any block, ignoring the rest of the program", [("line", toString line)]⟩

end Scan.Notice
end CounterLang
