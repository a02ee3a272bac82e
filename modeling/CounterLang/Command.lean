import CounterLang.Compilation
import CounterLang.Report

/-!
# Command — what can be asked for, and what is printed then

- `Command`             : what is asked for
- `ReadError`           : why a file cannot be read
- `Response`            : the two texts that a command prints, and whether it succeeded
- `Command.respond?`    : the response to a command, given the files that there are
-/

namespace CounterLang

/-! ## Commands -/

structure RunOptions where
  verbose : Bool
  strict : Bool
  showTree : Bool
  deriving DecidableEq, Repr

inductive Command
  /-- Compile a file and run it. -/
  | run (input : String) (options : RunOptions)
  /-- Show the words and the tree of a file. -/
  | parse (input : String)
  /-- Show the rules of the grammar. -/
  | grammar
  | version
  deriving DecidableEq, Repr

/-! ## Files -/

inductive ReadError
  /-- The system refuses, for a reason that it gives in words and as a number. -/
  | refused (reason : String) (code : Nat)
  /-- The bytes of the file are no text. -/
  | notText
  deriving DecidableEq, Repr

namespace ReadError

def message : ReadError → String
  | refused reason code => reason ++ " (os error " ++ toString code ++ ")"
  | notText => "stream did not contain valid UTF-8"

end ReadError

/-- The files that there are: the bytes at each path, or the reason why there are none. -/
abbrev Files := String → Except ReadError ByteArray

/-- The text in a file. -/
def Files.text (files : Files) (path : String) : Except ReadError String :=
  match files path with
  | .error error => .error error
  | .ok bytes =>
    match String.fromUTF8? bytes with
    | some text => .ok text
    | none => .error .notText

/-! ## Responses -/

inductive ExitStatus
  | success
  | failure
  /-- The command line stands for no command. -/
  | usage
  deriving DecidableEq, Repr, Inhabited

def ExitStatus.code : ExitStatus → Nat
  | success => 0
  | failure => 1
  | usage => 2

structure Response where
  status : ExitStatus
  output : String
  errors : String
  deriving DecidableEq, Repr, Inhabited

namespace Response

def success (output : String) : Response :=
  ⟨.success, output, ""⟩

/-- A failure after some output. -/
def failure (output reason : String) : Response :=
  ⟨.failure, output, reason ++ "\n"⟩

def unreadable (output : String) (error : ReadError) : Response :=
  failure output ("IO error: " ++ error.message)

def uncompilable (output : String) (error : CompileError) : Response :=
  failure output ("Failed to compile - " ++ error.message)

/-- The response to a run that has ended, after some output. -/
def ofRun? (output : String) (run : Run) : Option Response :=
  match run.outcome with
  | .finished =>
    some (success (output ++ "\nCode finished. Have a great day!\n" ++ Report.store run.store))
  | .failed error =>
    some (failure (output ++ "\nStopped with values:\n" ++ Report.store run.store)
      ("Runtime error - " ++ error.message))
  | .stopped => none

end Response

namespace Command

/-- Compiles and runs a program text. -/
def runProgram? (limit : Nat) (options : RunOptions) (program : String) : Option Response :=
  let mode := if options.strict then Mode.strict else .lenient
  let statements := Source.statements program
  match compileStatements mode statements with
  | .error error => some (.uncompilable "" error)
  | .ok root =>
    let run := execute limit .empty root
    let shown := if options.showTree then Report.tree root else ""
    let trace := if options.verbose then Report.trace statements run.events else ""
    Response.ofRun? (shown ++ trace) run

/-- Shows the statements and the tree of a program text, after some output. -/
def parseProgram (output program : String) : Response :=
  let statements := Source.statements program
  let shown := output ++ "=== SOURCE ===\n" ++ program ++ "\n=== TOKENS ===\n" ++ Report.words statements
  match compileStatements .lenient statements with
  | .error error => .uncompilable (shown ++ "=== AST ===\n") error
  | .ok root => .success (shown ++ Report.tree root)

/-- The response to a command, or `none` if a run needs more than `limit` steps to end. -/
def respond? (limit : Nat) (files : Files) : Command → Option Response
  | run input options =>
    match files.text input with
    | .error error => some (.unreadable "" error)
    | .ok text => runProgram? limit options (Source.withoutLayout text)
  | parse input =>
    let heading := "Parsing " ++ input ++ "...\n"
    match files.text input with
    | .error error => some (.unreadable heading error)
    | .ok text => some (parseProgram heading (Source.withoutLayout text))
  | grammar => some (.success Report.grammar)
  | version => some (.success "barebones 0.1.0\n")

end Command
end CounterLang
