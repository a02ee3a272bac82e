import CounterLang.Response

/-!
# Main — the command line

Reads the file that the command names, answers the command, and prints the answer.  A run may take any
number of steps, so it is tried with ever larger limits until it ends.
-/

namespace CounterLang

/-- The number of a system failure and the words that come with it; a failure of another kind has none. -/
def numberOf : IO.Error → UInt32 × String
  | .noFileOrDirectory _ code reason
  | .inappropriateType _ code reason
  | .permissionDenied _ code reason
  | .invalidArgument _ code reason
  | .resourceExhausted _ code reason => (code, reason)
  | .hardwareFault code reason
  | .otherError code reason => (code, reason)
  | error => (0, toString error)

/-- The usual words for the failures that opening and reading a file runs into. -/
def usualReasons : List (Nat × String) :=
  [(2, "No such file or directory"),
   (5, "Input/output error"),
   (13, "Permission denied"),
   (20, "Not a directory"),
   (21, "Is a directory"),
   (24, "Too many open files"),
   (36, "File name too long"),
   (40, "Too many levels of symbolic links")]

/-- The reason for a failure of the system.  Its number may come with either sign. -/
def refusal (error : IO.Error) : ReadError :=
  let (code, reason) := numberOf error
  let number := code.toInt32.toInt.natAbs
  .refused ((usualReasons.lookup number).getD reason) number

def readFile (path : String) : IO (Except ReadError ByteArray) := do
  try
    return .ok (← IO.FS.readBinFile path)
  catch error =>
    return .error (refusal error)

/-- The response to a command line, found with ever larger limits. -/
partial def respondWithin (limit : Nat) (files : Files) (words : List String) : Response :=
  match Command.respondTo? limit files words with
  | some response => response
  | none => respondWithin (2 * limit) files words

/-- The file that a command line names, if it names one. -/
def inputOf (words : List String) : Option String :=
  match Command.ofWords? words with
  | some (.run input _) => some input
  | some (.parse input) => some input
  | _ => none

end CounterLang

open CounterLang in
def main (words : List String) : IO UInt32 := do
  let content ←
    match inputOf words with
    | some path => readFile path
    | none => pure (.ok .empty)
  let response := respondWithin 1000 (fun _ => content) words
  IO.print response.output
  IO.eprint response.errors
  return response.status.code.toUInt32
