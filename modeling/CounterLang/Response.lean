import CounterLang.Command

/-!
# Response — the outer layer: the words of a command line

The first word names a command; `run` takes a file and any of three flags, `parse` takes a file, `grammar`
takes nothing.  Flags may stand before or after the file, each at most once, and behind `--` every word
stands for itself.  Asking for the version takes the place of a command.

These are the usual conventions for command lines, written down so that the program can be run from one, and the text
that tells how to use it is no more than a hint.  What is proved about the program starts from a command, and depends
on nothing in this module.

- `Flag`                 : the switches of `run`
- `Arguments.read?`      : flags and other words, told apart
- `Command.ofWords?`     : the command that a command line stands for, if it stands for one
- `Command.respondTo?`   : the response to a command line
-/

namespace CounterLang

/-! ## Arguments -/

inductive Flag
  | verbose
  | strict
  | showTree
  deriving DecidableEq, Repr

/-- The flag with a given spelling. -/
def Flag.ofWord? (word : String) : Option Flag :=
  [("-v", verbose), ("--verbose", verbose), ("--strict", strict), ("--show-ast", showTree)].lookup word

structure Arguments where
  flags : List Flag
  positionals : List String
  deriving DecidableEq, Repr

namespace Arguments

/-- A word that is meant as a flag; a single `-` is not. -/
def looksLikeFlag (word : String) : Bool :=
  word != "-" && ['-'].isPrefixOf word.toList

/-- Tells flags and other words apart; there is no result if a word is meant as a flag and is none. -/
def read? : List String → Option Arguments
  | [] => some ⟨[], []⟩
  | word :: rest =>
    if word = "--" then some ⟨[], rest⟩
    else
      match Flag.ofWord? word with
      | some flag => (read? rest).map fun found => { found with flags := flag :: found.flags }
      | none =>
        if looksLikeFlag word then none
        else (read? rest).map fun found => { found with positionals := word :: found.positionals }

end Arguments

/-! ## Command lines -/

/-- Each flag switches on the option of its name. -/
def RunOptions.ofFlags (flags : List Flag) : RunOptions where
  verbose := flags.contains .verbose
  strict := flags.contains .strict
  showTree := flags.contains .showTree

namespace Command

/-- A request for the version, in long form or at the front of a cluster of short flags. -/
def asksForVersion (word : String) : Bool :=
  word == "--version" || ['-', 'V'].isPrefixOf word.toList

/-- The command that the words of a command line stand for. -/
def ofWords? : List String → Option Command
  | [] => none
  | name :: rest =>
    if name = "run" then
      (Arguments.read? rest).bind fun found =>
        match found.positionals with
        | [input] => if found.flags.Nodup then some (run input (.ofFlags found.flags)) else none
        | _ => none
    else if name = "parse" then
      match Arguments.read? rest with
      | some ⟨[], [input]⟩ => some (parse input)
      | _ => none
    else if name = "grammar" then
      match Arguments.read? rest with
      | some ⟨[], []⟩ => some grammar
      | _ => none
    else if asksForVersion name then some version
    else none

end Command

/-- The response to a command line that stands for no command. -/
def Response.usage : Response :=
  ⟨.usage, "", "usage: run FILE [-v | --verbose] [--strict] [--show-ast] | parse FILE | grammar\n"⟩

namespace Command

/-- The response to a command line. -/
def respondTo? (limit : Nat) (files : Files) (words : List String) : Option Response :=
  match ofWords? words with
  | some command => command.respond? limit files
  | none => some .usage

end Command
end CounterLang
