import CounterLang.Compilation.Error
import CounterLang.Compilation.Scan
import CounterLang.Node.Frame

/-!
# Block — the body of a loop, or of a whole program

A block starts at some position of a list of statements and extends to the first end that belongs to no
loop inside it, or to the end of the list.

- `assemble`    : the nodes that a sequence of statements describes
- `Block`       : the nodes of a block, and how it ends
- `Block.read`  : the block that starts at a position
-/

namespace CounterLang

/-- The nodes that statements describe, given the siblings in front of them, nearest first, and the frames
of the open loops, innermost first.  Loops that stay open end with the statements; an end outside of any
loop is the last statement that counts. -/
def assemble (before : List Node) (frames : List Frame) : List Reached → List Node
  | [] => plug before.reverse frames
  | ⟨line, .operation op⟩ :: rest => assemble (.operation line op :: before) frames rest
  | ⟨line, .opening condition⟩ :: rest => assemble [] (⟨before, line, condition, []⟩ :: frames) rest
  | ⟨_, .closing⟩ :: rest =>
    match frames with
    | [] => before.reverse
    | frame :: frames => assemble (frame.fill before.reverse :: frame.before) frames rest

inductive BlockEnd
  /-- An end closes the block; the number of positions the block takes up, the end included. -/
  | closed (consumed : Nat)
  /-- The statements run out first. -/
  | exhausted
  deriving DecidableEq, Repr

structure Block where
  nodes : List Node
  ending : BlockEnd
  deriving DecidableEq, Repr

namespace Block

/-- The block that starts behind the first `start` statements.  In strict mode every loop in it has to be
closed, and of several open ones the innermost is reported. -/
def read (mode : Mode) (statements : List String) (start : Nat) : Except CompileError Block :=
  let found := scan [] ((Source.numbered statements).drop start)
  let nodes := assemble [] [] found.reached
  match found.ending with
  | .unreadable line text => .error (.syntaxError line text)
  | .strayEnd line => .ok ⟨nodes, .closed (line - start)⟩
  | .exhausted opened =>
    match mode, opened with
    | .strict, line :: _ => .error (.unterminatedBlock line)
    | _, _ => .ok ⟨nodes, .exhausted⟩

end Block
end CounterLang
