import CounterLang.Compilation.Block

/-!
# Compilation — from program texts to trees

- `compileStatements`  : the tree of a program given by its statements
- `compile`            : the tree of a program text
-/

namespace CounterLang

/-- The tree of a program: the block that starts at its first statement, which only a stray end can close. -/
def compileStatements (mode : Mode) (statements : List String) : Except CompileError Node :=
  match Block.read mode statements 0 with
  | .error error => .error error
  | .ok block =>
    match mode, block.ending with
    | .strict, .closed line => .error (.unexpectedEnd line)
    | _, _ => .ok (Node.root block.nodes)

/-- The tree of a program text. -/
def compile (mode : Mode) (program : String) : Except CompileError Node :=
  compileStatements mode (Source.statements program)

end CounterLang
