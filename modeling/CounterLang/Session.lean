import CounterLang.Compilation
import CounterLang.Run

/-!
# Session — several trees and one store

A session executes trees one after the other, in any order and any number of times.  The store goes on
from one execution to the next, and each tree keeps the triggers that have fired in it.

- `Session.execute`  : runs one of the trees
- `Session.add`      : one more tree
- `Session.reset`    : an empty store, with all trees kept as they are
-/

namespace CounterLang

structure Session where
  trees : List Node
  store : Store

namespace Session

def start (trees : List Node) : Session :=
  ⟨trees, .empty⟩

/-- Runs a tree for at most `limit` events; the session goes on with what the run leaves behind. -/
def execute? (session : Session) (limit index : Nat) : Option (Run × Session) := do
  let tree ← session.trees[index]?
  let run := CounterLang.execute limit session.store tree
  return (run, ⟨session.trees.set index run.tree, run.store⟩)

/-- Adds a tree behind the others. -/
def add (session : Session) (tree : Node) : Session :=
  { session with trees := session.trees ++ [tree] }

/-- Goes on with an empty store. -/
def reset (session : Session) : Session :=
  { session with store := .empty }

end Session
end CounterLang
