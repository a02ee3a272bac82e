import CounterLang.Evaluation
import CounterLang.Node.Frame

/-!
# Machine — running a tree step by step

A machine stands at some point of a tree and holds a store.  A step of it carries out one operation or
tests one loop, and says what it did; a test that the loop passes leads into its body, and the end of the
body leads back to the test.  Since the surroundings of the point are kept as frames, the tree can be put
together again at any time, with the triggers that have fired on the way.

- `Action`          : what a step does
- `Machine`         : a point of a tree, and a store
- `Machine.step`    : the next step, or the reason why there is none
- `Machine.tree`    : the tree that the machine stands in
-/

namespace CounterLang

/-! ## Actions -/

inductive Action
  /-- The loop on a line goes round. -/
  | entered (line : Nat)
  /-- The loop on a line is over. -/
  | left (line : Nat)
  /-- The operation on a line has been carried out. -/
  | applied (line : Nat) (operation : Operation)
  deriving DecidableEq, Repr

namespace Action

def line : Action → Nat
  | entered line | left line | applied line _ => line

/-- Whether the action leads into the body of a loop. -/
def looping : Action → Bool
  | entered _ => true
  | _ => false

end Action

/-! ## Machines -/

structure Machine where
  store : Store
  /-- The siblings in front of the point, nearest first. -/
  before : List Node
  /-- The siblings behind the point, in order. -/
  after : List Node
  /-- The loops around the point, innermost first. -/
  frames : List Frame
  deriving Inhabited

inductive Step
  /-- There is nothing left to do. -/
  | finished
  | failed (error : RuntimeError)
  | next (action : Action) (machine : Machine)

namespace Machine

/-- The machine in front of a tree. -/
def start (store : Store) (node : Node) : Machine :=
  { store, before := [], after := [node], frames := [] }

/-- The nodes that the machine stands among, put together. -/
def forest (machine : Machine) : List Node :=
  plug (machine.before.reverse ++ machine.after) machine.frames

/-- The tree that the machine was started on, as it is now. -/
def tree (machine : Machine) : Node :=
  machine.forest.headD (Node.root [])

/-- Carries out the node behind the point, given the siblings behind that node. -/
def perform (machine : Machine) (node : Node) (rest : List Node) : Step :=
  match node with
  | .operation line operation =>
    match operation.apply machine.store with
    | .error error => .failed error
    | .ok store =>
      .next (.applied line operation)
        { machine with store, before := node :: machine.before, after := rest }
  | .loop line condition children =>
    match condition.holds machine.store with
    | .error error => .failed error
    | .ok true =>
      .next (.entered line)
        { machine with
          before := []
          after := children
          frames := ⟨machine.before, line, condition.tested, rest⟩ :: machine.frames }
    | .ok false =>
      .next (.left line)
        { machine with
          before := .loop line condition.tested children :: machine.before
          after := rest }

/-- The next step of a machine.  At the end of a body it returns to the loop around it. -/
def step (machine : Machine) : Step :=
  match machine.after, machine.frames with
  | node :: rest, _ => machine.perform node rest
  | [], frame :: frames =>
    { machine with before := frame.before, frames }.perform (frame.fill machine.before.reverse) frame.after
  | [], [] => .finished

end Machine
end CounterLang
