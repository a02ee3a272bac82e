import CounterLang.Condition
import CounterLang.Operation

/-!
# Node — programs as trees

A program is a tree whose leaves are operations and whose inner nodes are loops.  Every node carries the
line of the statement it comes from; the root of a program is a loop on line 0 that runs once.

- `Node`       : an operation, or a loop with its condition and its body
- `Node.root`  : a body made into a whole program
- a decision procedure for equality of trees, lines and triggers included
- `Node.forest_induction`  : induction over forests, into the children of a loop and on to its siblings
-/

namespace CounterLang

inductive Node where
  | operation (line : Nat) (operation : Operation)
  | loop (line : Nat) (condition : Condition) (children : List Node)
  deriving Repr

namespace Node

/-- The whole program with the given body. -/
def root (children : List Node) : Node :=
  loop 0 (.once false) children

def line : Node → Nat
  | operation line _ | loop line _ _ => line

def children : Node → List Node
  | operation _ _ => []
  | loop _ _ children => children

/-! ## Equality is decidable -/

mutual

def decEq : (a b : Node) → Decidable (a = b)
  | operation m o, operation n p =>
    if h : m = n ∧ o = p then isTrue (by rw [h.1, h.2]) else isFalse (by simpa using h)
  | loop m c as, loop n d bs =>
    if h : m = n ∧ c = d then
      match decEqAll as bs with
      | isTrue same => isTrue (by rw [h.1, h.2, same])
      | isFalse differ => isFalse fun e => differ (Node.loop.inj e).2.2
    else isFalse fun e => h ⟨(Node.loop.inj e).1, (Node.loop.inj e).2.1⟩
  | operation _ _, loop _ _ _ => isFalse nofun
  | loop _ _ _, operation _ _ => isFalse nofun

def decEqAll : (as bs : List Node) → Decidable (as = bs)
  | [], [] => isTrue rfl
  | a :: as, b :: bs =>
    match decEq a b, decEqAll as bs with
    | isTrue head, isTrue tail => isTrue (by rw [head, tail])
    | isFalse differ, _ => isFalse fun e => differ (List.cons.inj e).1
    | _, isFalse differ => isFalse fun e => differ (List.cons.inj e).2
  | [], _ :: _ => isFalse nofun
  | _ :: _, [] => isFalse nofun

end

instance : DecidableEq Node := decEq

/-! ## Induction over forests -/

/-- A forest is empty, or it starts with an operation, or with a loop whose children are a forest. -/
@[elab_as_elim]
theorem forest_induction {motive : List Node → Prop} (nil : motive [])
    (operation : ∀ line op rest, motive rest → motive (.operation line op :: rest))
    (loop : ∀ line condition children rest,
      motive children → motive rest → motive (.loop line condition children :: rest)) :
    ∀ nodes, motive nodes
  | [] => nil
  | .operation line op :: rest => operation line op rest (forest_induction nil operation loop rest)
  | .loop line condition children :: rest =>
      loop line condition children rest (forest_induction nil operation loop children)
        (forest_induction nil operation loop rest)

end Node
end CounterLang
