import CounterLang.Proofs.Compilation.OpenSpans
import CounterLang.Proofs.Flat.Machine
import Mathlib.Logic.Relation

/-!
# Simulation — a tree and a flat machine do the same

A machine that stands at some point of the tree of a program, and a flat machine that stands on the statement
behind that point, go on in the same way.  What ties them together is that the nodes behind the point span the
statements up to the end of the innermost body, and that behind this end there stands what is left to do in
the loops around.  Empty statements and ends are steps of the flat machine alone.

- `Surrounds`        : what stands behind a body, told from the frames around it
- `Matches`          : a point of a tree and a line of the program belong together
- `Mirrors`          : a step of the tree and a step of the flat machine belong together
- `Matches.step`     : behind silent steps, the flat machine mirrors the next step of the tree
- `Matches.run`      : what can be seen of both is the same
- `execute_watch`    : a compiled program does what a flat machine does
-/

namespace CounterLang

open Statement (Denotes)
open Source

/-! ## Points and lines -/

/-- The innermost body ends in front of a position, and the frames around it are what is written from there
on: an end and the siblings behind it for each loop, and the end of the program for the root. -/
inductive Surrounds (statements : List String) : List Node → List Frame → Nat → Prop where
  | root {body : List Node} :
      Surrounds statements body [⟨[], 0, .once true, []⟩] statements.length
  | loop {body before after : List Node} {frames : List Frame} {head close stop : Nat} {text : String}
      {condition : Condition} :
      statements[head]? = some text → Denotes text (.opening condition) →
        Spans statements (head + 1) body close → statements[close]? = some "end" →
          Spans statements (close + 1) after stop →
            Surrounds statements (before.reverse ++ .loop (head + 1) condition body :: after) frames stop →
              Surrounds statements body (⟨before, head + 1, condition, after⟩ :: frames) close

/-- The nodes behind the point of a machine are what is written from a position on. -/
def Matches (statements : List String) (machine : Machine) (position : Nat) : Prop :=
  ∃ stop, Spans statements position machine.after stop ∧
    Surrounds statements (machine.before.reverse ++ machine.after) machine.frames stop

/-- A flat machine does what a machine in a tree does in a single step.  The root is left where the program
ends. -/
inductive Mirrors (statements : List String) (flat : FlatMachine) : Step → Prop where
  | failed {error : RuntimeError} :
      flat.step statements = .failed error → Mirrors statements flat (.failed error)
  | noted {action : Action} {next : Machine} {position : Nat} :
      flat.step statements = .noted action.looping ⟨position + 1, next.store⟩ → flat.line = action.line →
        Matches statements next position → Mirrors statements flat (.next action next)
  | halted {next : Machine} :
      flat.step statements = .halted → next.step = .finished → next.store = flat.store →
        Mirrors statements flat (.next (.left 0) next)

/-! ## Jumps -/

section
variable {statements : List String} {children rest : List Node} {head close stop : Nat} {text : String}
  {condition : Condition}

/-- The head and the end around a body are matched by counting. -/
theorem Spans.jumps (found : statements[head]? = some text) (denotes : Denotes text (.opening condition))
    (body : Spans statements (head + 1) children close) (close' : statements[close]? = some "end") :
    endOf? statements head = some close ∧ headOf? statements close = some head := by
  have opened := depth_succ found denotes
  have closed := Spans.depth_close found denotes body close'
  have extent := body.le
  have inside := (List.getElem?_eq_some_iff.1 close').1
  simp only [Statement.rise] at opened
  -- everywhere in the body the depth is above the one in front of the head and behind the end
  constructor
  · refine endOf?_eq_some inside (by omega) (by omega) ?_
    intro position after before
    have deep := body.depth_le (show head + 1 ≤ position + 1 by omega) (by omega)
    omega
  · refine headOf?_eq_some (by omega) (by omega) ?_
    intro position after before
    have deep := body.depth_le (show head + 1 ≤ position by omega) (by omega)
    omega

/-! ## Single steps -/

/-- Counting needs a value to start from, in the tree as well as on the line. -/
theorem Mirrors.update {machine : Machine} {op : Operation} {name : String} {change : Int64 → Int64}
    (flat : FlatMachine.step statements ⟨head + 1, machine.store⟩ =
      FlatMachine.update ⟨head + 1, machine.store⟩ name change)
    (known : ∀ value, machine.store.get? name = some value →
      op.apply machine.store = .ok (machine.store.set name (change value)))
    (unknown : machine.store.get? name = none → op.apply machine.store = .error (.undefinedVariable name))
    (moved : ∀ store, Matches statements
      { machine with store, before := .operation (head + 1) op :: machine.before, after := rest } (head + 1)) :
    Mirrors statements ⟨head + 1, machine.store⟩ (machine.perform (.operation (head + 1) op) rest) := by
  cases found : machine.store.get? name with
  | some value =>
      simp only [Machine.perform, known value found]
      refine .noted ?_ rfl (moved _)
      simp [flat, FlatMachine.update, found, Action.looping]
  | none =>
      simp only [Machine.perform, unknown found]
      refine .failed ?_
      simp [flat, FlatMachine.update, found]

theorem Mirrors.operation {op : Operation} (machine : Machine) (found : statements[head]? = some text)
    (denotes : Denotes text (.operation op)) (spans : Spans statements (head + 1) rest stop)
    (around : Surrounds statements (machine.before.reverse ++ .operation (head + 1) op :: rest)
      machine.frames stop) :
    Mirrors statements ⟨head + 1, machine.store⟩ (machine.perform (.operation (head + 1) op) rest) := by
  -- whatever the operation does to the store, the point has moved behind it
  have moved : ∀ store, Matches statements
      { machine with store, before := .operation (head + 1) op :: machine.before, after := rest }
      (head + 1) := by
    intro store
    refine ⟨stop, spans, ?_⟩
    simpa using around
  cases denotes with
  | clear isName =>
      have flat := FlatMachine.step_denotes machine.store found (.clear isName) rfl
      exact .noted flat rfl (moved _)
  | increment isName =>
      refine .update (FlatMachine.step_denotes _ found (.increment isName) rfl) ?_ ?_ moved
      · intro value known
        simp [Operation.apply, Store.read, known, bind, Except.bind, pure, Except.pure]
      · intro unknown
        simp [Operation.apply, Store.read, unknown, bind, Except.bind]
  | decrement isName =>
      refine .update (FlatMachine.step_denotes _ found (.decrement isName) rfl) ?_ ?_ moved
      · intro value known
        simp [Operation.apply, Store.read, known, bind, Except.bind, pure, Except.pure]
      · intro unknown
        simp [Operation.apply, Store.read, unknown, bind, Except.bind]

/-- The head of a loop is tested the same way whether it is met for the first time or again. -/
theorem Mirrors.loop (machine : Machine) (found : statements[head]? = some text)
    (denotes : Denotes text (.opening condition)) (body : Spans statements (head + 1) children close)
    (close' : statements[close]? = some "end") (behind : Spans statements (close + 1) rest stop)
    (around : Surrounds statements (machine.before.reverse ++ .loop (head + 1) condition children :: rest)
      machine.frames stop) :
    Mirrors statements ⟨head + 1, machine.store⟩
      (machine.perform (.loop (head + 1) condition children) rest) := by
  have jump := (Spans.jumps found denotes body close').1
  cases denotes with
  | @opening name number value isName isNumber =>
      have flat := FlatMachine.step_denotes machine.store found (.opening isName isNumber) rfl
      -- both read the variable first, and of the two operands only that one can be missing
      cases read : machine.store.get? name with
      | none =>
          have tree : Condition.holds machine.store (.compare .notEqual (.var name) (.literal value)) =
              .error (.undefinedVariable name) := by
            simp [Condition.holds, Store.resolve, Store.read, read, bind, Except.bind]
          simp only [Machine.perform, tree]
          refine .failed ?_
          simp [flat, FlatMachine.perform, read]
      | some current =>
          have tree : Condition.holds machine.store (.compare .notEqual (.var name) (.literal value)) =
              .ok (current != value) := by
            simp [Condition.holds, Store.resolve, Store.read, read, bind, Except.bind, pure, Except.pure,
              Comparison.holds]
          by_cases same : current = value
          · -- the loop is over, and the flat machine jumps behind the end
            have passed : (current != value) = false := by simp [same]
            simp only [Machine.perform, tree, passed]
            refine .noted ?_ rfl (show Matches statements _ (close + 1) from ⟨stop, behind, ?_⟩)
            · simp [flat, FlatMachine.perform, read, same, jump, Action.looping]
            · simpa [Condition.tested] using around
          · -- the body is entered, and the loop becomes the innermost frame
            have round : (current != value) = true := by simp [same]
            simp only [Machine.perform, tree, round]
            refine .noted ?_ rfl (show Matches statements _ (head + 1) from ⟨close, body, ?_⟩)
            · simp [flat, FlatMachine.perform, read, same, Action.looping]
            · exact .loop found (.opening isName isNumber) body close' behind around

end

/-! ## Steps that cannot be seen -/

/-- The flat machine moves on, and nothing can be seen of it. -/
def FlatMachine.Silent (statements : List String) (first next : FlatMachine) : Prop :=
  first.step statements = .silent next

/-- Wherever a machine stands in a tree, the flat machine comes to mirror its next step after some steps that
cannot be seen: it passes empty statements, and at the end of a body it returns to the head. -/
theorem Matches.step {statements : List String} {machine : Machine} {position : Nat}
    (h : Matches statements machine position) :
    ∃ later, Relation.ReflTransGen (FlatMachine.Silent statements) ⟨position + 1, machine.store⟩
        ⟨later + 1, machine.store⟩ ∧
      Mirrors statements ⟨later + 1, machine.store⟩ machine.step := by
  rcases h with ⟨stop, spans, around⟩
  rcases machine with ⟨store, before, after, frames⟩
  simp only at spans around ⊢
  induction spans with
  | @nil close =>
      -- the end of a body, or of the whole program
      cases around with
      | root =>
          -- the trigger of the root has fired, so that the root is left
          refine ⟨_, .refl, ?_⟩
          exact .halted (FlatMachine.step_length store) rfl rfl
      | @loop _ outer behind frames head close stop text condition found denotes body close' rest around =>
          -- the jump back is silent; the test that follows is the step of the tree
          have jump := (Spans.jumps found denotes body close').2
          have back : FlatMachine.Silent statements ⟨close + 1, store⟩ ⟨head + 1, store⟩ := by
            have flat := FlatMachine.step_denotes store close' .closing rfl
            simp [FlatMachine.Silent, flat, FlatMachine.perform, jump]
          refine ⟨head, .single back, ?_⟩
          have loop := Mirrors.loop ⟨store, outer, [], frames⟩ found denotes body close' rest around
          simpa [Machine.step, Frame.fill] using loop
  | blank found rest ih =>
      rcases ih around with ⟨later, path, mirrors⟩
      exact ⟨later, .head (FlatMachine.step_blank store found) path, mirrors⟩
  | operation found denotes rest ih =>
      -- no silent step is needed in front of a node
      refine ⟨_, .refl, ?_⟩
      exact Mirrors.operation ⟨store, before, _, frames⟩ found denotes rest around
  | loop found denotes body close' rest ihBody ihRest =>
      refine ⟨_, .refl, ?_⟩
      exact Mirrors.loop ⟨store, before, _, frames⟩ found denotes body close' rest around

/-! ## Whole runs -/

theorem FlatMachine.watch?_of_silent {statements : List String} {first last : FlatMachine} {fuel limit : Nat}
    {observation : Observation} (path : Relation.ReflTransGen (Silent statements) first last)
    (h : last.watch? statements fuel limit = some observation) :
    ∃ enough, first.watch? statements enough limit = some observation := by
  induction path using Relation.ReflTransGen.head_induction_on with
  | refl => exact ⟨fuel, h⟩
  | head silent _ ih =>
      rcases ih with ⟨enough, seen⟩
      refine ⟨enough + 1, ?_⟩
      simpa [watch?, show step statements _ = _ from silent] using seen

/-- What can be seen from the line on where the next step of the tree is mirrored can be seen from the line on that
belongs to the tree. -/
theorem Matches.watch?_of_mirrors {statements : List String} {machine : Machine} {position limit : Nat} {step : Step}
    {observation : Observation} (h : Matches statements machine position) (taken : machine.step = step)
    (seen : ∀ later, Mirrors statements ⟨later + 1, machine.store⟩ step →
      ∃ fuel, FlatMachine.watch? statements fuel limit ⟨later + 1, machine.store⟩ = some observation) :
    ∃ fuel, FlatMachine.watch? statements fuel limit ⟨position + 1, machine.store⟩ = some observation := by
  rcases h.step with ⟨later, path, mirrors⟩
  rcases seen later (taken ▸ mirrors) with ⟨fuel, seen⟩
  exact FlatMachine.watch?_of_silent path seen

/-- From a point and a line that belong together on, the same can be seen of both machines. -/
theorem Matches.run {statements : List String} {machine : Machine} {position : Nat}
    (h : Matches statements machine position) (limit : Nat) :
    ∃ fuel, FlatMachine.watch? statements fuel limit ⟨position + 1, machine.store⟩ =
      some (machine.run limit).observation := by
  -- the number of events that may still be seen goes down with each step of the tree
  induction limit, machine using Machine.run_induction generalizing position with
  | finished step =>
      -- a tree comes to its end only behind its root, where no line is left to match
      refine h.watch?_of_mirrors step fun _ mirrors => ?_
      cases mirrors
  | failed step =>
      refine h.watch?_of_mirrors step fun _ mirrors => ⟨1, ?_⟩
      rw [Machine.run_of_failed step]
      cases mirrors with
      | failed flat => simp [FlatMachine.watch?, flat, Run.observation, Run.store]
  | stopped step =>
      refine h.watch?_of_mirrors step fun _ mirrors => ⟨1, ?_⟩
      rw [Machine.run_zero_of_next step]
      cases mirrors with
      | noted flat _ _ => simp [FlatMachine.watch?, flat, Run.observation, Run.store]
      | halted flat _ same => simp [FlatMachine.watch?, flat, same, Run.observation, Run.store]
  | step step ih =>
      refine h.watch?_of_mirrors step fun _ mirrors => ?_
      rw [Machine.run_succ_of_next step, Run.observation_cons]
      cases mirrors with
      | noted flat line there =>
          rcases ih there with ⟨fuel, seen⟩
          refine ⟨fuel + 1, ?_⟩
          simp only at line
          simp [FlatMachine.watch?, flat, seen, Event.line, Event.looping, ← line]
      | halted flat finished same =>
          -- leaving the root is the last event of both
          refine ⟨1, ?_⟩
          rw [Machine.run_of_finished finished]
          simp [FlatMachine.watch?, flat, same, Run.observation, Run.store, Observation.cons, Event.line,
            Event.looping, Action.line, Action.looping]

/-! ## Programs -/

/-- A program that strict mode accepts does, from the empty store, what a flat machine does with it: the same
events, the same end, and the same store at the end, however many events may be seen. -/
theorem execute_watch {program : String} {root : Node} (h : compile .strict program = .ok root) (limit : Nat) :
    ∃ enough, ∀ fuel ≥ enough,
      watchProgram? (Source.statements program) fuel limit =
        some (execute limit .empty root).observation := by
  rcases compileStatements_strict_ok.1 h with ⟨nodes, spans, rfl⟩
  -- the first step of the tree enters the root; from there on the two machines match
  have entered : (Machine.start .empty (Node.root nodes)).step =
      .next (.entered 0) ⟨.empty, [], nodes, [⟨[], 0, .once true, []⟩]⟩ := rfl
  unfold execute
  cases limit with
  | zero =>
      rw [Machine.run_zero_of_next entered]
      exact ⟨0, fun _ _ => rfl⟩
  | succ limit =>
      have there : Matches (Source.statements program) ⟨.empty, [], nodes, [⟨[], 0, .once true, []⟩]⟩ 0 :=
        ⟨_, spans, .root⟩
      rcases there.run limit with ⟨enough, seen⟩
      rw [Machine.run_succ_of_next entered, Run.observation_cons]
      refine ⟨enough, ?_⟩
      intro fuel more
      have seen' := FlatMachine.watch?_mono more seen
      simp [watchProgram?, seen', Event.line, Event.looping, Action.line, Action.looping]

/-- A loop that goes round once, and an operation behind it. -/
theorem execute_watch_countdown :
    compile .strict "clear x;incr x;;while x not 0 do;decr x;end;clear y" =
        .ok (Node.root
          [.operation 1 (.clear "x"), .operation 2 (.increment "x"),
           .loop 4 (.compare .notEqual (.var "x") (.literal 0)) [.operation 5 (.decrement "x")],
           .operation 7 (.clear "y")]) ∧
      ∀ limit, ∃ enough, ∀ fuel ≥ enough,
        watchProgram? (Source.statements "clear x;incr x;;while x not 0 do;decr x;end;clear y") fuel limit =
          some (execute limit .empty (Node.root
            [.operation 1 (.clear "x"), .operation 2 (.increment "x"),
             .loop 4 (.compare .notEqual (.var "x") (.literal 0)) [.operation 5 (.decrement "x")],
             .operation 7 (.clear "y")])).observation :=
  ⟨rfl, fun limit => execute_watch (show compile .strict _ = .ok _ from rfl) limit⟩

end CounterLang
