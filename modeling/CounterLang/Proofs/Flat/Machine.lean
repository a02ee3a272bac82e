import CounterLang.Proofs.Source.Nesting
import CounterLang.Run

/-!
# Flat machine — running a program without a tree

A flat machine stands on a line of a program and holds a store.  It goes from statement to statement; a loop
that is over is left behind the end that belongs to it, and an end leads back to its head.  Heads and ends are
matched by counting: no tree is built, and nothing is kept of the loops that have been entered.

- `Instruction.ofText?`       : what a statement asks for, told from its words
- `Source.endOf?`, `headOf?`  : the end of a loop, and the head that an end belongs to
- `FlatMachine.step`          : one statement carried out
- `Observation`               : what can be seen of a run from outside
- `watchProgram?`             : the observation of a flat machine that is run from line 1
- `watch?_mono`               : more fuel makes no difference to an observation
-/

namespace CounterLang

/-! ## Instructions -/

inductive Instruction
  | idle
  | clear (name : String)
  | increment (name : String)
  | decrement (name : String)
  /-- Stay in the loop as long as the variable differs from the number. -/
  | test (name : String) (value : Int64)
  /-- Return to the head of the loop. -/
  | back
  deriving DecidableEq, Repr

namespace Instruction

/-- The instruction in a statement, if its words have one of the known forms. -/
def ofText? (text : String) : Option Instruction :=
  match Text.pieces ' ' text with
  | [""] => some idle
  | ["clear", name] => some (clear name)
  | ["incr", name] => some (increment name)
  | ["decr", name] => some (decrement name)
  | ["while", name, "not", number, "do"] => (Numeral.read? number).map (test name)
  | ["end"] => some back
  | _ => none

/-- The instruction that a statement stands for, if there is one. -/
def ofStatement? : Statement → Option Instruction
  | .operation (.clear name) => some (clear name)
  | .operation (.increment name) => some (increment name)
  | .operation (.decrement name) => some (decrement name)
  | .opening (.compare .notEqual (.var name) (.literal value)) => some (test name value)
  | .closing => some back
  | _ => none

theorem ofText?_empty : ofText? "" = some idle := by
  decide

/-- The flat machine takes the words of a statement for what they denote. -/
theorem ofText?_eq {text : String} {statement : Statement} (h : statement.Denotes text) :
    ofText? text = ofStatement? statement := by
  -- each of the five forms is a sequence of words that the pattern match goes through by computation
  have inWords := h.inWords
  unfold ofText?
  generalize Text.pieces ' ' text = words at inWords
  cases inWords with
  | clear isName => rfl
  | increment isName => rfl
  | decrement isName => rfl
  | opening isName isNumber => simp [isNumber, ofStatement?]
  | closing => rfl

end Instruction

/-! ## Matching heads and ends -/

namespace Source

/-- The position of the end that belongs to a loop head: the first one behind the head that takes the depth
back to what it is in front of the head. -/
def endOf? (statements : List String) (head : Nat) : Option Nat :=
  (List.range statements.length).find? fun position =>
    head < position && depth statements (position + 1) ≤ depth statements head

/-- The position of the loop head that an end belongs to: the last one in front of the end where the depth is
what it is behind the end. -/
def headOf? (statements : List String) (close : Nat) : Option Nat :=
  (List.range close).reverse.find? fun position =>
    depth statements position ≤ depth statements (close + 1)

theorem endOf?_eq_some {statements : List String} {head close : Nat} (inside : close < statements.length)
    (behind : head < close) (back : depth statements (close + 1) ≤ depth statements head)
    (between : ∀ position, head < position → position < close →
      depth statements head < depth statements (position + 1)) :
    endOf? statements head = some close := by
  refine List.find?_range_eq_some.2 ⟨by simp [behind, back], by simpa using inside, ?_⟩
  intro position before
  -- in front of the head nothing is looked for, and in the body the depth stays above
  by_cases after : head < position
  · have deep := between position after before
    simp [after]
    omega
  · simp [after]

theorem headOf?_eq_some {statements : List String} {head close : Nat} (before : head < close)
    (back : depth statements head ≤ depth statements (close + 1))
    (between : ∀ position, head < position → position < close →
      depth statements (close + 1) < depth statements position) :
    headOf? statements close = some head := by
  -- the positions in front of the end, from the last one back to the head
  have split : (List.range close).reverse =
      (List.range' (head + 1) (close - (head + 1))).reverse ++ head :: (List.range head).reverse := by
    have joined := List.range'_append_1 (s := 0) (m := head + 1) (n := close - (head + 1))
    rw [Nat.zero_add, show head + 1 + (close - (head + 1)) = close by omega, ← List.range_eq_range',
      ← List.range_eq_range', List.range_succ] at joined
    rw [← joined]
    simp
  refine List.find?_eq_some_iff_append.2 ⟨by simpa using back, _, _, split, ?_⟩
  intro position mem
  have bounds : head < position ∧ position < close := by
    simp [List.mem_range'_1] at mem
    omega
  have deep := between position bounds.1 bounds.2
  simp
  omega

end Source

/-! ## Machines -/

structure FlatMachine where
  line : Nat
  store : Store
  deriving DecidableEq

/-- What a flat machine does with the statement on its line. -/
inductive FlatStep
  /-- There is no statement, or none that can be carried out. -/
  | halted
  | failed (error : RuntimeError)
  /-- The machine moves on, and nothing can be seen of it. -/
  | silent (next : FlatMachine)
  /-- The machine moves on with an event; `looping` tells whether it enters the body of a loop. -/
  | noted (looping : Bool) (next : FlatMachine)

namespace FlatMachine

/-- Changes a variable that must have a value, and goes on with the next line. -/
def update (machine : FlatMachine) (name : String) (change : Int64 → Int64) : FlatStep :=
  match machine.store.get? name with
  | some value => .noted false ⟨machine.line + 1, machine.store.set name (change value)⟩
  | none => .failed (.undefinedVariable name)

/-- Carries out an instruction on the line where the machine stands; positions are one less than lines. -/
def perform (statements : List String) (machine : FlatMachine) : Instruction → FlatStep
  | .idle => .silent ⟨machine.line + 1, machine.store⟩
  | .clear name => .noted false ⟨machine.line + 1, machine.store.set name 0⟩
  | .increment name => machine.update name (· + 1)
  | .decrement name => machine.update name (· - 1)
  | .test name number =>
    match machine.store.get? name with
    | some value =>
      -- the body is skipped together with its end
      if value = number then
        match Source.endOf? statements (machine.line - 1) with
        | some close => .noted false ⟨close + 2, machine.store⟩
        | none => .halted
      else .noted true ⟨machine.line + 1, machine.store⟩
    | none => .failed (.undefinedVariable name)
  | .back =>
    match Source.headOf? statements (machine.line - 1) with
    | some head => .silent ⟨head + 1, machine.store⟩
    | none => .halted

def step (statements : List String) (machine : FlatMachine) : FlatStep :=
  match statements[machine.line - 1]?.bind Instruction.ofText? with
  | some instruction => machine.perform statements instruction
  | none => .halted

section
variable {statements : List String} {position : Nat}

theorem step_blank (store : Store) (found : statements[position]? = some "") :
    step statements ⟨position + 1, store⟩ = .silent ⟨position + 2, store⟩ := by
  simp [step, found, Instruction.ofText?_empty, perform]

theorem step_length (store : Store) : step statements ⟨statements.length + 1, store⟩ = .halted := by
  simp [step]

/-- Where a statement is, the machine carries out the instruction it stands for. -/
theorem step_denotes {text : String} {statement : Statement} {instruction : Instruction} (store : Store)
    (found : statements[position]? = some text) (denotes : statement.Denotes text)
    (stands : Instruction.ofStatement? statement = some instruction) :
    step statements ⟨position + 1, store⟩ = perform statements ⟨position + 1, store⟩ instruction := by
  simp [step, found, Instruction.ofText?_eq denotes, stands]

end

end FlatMachine

/-! ## Observations -/

/-- What can be seen of a run: its events, each with a line, whether a body is entered, and the store after
it; how the run ends, and the store at the end. -/
structure Observation where
  events : List (Nat × Bool × Store)
  outcome : Outcome
  store : Store
  deriving DecidableEq

namespace Observation

def cons (event : Nat × Bool × Store) (observation : Observation) : Observation :=
  { observation with events := event :: observation.events }

end Observation

/-- What can be seen of the run of a tree. -/
def Run.observation (run : Run) : Observation where
  events := run.events.map fun event => (event.line, event.looping, event.store)
  outcome := run.outcome
  store := run.store

theorem Run.observation_cons (event : Event) (run : Run) :
    (run.cons event).observation = run.observation.cons (event.line, event.looping, event.store) := rfl

namespace FlatMachine

/-- What can be seen of a flat machine up to `limit` events, if `fuel` steps are enough for them.  A machine
that halts ends with an event on line 0. -/
def watch? (statements : List String) : (fuel limit : Nat) → FlatMachine → Option Observation
  | 0, _, _ => none
  | fuel + 1, limit, machine =>
    match machine.step statements, limit with
    -- a machine that has nothing left to do still has its last event to show
    | .halted, 0 => some ⟨[], .stopped, machine.store⟩
    | .halted, _ + 1 => some ⟨[(0, false, machine.store)], .finished, machine.store⟩
    | .failed error, _ => some ⟨[], .failed error, machine.store⟩
    | .silent next, limit => watch? statements fuel limit next
    -- the step that would have shown one event too many has been made all the same
    | .noted _ next, 0 => some ⟨[], .stopped, next.store⟩
    | .noted looping next, limit + 1 =>
      (watch? statements fuel limit next).map (.cons (machine.line, looping, next.store))

/-- More fuel makes no difference to an observation. -/
theorem watch?_mono {statements : List String} {fuel more limit : Nat} {machine : FlatMachine}
    {observation : Observation} (enough : fuel ≤ more)
    (h : watch? statements fuel limit machine = some observation) :
    watch? statements more limit machine = some observation := by
  induction fuel generalizing more limit machine observation with
  | zero => cases h
  | succ fuel ih =>
      cases more with
      | zero => omega
      | succ more =>
          have rest : fuel ≤ more := by omega
          -- only two kinds of step go on with what is left of the fuel
          unfold watch? at h ⊢
          cases step : machine.step statements with
          | halted =>
              rw [step] at h
              cases limit with
              | zero => exact h
              | succ limit => exact h
          | failed error =>
              rw [step] at h
              exact h
          | silent next =>
              rw [step] at h
              exact ih rest h
          | noted looping next =>
              rw [step] at h
              cases limit with
              | zero => exact h
              | succ limit =>
                  simp only [Option.map_eq_some_iff] at h ⊢
                  rcases h with ⟨seen, found, same⟩
                  exact ⟨seen, ih rest found, same⟩

end FlatMachine

/-- What can be seen of a program that is run by a flat machine, from line 1 and the empty store on, behind a
first event on line 0. -/
def watchProgram? (statements : List String) (fuel : Nat) : (limit : Nat) → Option Observation
  | 0 => some ⟨[], .stopped, .empty⟩
  | limit + 1 =>
    (FlatMachine.watch? statements fuel limit ⟨1, .empty⟩).map (.cons (0, true, .empty))

example :
    (watchProgram? (Source.statements "clear x;incr x;while x not 0 do;decr x;end") 12 9).map
        (fun seen => (seen.events.map fun event => (event.1, event.2.1), seen.outcome)) =
      some ([(0, true), (1, false), (2, false), (3, true), (4, false), (3, false), (0, false)],
        .finished) := by
  decide

end CounterLang
