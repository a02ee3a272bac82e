import CounterLang.Proofs.Compilation.Writing
import CounterLang.Proofs.Run.Reads
import CounterLang.Proofs.Run.Sequence

/-!
# Cleared — programs that never read what has not been cleared

A variable is definitely cleared at a node if it is cleared by a sibling in front of the node, or by a sibling in
front of a loop around it.  What is cleared inside of a loop does not count behind it, since a body need not be
entered at all.  If each node finds the variables that it reads definitely cleared, no run of the program fails.

- `Clears`                      : what is cleared in front of a point, told from its surroundings
- `DefinitelyCleared`           : each node of a forest finds what it reads
- `checkCleared_iff`            : which can be checked from one node to the next
- `Machine.Stocked`             : what has been cleared in front of a machine is in its store
- `execute_definitelyCleared`   : a program that is definitely cleared never fails
-/

namespace CounterLang

/-! ## Definitely cleared forests -/

/-- A variable is cleared by a sibling in front of a point, or by a sibling in front of a loop around it. -/
def Clears (before : List Node) (frames : List Frame) (name : String) : Prop :=
  ∃ siblings ∈ before :: frames.map Frame.before, ∃ line, Node.operation line (.clear name) ∈ siblings

/-- Each node of a forest, however deep, reads only variables that are cleared in front of it. -/
def DefinitelyCleared (nodes : List Node) : Prop :=
  ∀ point : Point, point.forest = nodes → ∀ name ∈ point.node.reads, Clears point.before point.frames name

section
variable {before after nodes : List Node} {frames : List Frame} {frame : Frame} {node : Node} {name : String}

theorem Clears.of_cons (h : Clears (node :: before) frames name) :
    (∃ line, node = .operation line (.clear name)) ∨ Clears before frames name := by
  rcases h with ⟨siblings, mem, line, clear⟩
  rcases List.mem_cons.1 mem with rfl | outer
  · rcases List.mem_cons.1 clear with rfl | clear
    · exact .inl ⟨line, rfl⟩
    · exact .inr ⟨before, List.mem_cons_self, line, clear⟩
  · exact .inr ⟨siblings, List.mem_cons_of_mem _ outer, line, clear⟩

theorem Clears.cons (h : Clears before frames name) : Clears (node :: before) frames name := by
  rcases h with ⟨siblings, mem, line, clear⟩
  rcases List.mem_cons.1 mem with rfl | outer
  · exact ⟨node :: siblings, List.mem_cons_self, line, List.mem_cons_of_mem _ clear⟩
  · exact ⟨siblings, List.mem_cons_of_mem _ outer, line, clear⟩

/-- At the head of a body what is cleared is what is cleared in front of the loop. -/
theorem clears_nil_iff : Clears [] (frame :: frames) name ↔ Clears frame.before frames name := by
  simp [Clears]

/-- What is cleared in front of a loop is cleared in its body. -/
theorem Clears.inside (h : Clears frame.before frames name) : Clears before (frame :: frames) name := by
  rcases h with ⟨siblings, mem, clear⟩
  exact ⟨siblings, List.mem_cons_of_mem _ mem, clear⟩

end

/-! ## Machines that stay in their forest -/

/-- A step changes nothing in a forest but the triggers of loops. -/
theorem Point.Moves.forest {store : Store} {point : Point} {action : Action} {next : Machine}
    (h : point.Moves store action next)
    (steady : ∀ line condition children, point.node = .loop line condition children → condition.tested = condition) :
    next.forest = point.forest := by
  cases h with
  | applied _ => simp [Machine.forest, Point.forest]
  | entered _ =>
      rw [steady _ _ _ rfl]
      simp [Machine.forest, Point.forest, plug, Frame.fill]
  | left _ =>
      rw [steady _ _ _ rfl]
      simp [Machine.forest, Point.forest]

/-- A machine stands in a forest, and what is cleared in front of it is in its store. -/
structure Machine.Stocked (nodes : List Node) (machine : Machine) : Prop where
  forest : machine.forest = nodes
  present : ∀ name, Clears machine.before machine.frames name → (machine.store.get? name).isSome

/-- Forests in which every step changes the store only, and which hold no reserved arithmetic. -/
structure Steady (nodes : List Node) : Prop where
  tested : ∀ point : Point, point.forest = nodes →
    ∀ line condition children, point.node = .loop line condition children → condition.tested = condition
  carried : ∀ point : Point, point.forest = nodes →
    ∀ line kind target operand, point.node ≠ .operation line (.arithmetic kind target operand)

section
variable {machine next last : Machine} {nodes : List Node} {point : Point} {action : Action} {events : List Event}

/-- What is cleared in front of the node that a machine faces is cleared in front of the machine. -/
theorem Machine.clears_of_point? {name : String} (faced : machine.point? = some point)
    (h : Clears point.before point.frames name) : Clears machine.before machine.frames name := by
  rcases machine with ⟨store, before, after, frames⟩
  cases after with
  | cons node rest =>
      obtain rfl := Option.some.inj faced
      exact h
  | nil =>
      cases frames with
      | nil => cases faced
      | cons frame frames =>
          obtain rfl := Option.some.inj faced
          exact h.inside

theorem Point.Moves.present {store : Store} (h : point.Moves store action next)
    (present : ∀ name, Clears point.before point.frames name → (store.get? name).isSome) (name : String)
    (clears : Clears next.before next.frames name) : (next.store.get? name).isSome := by
  cases h with
  | @applied before _ frames line op changed result =>
      rcases clears.of_cons with ⟨_, same⟩ | clears
      · -- the operation has just cleared the variable
        obtain ⟨rfl, rfl⟩ := Node.operation.inj same
        obtain rfl : store.set name 0 = changed := Except.ok.inj result
        simp [Store.get?_set]
      · exact Operation.isSome_apply result (present name clears)
  | entered _ => exact present name (clears_nil_iff.1 clears)
  | left _ =>
      rcases clears.of_cons with ⟨_, same⟩ | clears
      · cases same
      · exact present name clears

namespace Machine

theorem Stocked.step (h : machine.Stocked nodes) (steady : Steady nodes) (step : machine.step = .next action next) :
    next.Stocked nodes := by
  rcases step_eq_next_iff.1 step with ⟨point, faced, moves⟩
  have here : point.forest = nodes := (forest_of_point? faced).trans h.forest
  constructor
  · exact (moves.forest (steady.tested point here)).trans here
  · exact moves.present fun name clears => h.present name (clears_of_point? faced clears)

theorem Stocked.path (h : machine.Stocked nodes) (steady : Steady nodes) (path : machine.Path events last) :
    last.Stocked nodes := by
  induction path with
  | refl => exact h
  | step step _ ih => exact ih (h.step steady step)

/-- In a definitely cleared forest the next step does not fail. -/
theorem Stocked.ne_failed (h : machine.Stocked nodes) (steady : Steady nodes) (cleared : DefinitelyCleared nodes)
    (error : RuntimeError) : machine.step ≠ .failed error := by
  intro step
  rcases step_eq_failed_iff.1 step with ⟨point, faced, fails⟩
  have here : point.forest = nodes := (forest_of_point? faced).trans h.forest
  rcases fails.cases with ⟨name, read, missing, _⟩ | ⟨line, kind, target, operand, node, _⟩
  · have present := h.present name (clears_of_point? faced (cleared point here name read))
    simp [missing] at present
  · exact steady.carried point here line kind target operand node

theorem Stocked.run_ne_failed (h : machine.Stocked nodes) (steady : Steady nodes)
    (cleared : DefinitelyCleared nodes) (limit : Nat) (error : RuntimeError) :
    (machine.run limit).outcome ≠ .failed error := by
  intro fails
  have path := (machine.path_run limit)
  exact (h.path steady path).ne_failed steady cleared error (step_of_run_failed fails)

end Machine
end

/-! ## Compiled forests -/

section
variable {front back body nodes : List Node} {frames : List Frame}

theorem Writable.of_append (h : Writable (front ++ back)) : Writable back := by
  induction front with
  | nil => exact h
  | cons node front ih =>
      cases h with
      | operation _ rest => exact ih rest
      | loop _ _ rest => exact ih rest

theorem Writable.of_plug (h : Writable (plug body frames)) : Writable body := by
  induction frames generalizing body with
  | nil => exact h
  | cons frame frames ih =>
      cases (ih h).of_append with
      | loop _ children _ => exact children

/-- Neither triggers nor reserved arithmetic can be written. -/
theorem Writable.steady (h : Writable nodes) : Steady nodes := by
  have here : ∀ point : Point, point.forest = nodes → Writable (point.node :: point.after) := by
    intro point same
    subst same
    exact h.of_plug.of_append
  constructor
  · intro point same line condition children node
    have written := here point same
    rw [node] at written
    cases written with
    | loop writable _ _ =>
        cases writable with
        | notEqual _ => rfl
  · intro point same line kind target operand node
    have written := here point same
    rw [node] at written
    cases written with
    | operation writable _ => cases writable

end

/-- Every compiled tree can be written. -/
theorem exists_writable_of_compile {program : String} {mode : Mode} {root : Node}
    (h : compile mode program = .ok root) : ∃ nodes, Writable nodes ∧ root = Node.root nodes := by
  rcases exists_spans_of_compile h with ⟨nested, nodes, spans, same⟩
  exact ⟨nodes, spans.writable fun _ mem => Text.notMem_of_mem_pieces mem, same⟩

/-! ## Checking node by node -/

/-- The variable that a node clears by itself, whatever happens inside of it. -/
def Node.clears? : Node → Option String
  | .operation _ (.clear name) => some name
  | _ => none

mutual

/-- Whether a tree reads only variables that are known to be cleared, or cleared in front inside of it. -/
def Node.checkCleared (known : List String) : Node → Bool
  | .operation _ op => op.reads.all known.contains
  | .loop _ condition children => condition.reads.all known.contains && checkAllCleared known children

def Node.checkAllCleared (known : List String) : List Node → Bool
  | [] => true
  | node :: rest => node.checkCleared known && checkAllCleared (node.clears?.toList ++ known) rest

end

section
variable {known : List String} {before nodes body rest : List Node} {node : Node} {frames : List Frame}

theorem Node.clears?_eq_some_iff {name : String} :
    node.clears? = some name ↔ ∃ line, node = .operation line (.clear name) := by
  rcases node with ⟨line, op⟩ | ⟨line, condition, children⟩
  · cases op <;> simp [clears?]
  · simp [clears?]

theorem Node.reads_of_check (h : node.checkCleared known = true) : ∀ name ∈ node.reads, name ∈ known := by
  cases node with
  | operation line op => simpa [checkCleared, reads] using h
  | loop line condition children =>
      have both : (∀ name ∈ condition.reads, name ∈ known) ∧ checkAllCleared known children = true := by
        simpa [checkCleared] using h
      exact both.1

/-- In the course of a check what is known grows by what the siblings passed so far clear. -/
theorem check_append (outside : ∀ name ∈ known, Clears [] frames name)
    (h : Node.checkAllCleared known (before.reverse ++ rest) = true) :
    ∃ here, (∀ name ∈ here, Clears before frames name) ∧ Node.checkAllCleared here rest = true := by
  induction before generalizing rest with
  | nil => exact ⟨known, outside, h⟩
  | cons last before ih =>
      rw [List.reverse_cons, List.append_assoc] at h
      rcases ih h with ⟨here, clears, checked⟩
      have both : last.checkCleared here = true ∧ Node.checkAllCleared (last.clears?.toList ++ here) rest = true := by
        simpa [Node.checkAllCleared] using checked
      refine ⟨_, ?_, both.2⟩
      intro name mem
      rcases List.mem_append.1 mem with new | old
      · rcases Node.clears?_eq_some_iff.1 (Option.mem_toList.1 new) with ⟨line, rfl⟩
        exact ⟨_, List.mem_cons_self, line, List.mem_cons_self⟩
      · exact (clears name old).cons

/-- A check comes to each body with nothing but what is cleared in front of the loops around it. -/
theorem check_plug (h : Node.checkAllCleared [] (plug body frames) = true) :
    ∃ here, (∀ name ∈ here, Clears [] frames name) ∧ Node.checkAllCleared here body = true := by
  induction frames generalizing body with
  | nil => exact ⟨[], by simp, h⟩
  | cons frame frames ih =>
      rcases ih h with ⟨outside, clears, checked⟩
      rcases check_append clears checked with ⟨here, clears, checked⟩
      refine ⟨here, fun name mem => clears_nil_iff.2 (clears name mem), ?_⟩
      have all : (frame.fill body).checkCleared here = true := by
        simp only [Node.checkAllCleared, Bool.and_eq_true] at checked
        exact checked.1
      simp only [Frame.fill, Node.checkCleared, Bool.and_eq_true] at all
      exact all.2

theorem mem_known_cons (known_all : ∀ name, Clears before frames name → name ∈ known) (name : String)
    (clears : Clears (node :: before) frames name) : name ∈ node.clears?.toList ++ known := by
  rcases clears.of_cons with clear | clears
  · exact List.mem_append_left _ (Option.mem_toList.2 (Node.clears?_eq_some_iff.2 clear))
  · exact List.mem_append_right _ (known_all name clears)

/-- A check that knows all that is cleared in front of some nodes accepts them, if each of them finds what it
reads. -/
theorem check_of_cleared (before : List Node) (frames : List Frame)
    (known_all : ∀ name, Clears before frames name → name ∈ known)
    (h : ∀ point : Point, point.forest = plug (before.reverse ++ nodes) frames →
      ∀ name ∈ point.node.reads, Clears point.before point.frames name) :
    Node.checkAllCleared known nodes = true := by
  induction nodes using Node.forest_induction generalizing before frames known with
  | nil => rfl
  | operation line op rest ih =>
      have reads : ∀ name ∈ op.reads, name ∈ known := fun name read =>
        known_all name (h ⟨before, .operation line op, rest, frames⟩ rfl name read)
      have behind := ih (.operation line op :: before) frames (mem_known_cons known_all) (by simpa using h)
      simpa [Node.checkAllCleared, Node.checkCleared, behind] using reads
  | loop line condition children rest ihChildren ihRest =>
      have reads : ∀ name ∈ condition.reads, name ∈ known := fun name read =>
        known_all name (h ⟨before, .loop line condition children, rest, frames⟩ rfl name read)
      have inside := ihChildren [] (⟨before, line, condition, rest⟩ :: frames)
        (fun name clears => known_all name (clears_nil_iff.1 clears)) h
      have behind := ihRest (.loop line condition children :: before) frames (mem_known_cons known_all)
        (by simpa using h)
      simpa [Node.checkAllCleared, Node.checkCleared, inside, behind] using reads

end

/-- Whether a forest is definitely cleared can be told in one pass over it. -/
theorem checkCleared_iff (nodes : List Node) : Node.checkAllCleared [] nodes = true ↔ DefinitelyCleared nodes := by
  constructor
  · rintro h ⟨before, node, after, frames⟩ rfl name read
    rcases check_plug h with ⟨outside, clears, checked⟩
    rcases check_append clears checked with ⟨here, clears, checked⟩
    simp only [Node.checkAllCleared, Bool.and_eq_true] at checked
    exact clears name (Node.reads_of_check checked.1 name read)
  · intro h
    refine check_of_cleared [] [] ?_ h
    rintro name ⟨siblings, mem, line, clear⟩
    obtain rfl := List.mem_singleton.1 mem
    cases clear

instance (nodes : List Node) : Decidable (DefinitelyCleared nodes) :=
  decidable_of_iff _ (checkCleared_iff nodes)

/-- What is cleared inside of a loop does not count behind it. -/
example : ¬ DefinitelyCleared
    [.operation 1 (.clear "n"),
     .loop 2 (.compare .notEqual (.var "n") (.literal 1)) [.operation 3 (.clear "m"), .operation 4 (.increment "n")],
     .operation 6 (.increment "m")] := by decide

/-! ## Programs -/

/-- A program in which each variable is cleared in front of every node that reads it, among the siblings of that
node or of a loop around it, never fails: however many events may be recorded, it has come to its end, or it has
been stopped at the event behind all of these. -/
theorem execute_definitelyCleared {program : String} {mode : Mode} {root : Node}
    (h : compile mode program = .ok root) (cleared : DefinitelyCleared root.children) (limit : Nat) :
    (execute limit .empty root).outcome = .finished ∨
      (execute limit .empty root).outcome = .stopped ∧ (execute limit .empty root).events.length = limit := by
  rcases exists_writable_of_compile h with ⟨nodes, writable, rfl⟩
  have stocked : (Machine.among .empty nodes).Stocked nodes := by
    refine ⟨rfl, ?_⟩
    rintro name ⟨siblings, mem, line, clear⟩
    obtain rfl := List.mem_singleton.1 mem
    cases clear
  have safe : ∀ error, (execute limit .empty (Node.root nodes)).outcome ≠ .failed error := by
    cases limit with
    | zero => exact fun error => nofun
    | succ limit =>
        intro error fails
        have body := stocked.run_ne_failed writable.steady cleared limit
        have seen := congrArg Observation.outcome (observation_execute_root .empty nodes limit)
        exact Run.outcome_closed_ne_failed body error (seen.symm.trans fails)
  rcases run : execute limit .empty (Node.root nodes) with ⟨events, outcome, final⟩
  rw [run] at safe
  rcases Machine.run_eq_iff.1 run with ⟨last, left, _, length, ends⟩
  cases ends with
  | finished _ => exact .inl rfl
  | failed _ => exact absurd rfl (safe _)
  | stopped _ => exact .inr ⟨rfl, length.symm⟩

/-- The loop reads what is cleared in front of it, and its body what is cleared in the body or in front of the
loop. -/
theorem execute_definitelyCleared_loop :
    ∃ root, compile .lenient "clear x;incr x;while x not 9 do;clear y;incr y;incr x;end;end;incr z" = .ok root ∧
      DefinitelyCleared root.children ∧
        ∀ limit, (execute limit .empty root).outcome = .finished ∨
          (execute limit .empty root).outcome = .stopped ∧ (execute limit .empty root).events.length = limit := by
  have compiled : compile .lenient "clear x;incr x;while x not 9 do;clear y;incr y;incr x;end;end;incr z" =
      .ok (Node.root
        [.operation 1 (.clear "x"), .operation 2 (.increment "x"),
         .loop 3 (.compare .notEqual (.var "x") (.literal 9))
           [.operation 4 (.clear "y"), .operation 5 (.increment "y"), .operation 6 (.increment "x")]]) := rfl
  have cleared : DefinitelyCleared
      [.operation 1 (.clear "x"), .operation 2 (.increment "x"),
       .loop 3 (.compare .notEqual (.var "x") (.literal 9))
         [.operation 4 (.clear "y"), .operation 5 (.increment "y"), .operation 6 (.increment "x")]] := by decide
  exact ⟨_, compiled, cleared, execute_definitelyCleared compiled cleared⟩

end CounterLang
