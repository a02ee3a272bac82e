import CounterLang.Proofs.Compilation.Repair
import CounterLang.Proofs.Run.Rounds
import CounterLang.Session

/-!
# Session triggers — a trigger fires once in a whole session

A session executes its trees in any order, again and again; each execution finishes, fails, or is abandoned at some
event.  Whatever becomes of an execution, the triggers that it has fired have fired for the rest of the session.

- `Session.Turn`       : one execution in a session
- `Session.play`       : the session after some executions
- `Session.history`    : all events of some executions, each with the tree and the node that it comes from
- `Session.fired_play` : what becomes of the trees
- `Session.fired?_play`: a trigger has fired as often as its loop has been entered
- `Session.fires_once` : all of this, and what is left of a program that has been executed
-/

namespace CounterLang
namespace Session

/-! ## Turns -/

/-- One execution in a session: of the tree at an index, abandoned at the event behind the first `limit` ones. -/
structure Turn where
  index : Nat
  limit : Nat

/-- The session after an execution. -/
def next (session : Session) (turn : Turn) : Session :=
  (session.execute? turn.limit turn.index).elim session Prod.snd

/-- The session after some executions, one after the other. -/
def play (session : Session) (turns : List Turn) : Session :=
  turns.foldl next session

/-- The events of an execution, with the one that it is abandoned at, each with the tree and the node that it comes
from. -/
def emitted (session : Session) (turn : Turn) : List ((Nat × List Nat) × Event) :=
  match session.trees[turn.index]? with
  | none => []
  | some tree =>
    ((Machine.start session.store tree).located (execute (turn.limit + 1) session.store tree).events).map
      fun entry => ((turn.index, entry.1), entry.2)

/-- The events of some executions, one after the other. -/
def history (session : Session) : List Turn → List ((Nat × List Nat) × Event)
  | [] => []
  | turn :: turns => session.emitted turn ++ (session.next turn).history turns

/-- Whether the trigger at an address of a tree has fired, if there is one. -/
def fired? (session : Session) (index : Nat) (address : List Nat) : Option Bool :=
  session.trees[index]?.bind fun tree => tree.fired? address

theorem play_append (session : Session) (front back : List Turn) :
    session.play (front ++ back) = (session.play front).play back :=
  List.foldl_append

theorem history_append (session : Session) (front back : List Turn) :
    session.history (front ++ back) = session.history front ++ (session.play front).history back := by
  induction front generalizing session with
  | nil => rfl
  | cons turn front ih =>
      rw [List.cons_append, history, history, ih, List.append_assoc]
      rfl

section
variable {session : Session} {turn : Turn} {index line : Nat} {tree : Node} {children : List Node}
  {address : List Nat} {fired : Bool}

theorem next_of_none (missing : session.trees[turn.index]? = none) : session.next turn = session := by
  simp [next, execute?, missing]

theorem next_of_some (found : session.trees[turn.index]? = some tree) :
    session.next turn = ⟨session.trees.set turn.index (execute turn.limit session.store tree).tree,
      (execute turn.limit session.store tree).store⟩ := by
  simp [next, execute?, found]

theorem getElem?_next_of_ne (other : turn.index ≠ index) :
    (session.next turn).trees[index]? = session.trees[index]? := by
  cases found : session.trees[turn.index]? with
  | none => rw [next_of_none found]
  | some tree => rw [next_of_some found, List.getElem?_set_ne other]

theorem getElem?_next_self (found : session.trees[turn.index]? = some tree) :
    (session.next turn).trees[turn.index]? = some (execute turn.limit session.store tree).tree := by
  obtain ⟨inside, _⟩ := List.getElem?_eq_some_iff.1 found
  rw [next_of_some found, List.getElem?_set_self inside]

/-- No event of an execution is left out. -/
theorem map_snd_emitted (found : session.trees[turn.index]? = some tree) :
    (session.emitted turn).map Prod.snd = (execute (turn.limit + 1) session.store tree).events := by
  have path := Machine.path_run (Machine.start session.store tree) turn.limit
  simp only [emitted, found, List.map_map]
  exact path.map_snd_located

theorem index_of_mem_emitted {entry : (Nat × List Nat) × Event} (mem : entry ∈ session.emitted turn) :
    entry.1.1 = turn.index := by
  unfold emitted at mem
  split at mem
  · cases mem
  · rcases List.mem_map.1 mem with ⟨_, _, rfl⟩
    rfl

/-! ## The trees of a session -/

/-- An execution changes nothing in any of the trees but triggers that fire. -/
theorem fired_next (session : Session) (turn : Turn) : Fired session.trees (session.next turn).trees := by
  cases found : session.trees[turn.index]? with
  | none =>
      rw [next_of_none found]
      exact .refl _
  | some tree =>
      rw [next_of_some found]
      exact (fired_execute turn.limit session.store tree).set found

theorem fired_play (session : Session) (turns : List Turn) : Fired session.trees (session.play turns).trees := by
  induction turns generalizing session with
  | nil => exact .refl _
  | cons turn turns ih => exact (session.fired_next turn).trans (ih (session.next turn))

/-- What has fired at some event of an execution has fired at all later ones. -/
theorem fired_next_add (session : Session) (index limit more : Nat) :
    Fired (session.next ⟨index, limit⟩).trees (session.next ⟨index, limit + more⟩).trees := by
  cases found : session.trees[index]? with
  | none =>
      rw [next_of_none found, next_of_none found]
      exact .refl _
  | some tree =>
      have inside : (session.next ⟨index, limit⟩).trees[index]? = _ := getElem?_next_self found
      have later := (fired_execute_add limit more session.store tree).set inside
      rw [next_of_some found] at later ⊢
      rw [next_of_some found]
      simpa using later

/-! ## Triggers and rounds -/

/-- An execution enters no loops but those of its own tree. -/
theorem rounds_emitted_of_ne (other : turn.index ≠ index) : rounds (index, address) (session.emitted turn) = 0 := by
  cases found : session.trees[turn.index]? with
  | none => simp [emitted, found, rounds]
  | some tree => simp [emitted, found, rounds, List.countP_map, Function.comp_def, other]

theorem rounds_emitted_self (found : session.trees[turn.index]? = some tree) :
    rounds (turn.index, address) (session.emitted turn) =
      rounds address ((Machine.start session.store tree).located
        (execute (turn.limit + 1) session.store tree).events) := by
  simp [emitted, found, rounds, List.countP_map, Function.comp_def]

/-- A trigger fires in the course of an execution if and only if its loop is entered. -/
theorem fired?_next (turn : Turn) (found : session.fired? index address = some fired) :
    ∃ fired', (session.next turn).fired? index address = some fired' ∧
      fired'.toNat = fired.toNat + rounds (index, address) (session.emitted turn) := by
  by_cases own : turn.index = index
  · subst own
    obtain ⟨tree, here, trigger⟩ := Option.bind_eq_some_iff.1 found
    rcases execute_fired? turn.limit session.store trigger with ⟨fired', trigger', once⟩
    refine ⟨fired', ?_, ?_⟩
    · rw [fired?, getElem?_next_self here]
      exact trigger'
    · rw [rounds_emitted_self here]
      exact once
  · refine ⟨fired, ?_, ?_⟩
    · rw [fired?, getElem?_next_of_ne own]
      exact found
    · rw [rounds_emitted_of_ne own]
      rfl

/-- After some executions a trigger has fired as often as it had at the start and its loop has been entered since. -/
theorem fired?_play (turns : List Turn) (found : session.fired? index address = some fired) :
    ∃ fired', (session.play turns).fired? index address = some fired' ∧
      fired'.toNat = fired.toNat + rounds (index, address) (session.history turns) := by
  induction turns generalizing session fired with
  | nil => exact ⟨fired, found, rfl⟩
  | cons turn turns ih =>
      rcases fired?_next turn found with ⟨fired', found', once⟩
      rcases ih found' with ⟨fired'', found'', more⟩
      refine ⟨fired'', found'', ?_⟩
      rw [history, rounds_append, more, once, Nat.add_assoc]

/-! ## Programs that have been executed -/

/-- A program that has been executed once keeps a root whose trigger has fired. -/
theorem exists_root_next (turn : Turn) (found : session.trees[index]? = some (.loop line (.once fired) children)) :
    ∃ fired' children', (session.next turn).trees[index]? = some (.loop line (.once fired') children') ∧
      (fired = true ∨ turn.index = index → fired' = true) := by
  by_cases own : turn.index = index
  · subst own
    obtain ⟨children', tested⟩ := execute_trigger turn.limit session.store line fired children
    refine ⟨true, children', ?_, fun _ => rfl⟩
    rw [getElem?_next_self found, tested]
  · refine ⟨fired, children, (getElem?_next_of_ne own).trans found, ?_⟩
    rintro (before | self)
    · exact before
    · exact absurd self own

theorem exists_root_play (turns : List Turn)
    (found : session.trees[index]? = some (.loop line (.once fired) children)) :
    ∃ fired' children', (session.play turns).trees[index]? = some (.loop line (.once fired') children') ∧
      (fired = true ∨ (∃ turn ∈ turns, turn.index = index) → fired' = true) := by
  induction turns generalizing session fired children with
  | nil => exact ⟨fired, children, found, by simp⟩
  | cons turn turns ih =>
      rcases exists_root_next turn found with ⟨fired', children', found', first⟩
      rcases ih found' with ⟨fired'', children'', found'', rest⟩
      refine ⟨fired'', children'', found'', ?_⟩
      rintro (before | ⟨executed, mem, self⟩)
      · exact rest (.inl (first (.inl before)))
      · rcases List.mem_cons.1 mem with rfl | mem
        · exact rest (.inl (first (.inr self)))
        · exact rest (.inr ⟨executed, mem, self⟩)

/-- An execution of a tree whose root has fired does nothing but leave its loop, and the session remains as it is. -/
theorem execute?_of_fired (found : session.trees[index]? = some (.loop line (.once true) children)) (limit : Nat) :
    ∃ run, session.execute? limit index = some (run, session) ∧
      run.events = [⟨.left line, session.store⟩].take limit ∧
        run.outcome = if limit = 0 then .stopped else .finished := by
  let root := Node.loop line (.once true) children
  have run := execute_of_fired limit session.store line children
  have tree : (execute limit session.store root).tree = root := by
    rw [run]
    rfl
  have store : (execute limit session.store root).store = session.store := by
    rw [run]
    rfl
  have kept : session.trees.set index root = session.trees := by
    obtain ⟨inside, here⟩ : ∃ inside, session.trees.get ⟨index, inside⟩ = root := List.getElem?_eq_some_iff.1 found
    rw [← here]
    exact List.set_getElem_self inside
  refine ⟨execute limit session.store root, ?_, by rw [run], by rw [run]⟩
  simp only [execute?, found, Option.bind_eq_bind, Option.bind_some, Option.pure_def]
  rw [tree, store, kept]

theorem emitted_of_fired (found : session.trees[index]? = some (.loop line (.once true) children)) (limit : Nat) :
    session.emitted ⟨index, limit⟩ = [((index, []), ⟨.left line, session.store⟩)] := by
  have run := execute_of_fired (limit + 1) session.store line children
  simp [emitted, found, run]
  rfl

end

/-! ## Sessions -/

/-- Whatever trees a session executes, and whatever becomes of each execution: nothing changes in the trees, from one
execution to the next or from one event to the next, but triggers that fire; a trigger fires when its loop is entered,
which happens at most once, and never if it had fired at the start; and a program that has been executed before, to
the end or not, does nothing but leave its root.  What is counted are all the events: each execution adds its own to
the history, and leaves none of them out. -/
theorem fires_once (session : Session) (turns : List Turn) :
    (∀ later, Fired (session.play turns).trees (session.play (turns ++ later)).trees) ∧
      (∀ index limit more, Fired (session.play (turns ++ [⟨index, limit⟩])).trees
        (session.play (turns ++ [⟨index, limit + more⟩])).trees) ∧
      (∀ index address fired, session.fired? index address = some fired →
        let entered := rounds (index, address) (session.history turns)
        entered ≤ 1 ∧ (fired = true → entered = 0) ∧
          ∃ fired', (session.play turns).fired? index address = some fired' ∧
            fired'.toNat = fired.toNat + entered) ∧
      (∀ turn tree, (session.play turns).trees[turn.index]? = some tree →
        ∃ added, session.history (turns ++ [turn]) = session.history turns ++ added ∧
          added.map Prod.snd = (execute (turn.limit + 1) (session.play turns).store tree).events ∧
          ∀ entry ∈ added, entry.1.1 = turn.index) ∧
      ∀ mode program root index, compile mode program = .ok root → session.trees[index]? = some root →
        (∃ turn ∈ turns, turn.index = index) →
        let later := session.play turns
        ∀ limit, later.emitted ⟨index, limit⟩ = [((index, []), ⟨.left 0, later.store⟩)] ∧
          ∃ run, later.execute? limit index = some (run, later) ∧
            run.events = [⟨.left 0, later.store⟩].take limit ∧
              run.outcome = if limit = 0 then .stopped else .finished := by
  refine ⟨?_, ?_, ?_, ?_, ?_⟩
  · intro later
    rw [play_append]
    exact fired_play _ later
  · intro index limit more
    rw [play_append, play_append]
    exact fired_next_add _ index limit more
  · intro index address fired found entered
    rcases fired?_play turns found with ⟨fired', found', once⟩
    have bound : fired'.toNat ≤ 1 := fired'.toNat_le
    refine ⟨by omega, ?_, fired', found', once⟩
    rintro rfl
    rw [Bool.toNat_true] at once
    omega
  · intro turn tree found
    refine ⟨(session.play turns).emitted turn, ?_, map_snd_emitted found, fun _ => index_of_mem_emitted⟩
    rw [history_append, history, history, List.append_nil]
  · intro mode program root index compiled found executed later limit
    obtain ⟨_, nodes, _, rfl⟩ := exists_spans_of_compile compiled
    rcases exists_root_play turns found with ⟨fired, children, found', tested⟩
    obtain rfl := tested (.inr executed)
    exact ⟨emitted_of_fired found' limit, execute?_of_fired found' limit⟩

/-- A program that is abandoned in its loop, and a tree whose trigger lies in a loop, behind which it fails at first:
the trigger has fired all the same, and the program does not start again. -/
theorem fires_once_abandoned :
    ∃ root, compile .strict "clear x;while x not 2 do;incr x;end" = .ok root ∧
      let tree := Node.loop 7 (.compare .notEqual (.var "x") (.literal 5))
        [.operation 8 (.increment "x"), .loop 9 (.once false) [.operation 10 (.increment "y")]]
      let session := Session.start [root, tree]
      let later := session.play [⟨0, 2⟩, ⟨1, 50⟩, ⟨1, 50⟩]
      session.fired? 1 [1] = some false ∧ later.fired? 1 [1] = some true ∧
        rounds (1, [1]) (session.history [⟨0, 2⟩, ⟨1, 50⟩, ⟨1, 50⟩]) = 1 ∧
          ∃ run, later.execute? 10 0 = some (run, later) ∧ run.events = [⟨.left 0, later.store⟩] ∧
            run.outcome = .finished := by
  let root := Node.root [.operation 1 (.clear "x"),
    .loop 2 (.compare .notEqual (.var "x") (.literal 2)) [.operation 3 (.increment "x")]]
  have compiled : compile .strict "clear x;while x not 2 do;incr x;end" = .ok root := rfl
  refine ⟨root, compiled, ?_⟩
  intro tree session later
  rcases fires_once session [⟨0, 2⟩, ⟨1, 50⟩, ⟨1, 50⟩] with ⟨_, _, triggers, _, programs⟩
  have before : session.fired? 1 [1] = some false := rfl
  have behind : later.fired? 1 [1] = some true := by decide +kernel
  rcases triggers 1 [1] false before with ⟨_, _, fired', behind', once⟩
  obtain rfl : true = fired' := Option.some.inj (behind.symm.trans behind')
  refine ⟨before, behind, by simpa using once.symm, ?_⟩
  exact (programs .strict _ root 0 compiled rfl ⟨⟨0, 2⟩, by simp, rfl⟩ 10).2

end Session
end CounterLang
