import CounterLang.Command
import CounterLang.Proofs.Response.Picture
import CounterLang.Proofs.Run.Halts
import CounterLang.Proofs.Run.Rounds
import CounterLang.Proofs.Run.Vocabulary
import Mathlib.Data.List.Forall2

/-!
# Trace — what is printed of a run that is watched

The output of a run has three parts: the tree, the trace of the run, and what is printed in the end.  Each of the
first two is printed on request only, and nothing else depends on what is requested.  The tree is printed as its
picture, which is that of no other tree.  The trace has one block for each event but those of the root, and each block
quotes the statement that the node of its event has been compiled from.

- `Report.block`          : what is printed of an event, given the text that it quotes
- `Quotes`                : the text that the block of an event has to quote
- `Point.Moves.quotes`    : each step has a statement to quote
- `Machine.Path.quotes`   : so has each event of a path
- `Response.ofEnd`        : what is printed in the end
- `respond_run`           : the output of a run, part by part
-/

namespace CounterLang

open Statement (Denotes)

/-! ## Texts that are quoted -/

/-- What is printed of an event: a text under the line of the event, and the values after the step. -/
def Report.block (text : String) (event : Event) : String :=
  "\nLine " ++ toString event.line ++ " - " ++ text ++ ";" ++
    (if event.looping then "  Control statement passed, so looping inside...\n\n" else "\n\n") ++
    Report.store event.store

/-- The text is that of the statement from which the node of an event, found at its address, has been compiled.  An
operation that has been carried out is the one that it denotes; if the event leads into a loop, it is the head of a
loop and no operation. -/
structure Quotes (statements : List String) (root : Node) (entry : List Nat × Event) (text : String) : Prop where
  found : statements[entry.2.line - 1]? = some text
  nonempty : text ≠ ""
  origin : ∃ node, root.descendant? entry.1 = some node ∧ Labels entry.2.line text node.label
  applied : ∀ line op, entry.2.action = .applied line op → Denotes text (.operation op)
  looping : entry.2.looping = true →
    (∃ condition, Denotes text (.opening condition)) ∧ ∀ op, ¬ Denotes text (.operation op)

section
variable {store : Store} {point : Point} {action : Action} {machine next last : Machine} {events : List Event}
  {statements : List String} {root : Node} {text : String} {number : Nat} {label : Label}

/-! ## Nodes and their texts -/

theorem Labels.nonempty (h : Labels number text label) : text ≠ "" := by
  rintro rfl
  cases h with
  | operation denotes => exact Statement.not_denotes_empty _ denotes
  | loop denotes => exact Statement.not_denotes_empty _ denotes

/-- An operation is carried out at the node that says so. -/
theorem Point.Moves.label_of_applied {line : Nat} {op : Operation} (h : point.Moves store (.applied line op) next) :
    point.node.label = .operation line op := by
  cases h
  rfl

/-- A step that leads into a body is one of a loop. -/
theorem Point.Moves.label_of_looping (h : point.Moves store action next) (looping : action.looping = true) :
    ∃ line condition, point.node.label = .loop line condition := by
  cases h with
  | applied _ => cases looping
  | entered _ => exact ⟨_, _, rfl⟩
  | left _ => cases looping

/-- The text that an operation comes from denotes it. -/
theorem Labels.denotes_of_fired {line : Nat} {op : Operation} (h : Labels number text label)
    (fired : label.Fired (.operation line op)) : Denotes text (.operation op) := by
  cases fired with
  | operation =>
      cases h with
      | operation denotes => exact denotes

/-- The text that a loop comes from is that of a head, now and whenever its trigger has fired. -/
theorem Labels.opening_of_fired {line : Nat} {condition : Condition} (h : Labels number text label)
    (fired : label.Fired (.loop line condition)) :
    (∃ condition, Denotes text (.opening condition)) ∧ ∀ op, ¬ Denotes text (.operation op) := by
  cases fired with
  | loop _ =>
      cases h with
      | loop denotes => exact ⟨⟨_, denotes⟩, fun op other => nomatch denotes.unique other⟩

/-! ## Steps and paths -/

/-- The nodes of a tree other than its root come from the statements on their lines. -/
def Node.Written (statements : List String) (root : Node) : Prop :=
  ∀ label ∈ Node.labels [root], label = .loop 0 (.once false) ∨
    ∃ position text, statements[position]? = some text ∧ Labels (position + 1) text label

/-- Each step but those of the root has a statement to quote. -/
theorem Point.Moves.quotes (h : point.Moves store action next) (written : root.Written statements)
    (origin : Fired [root] point.forest) (inside : 0 < action.line) :
    ∃ text, Quotes statements root (point.address, ⟨action, next.store⟩) text := by
  obtain ⟨node, found, fired⟩ := Point.exists_origin origin
  have mem : node.label ∈ Node.labels [root] :=
    labels_subset_of_descendant? found (label_mem_labels_cons node [])
  have line : action.line = node.label.line := h.line.trans fired.label.line
  rcases written node.label mem with isRoot | ⟨position, text, there, labelled⟩
  · rw [line, isRoot] at inside
    exact absurd inside (Nat.lt_irrefl 0)
  · rw [labelled.line] at line
    refine ⟨text, ?_, labelled.nonempty, ⟨node, found, ?_⟩, ?_, ?_⟩
    · simpa [Event.line, line] using there
    · simpa [Event.line, line] using labelled
    · rintro lineThere op rfl
      exact labelled.denotes_of_fired (h.label_of_applied ▸ fired.label)
    · intro looping
      rcases h.label_of_looping looping with ⟨lineThere, condition, isLoop⟩
      exact labelled.opening_of_fired (isLoop ▸ fired.label)

/-- So has each event of a path. -/
theorem Machine.Path.quotes (h : Path machine events last) (written : root.Written statements)
    (origin : Fired [root] machine.forest) :
    ∀ entry ∈ machine.located events, 0 < entry.2.line → ∃ text, Quotes statements root entry text := by
  induction h with
  | refl =>
      intro entry mem
      cases mem
  | step step _ ih =>
      rcases step_eq_next_iff.1 step with ⟨point, faced, moves⟩
      rw [located_cons faced step]
      intro entry mem inside
      rcases List.mem_cons.1 mem with rfl | mem
      · exact moves.quotes written (forest_of_point? faced ▸ origin) inside
      · exact ih (origin.trans (fired_of_step step)) entry mem inside

/-- A block that is printed with the lines of a program at hand quotes what it has to quote. -/
theorem Quotes.event_eq {entry : List Nat × Event} (h : Quotes statements root entry text) :
    Report.event statements entry.2 = Report.block text entry.2 := by
  rw [Report.event, Report.statementOn, h.found]
  rfl

end

/-! ## Responses -/

/-- The bytes of a text are read as that text. -/
theorem Files.text_of_utf8 {files : Files} {path text : String} (stored : files path = .ok text.toUTF8) :
    files.text path = .ok text := by
  have valid : text.toUTF8.IsValidUTF8 := text.isValidUTF8
  simp only [Files.text, stored, String.fromUTF8?, dif_pos valid]
  rfl

/-- What is printed in the end, when nothing else is. -/
def Response.ofEnd (ended : End) : Response :=
  match ended.result with
  | .ok () => success ("\nCode finished. Have a great day!\n" ++ Report.store ended.store)
  | .error error =>
    failure ("\nStopped with values:\n" ++ Report.store ended.store) ("Runtime error - " ++ error.message)

theorem Response.ofRun?_end (output : String) (events : List Event) (ended : End) :
    ofRun? output ⟨events, ended.outcome, ended.machine⟩ =
      some { ofEnd ended with output := output ++ (ofEnd ended).output } := by
  rcases ended with ⟨_ | _, machine⟩
  all_goals simp [ofRun?, ofEnd, End.outcome, success, failure, Run.store, End.store, String.append_assoc]

end CounterLang
