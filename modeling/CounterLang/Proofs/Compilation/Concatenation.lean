import CounterLang.Proofs.Compilation.OpenSpans
import CounterLang.Proofs.Node.Relabel

/-!
# Concatenation — one program behind another

Behind a program that nests, another program is compiled as it is on its own: it has the same errors, the same
open loops and the same nodes, on lines that are moved by the number of statements in front of it.

- `CompileError.shift`, `Ending.shift`  : the same error or ending on another line
- `Spans.shift`, `OpenSpans.shift`      : forests and open loops, behind a forest in front of them
- `compileStatements_append`            : statements behind statements that nest
- `compile_append`                      : the same of program texts
-/

namespace CounterLang

open Statement (Denotes)
open Source

/-! ## Moved lines -/

namespace CompileError

/-- The same error, with its line increased by a number. -/
def shift (amount : Nat) : CompileError → CompileError
  | syntaxError line statement => syntaxError (amount + line) statement
  | unterminatedBlock line => unterminatedBlock (amount + line)
  | unexpectedEnd line => unexpectedEnd (amount + line)

end CompileError

/-- The same ending, with all its lines increased by a number. -/
def Ending.shift (amount : Nat) : Ending → Ending
  | exhausted opened => exhausted (opened.map (amount + ·))
  | unreadable line text => unreadable (amount + line) text
  | strayEnd line => strayEnd (amount + line)

/-- The outcome of a compilation whose scan ends later, behind some nodes in front. -/
theorem outcome_shift (mode : Mode) (front nodes : List Node) (amount : Nat) (ending : Ending) :
    outcome mode (front ++ nodes.map (Relabelling.shift amount).node) (ending.shift amount) =
      match outcome mode nodes ending with
      | .error error => .error (error.shift amount)
      | .ok root => .ok (Node.root (front ++ root.children.map (Relabelling.shift amount).node)) := by
  cases ending with
  | unreadable line text => rfl
  | strayEnd line => cases mode <;> rfl
  | exhausted opened => cases mode <;> cases opened <;> rfl

section
variable {statements others : List String} {amount start stop position : Nat} {front nodes before : List Node}
  {frames : List Frame}

/-! ## Statements behind other statements -/

/-- Where the statements of a program stand behind others, a forest spans them on moved lines. -/
theorem Spans.shift (same : ∀ position, statements[amount + position]? = others[position]?)
    (h : Spans others start nodes stop) :
    Spans statements (amount + start) (nodes.map (Relabelling.shift amount).node) (amount + stop) := by
  induction h with
  | nil => exact .nil
  | blank found _ ih => exact .blank ((same _).trans found) ih
  | operation found denotes _ ih =>
      have moved := Spans.operation ((same _).trans found) denotes ih
      simpa [Nat.add_assoc] using moved
  | loop found denotes _ close _ ihChildren ihRest =>
      have moved := Spans.loop ((same _).trans found) denotes ihChildren ((same _).trans close) ihRest
      simpa [Nat.add_assoc] using moved

/-- No node of a forest stands on line 0: the lines are positions, increased by one. -/
theorem Spans.exists_shift (h : Spans statements start nodes stop) :
    ∃ positions : List Node, nodes = positions.map (Relabelling.shift 1).node := by
  induction h with
  | nil => exact ⟨[], rfl⟩
  | blank _ _ ih => exact ih
  | @operation start _ _ _ op _ _ _ ih =>
      rcases ih with ⟨rest, rfl⟩
      exact ⟨.operation start op :: rest, by simp [Nat.add_comm]⟩
  | @loop start _ _ _ _ _ condition _ _ _ _ _ ihChildren ihRest =>
      rcases ihChildren with ⟨inner, rfl⟩
      rcases ihRest with ⟨rest, rfl⟩
      exact ⟨.loop start condition inner :: rest, by simp [Nat.add_comm]⟩

/-- The loops that are open in a program are open behind a forest, too; what is put into them comes behind the
nodes of that forest. -/
theorem OpenSpans.shift (same : ∀ position, statements[amount + position]? = others[position]?)
    (spans : Spans statements 0 front amount) (h : OpenSpans others 0 frames before position) :
    ∃ framesThere beforeThere,
      OpenSpans statements 0 framesThere beforeThere (amount + position) ∧
        framesThere.map Frame.line = (frames.map Frame.line).map (amount + ·) ∧
        ∀ body, plug (beforeThere.reverse ++ body.map (Relabelling.shift amount).node) framesThere =
          front ++ (plug (before.reverse ++ body) frames).map (Relabelling.shift amount).node := by
  induction h with
  | @outside before stop inner =>
      have joined := spans.append (inner.shift same)
      refine ⟨[], before.map (Relabelling.shift amount).node ++ front.reverse, .outside ?_, rfl, ?_⟩
      · simpa using joined
      · simp [plug]
  | @inside frames outer before head stop text condition _ found denotes inner ih =>
      rcases ih with ⟨framesThere, outerThere, path, lines, whole⟩
      refine ⟨⟨outerThere, amount + head + 1, condition, []⟩ :: framesThere,
        before.map (Relabelling.shift amount).node, .inside path ((same _).trans found) denotes ?_, ?_, ?_⟩
      · simpa [Nat.add_assoc] using inner.shift same
      · simpa [Nat.add_assoc] using lines
      · -- the innermost loop, with what is put into it, is itself put into the body around it
        intro body
        have outside := whole [.loop (head + 1) condition (before.reverse ++ body)]
        simpa [plug, Frame.fill, Nat.add_assoc] using outside

theorem Stops.shift {framesThere : List Frame} {ending : Ending}
    (same : ∀ position, statements[amount + position]? = others[position]?)
    (length : statements.length = amount + others.length)
    (lines : framesThere.map Frame.line = (frames.map Frame.line).map (amount + ·))
    (h : Stops others frames stop ending) :
    Stops statements framesThere (amount + stop) (ending.shift amount) := by
  cases h with
  | exhausted last =>
      rw [Ending.shift, ← lines]
      exact .exhausted (by omega)
  | unreadable found nonempty unreadable => exact .unreadable ((same _).trans found) nonempty unreadable
  | strayEnd none found =>
      subst none
      exact .strayEnd (by simpa using lines) ((same _).trans found)

end

/-! ## Compilation -/

/-- Behind statements that a forest spans, statements are compiled as they are on their own. -/
theorem compileStatements_append {first : List String} {front : List Node}
    (h : Spans first 0 front first.length) (second : List String) (mode : Mode) :
    compileStatements mode (first ++ second) =
      match compileStatements mode second with
      | .error error => .error (error.shift first.length)
      | .ok root => .ok (Node.root (front ++ root.children.map (Relabelling.shift first.length).node)) := by
  have same : ∀ position, (first ++ second)[first.length + position]? = second[position]? := by
    intro position
    rw [List.getElem?_append_right (Nat.le_add_right _ _), Nat.add_sub_cancel_left]
  have spans : Spans (first ++ second) 0 front first.length := by
    refine h.congr ?_
    intro position before
    simp [List.getElem?_append_left before]
  rcases compileStatements_cases second with ⟨frames, before, stop, ending, path, _, stops, result⟩
  rcases path.shift same spans with ⟨framesThere, beforeThere, pathThere, lines, whole⟩
  have stopsThere := stops.shift same List.length_append lines
  have nodes : plug beforeThere.reverse framesThere =
      front ++ (plug before.reverse frames).map (Relabelling.shift first.length).node := by
    simpa using whole []
  rw [pathThere.compileStatements_eq stopsThere mode, nodes, outcome_shift, result]

/-- The statements of two programs with a semicolon between them. -/
theorem statements_append (a b : String) :
    Source.statements (a ++ ";" ++ b) = Source.statements a ++ Source.statements b :=
  Text.pieces_append ';' a b

/-- Behind a program that strict mode accepts, a program is compiled as it is on its own; its lines are
increased by the number of statements in front of it. -/
theorem compile_append {a : String} {front : List Node} (h : compile .strict a = .ok (Node.root front))
    (b : String) (mode : Mode) :
    compile mode (a ++ ";" ++ b) =
      match compile mode b with
      | .error error => .error (error.shift (a.toList.count ';' + 1))
      | .ok root => .ok (Node.root
          (front ++ root.children.map (Relabelling.shift (a.toList.count ';' + 1)).node)) := by
  rcases compileStatements_strict_ok.1 h with ⟨nodes, spans, same⟩
  obtain rfl : front = nodes := by simpa [Node.root] using same
  have length : (Source.statements a).length = a.toList.count ';' + 1 := Text.length_pieces ';' a
  have joined := compileStatements_append spans (Source.statements b) mode
  rw [length] at joined
  rw [compile, statements_append]
  exact joined

end CounterLang
