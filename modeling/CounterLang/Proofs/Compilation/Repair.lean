import CounterLang.Proofs.Compilation.Faults

/-!
# Repair — what lenient mode makes of a program that does not nest

Lenient mode gives a tree to programs that strict mode refuses.  It is the tree of a program that nests: the
statements in front of an end that belongs to no loop, or all of them with an end for each loop that is still
open.  Nothing else tells the modes apart.

- `Source.repaired`            : the program that lenient mode has in mind
- `OpenSpans.closeAll`         : ends behind the open loops close them, and move no node
- `exists_spans_of_compile`    : every compiled tree is the tree of a program that nests
- `compile_lenient_strict`     : lenient mode is strict mode on the repaired program
-/

namespace CounterLang

open Statement (Denotes)
open Source

/-! ## The repaired program -/

/-- A program up to the first end that belongs to no loop, or, if there is none, with an end for each loop
that is left open. -/
def Source.repaired (program : String) : String :=
  match strayEnd? (statements program) with
  | some position => ";".intercalate ((statements program).take position)
  | none =>
    let missing := (depth (statements program) (statements program).length).toNat
    program ++ String.join (List.replicate missing ";end")

theorem statements_take {program : String} {position : Nat} (positive : 0 < position) :
    Source.statements (";".intercalate ((Source.statements program).take position)) =
      (Source.statements program).take position := by
  have some_statement : Source.statements program ≠ [] := Text.pieces_ne_nil ';' program
  -- the statements that are kept are joined and cut at the same places
  refine Text.pieces_intercalate ?_ ?_
  · simp [some_statement]
    omega
  · intro text mem
    exact Text.notMem_of_mem_pieces (List.mem_of_mem_take mem)

theorem statements_ends (program : String) (missing : Nat) :
    Source.statements (program ++ String.join (List.replicate missing ";end")) =
      Source.statements program ++ List.replicate missing "end" := by
  induction missing generalizing program with
  | zero => simp
  | succ missing ih =>
      have closed : Source.statements (program ++ ";end") = Source.statements program ++ ["end"] := by
        have cut := Text.pieces_append ';' program "end"
        have one : Text.pieces ';' "end" = ["end"] := by decide
        rw [one, String.append_assoc] at cut
        exact cut
      -- the first of the new ends becomes part of the program
      calc
        Source.statements (program ++ String.join (List.replicate (missing + 1) ";end"))
            = Source.statements (program ++ ";end" ++ String.join (List.replicate missing ";end")) := by
              simp [List.replicate_succ, String.append_assoc]
        _ = Source.statements (program ++ ";end") ++ List.replicate missing "end" := ih _
        _ = Source.statements program ++ List.replicate (missing + 1) "end" := by
              simp [closed, List.replicate_succ]

/-! ## Programs that nest -/

/-- No node stands between a position and itself. -/
theorem Spans.eq_nil {statements : List String} {position : Nat} {nodes : List Node}
    (h : Spans statements position nodes position) : nodes = [] := by
  cases h with
  | nil => rfl
  | blank _ rest =>
      have behind := rest.le
      omega
  | operation _ _ rest =>
      have behind := rest.le
      omega
  | loop _ _ children _ rest =>
      have inner := children.le
      have outer := rest.le
      omega

namespace OpenSpans

variable {statements others : List String} {start position : Nat} {frames : List Frame} {before : List Node}

/-- The open loops in front of a position depend on the statements there only. -/
theorem congr (h : OpenSpans statements start frames before position)
    (same : ∀ earlier < position, others[earlier]? = statements[earlier]?) :
    OpenSpans others start frames before position := by
  induction h with
  | outside spans => exact .outside (spans.congr same)
  | @inside frames outer before head stop text condition path found denotes spans ih =>
      have inner := spans.le
      refine .inside (ih ?_) ((same head (by omega)).trans found) denotes (spans.congr same)
      intro earlier upper
      exact same earlier (by omega)

/-- Where as many ends follow as there are open loops, they close these loops around the nodes that are
there. -/
theorem closeAll (h : OpenSpans statements start frames before position)
    (ends : ∀ count < frames.length, statements[position + count]? = some "end") :
    Spans statements start (plug before.reverse frames) (position + frames.length) := by
  -- each end makes the innermost loop a node of the body around it
  induction frames generalizing before position with
  | nil =>
      cases h with
      | outside spans => exact spans
  | cons frame frames ih =>
      have closed := h.close (ends 0 (by simp))
      have whole := ih closed (by
        intro count inside
        have next := ends (count + 1) (by simpa using inside)
        rwa [show position + 1 + count = position + (count + 1) by omega])
      cases h with
      | inside outer head denotes spans =>
          rw [List.length_cons, show position + (frames.length + 1) = position + 1 + frames.length by omega]
          simpa [plug, Frame.fill] using whole

end OpenSpans

/-! ## Lenient and strict mode -/

/-- In front of an end that belongs to no loop, the statements are a program of their own. -/
theorem Spans.compile_take {program : String} {nodes : List Node} {position : Nat}
    (h : Spans (Source.statements program) 0 nodes position)
    (bound : position ≤ (Source.statements program).length) (mode : Mode) :
    compile mode (";".intercalate ((Source.statements program).take position)) = .ok (Node.root nodes) := by
  by_cases positive : 0 < position
  · have kept : Spans ((Source.statements program).take position) 0 nodes position := by
      refine h.congr ?_
      intro earlier upper
      simp [upper]
    have length : ((Source.statements program).take position).length = position :=
      List.length_take_of_le bound
    calc
      compile mode (";".intercalate ((Source.statements program).take position))
          = compileStatements mode ((Source.statements program).take position) := by
            rw [compile, statements_take positive]
      _ = .ok (Node.root nodes) := Spans.compileStatements_ok (by rwa [length]) mode
  · -- nothing at all is left, and the empty program is a single empty statement
    have first : position = 0 := by omega
    subst first
    have none : nodes = [] := h.eq_nil
    subst none
    have empty : Spans (Source.statements "") 0 [] (Source.statements "").length := .blank (by decide) .nil
    simpa [compile] using empty.compileStatements_ok mode

/-- With an end for each open loop, the statements of a program are a program that nests. -/
theorem OpenSpans.compile_ends {program : String} {frames : List Frame} {before : List Node}
    (h : OpenSpans (Source.statements program) 0 frames before (Source.statements program).length)
    (mode : Mode) :
    compile mode (program ++ String.join (List.replicate frames.length ";end")) =
      .ok (Node.root (plug before.reverse frames)) := by
  -- what stands behind the last statement does not change what stands in front of it
  have kept : OpenSpans (Source.statements program ++ List.replicate frames.length "end") 0 frames before
      (Source.statements program).length := by
    refine h.congr ?_
    intro earlier upper
    simp [List.getElem?_append_left upper]
  have closed := kept.closeAll (by
    intro count inside
    simp [inside])
  calc
    compile mode (program ++ String.join (List.replicate frames.length ";end"))
        = compileStatements mode
            (Source.statements program ++ List.replicate frames.length "end") := by
          rw [compile, statements_ends]
    _ = .ok (Node.root (plug before.reverse frames)) :=
          Spans.compileStatements_ok (by simpa using closed) mode

theorem outcome_lenient_of_strict {nodes : List Node} {ending : Ending} {root : Node}
    (h : outcome .strict nodes ending = .ok root) : outcome .lenient nodes ending = .ok root := by
  cases ending with
  | unreadable line text => cases h
  | strayEnd line => cases h
  | exhausted opened =>
      cases opened with
      | nil => exact h
      | cons line opened => cases h

theorem outcome_lenient_error {nodes : List Node} {ending : Ending} {error : CompileError} :
    outcome .lenient nodes ending = .error error ↔
      outcome .strict nodes ending = .error error ∧ ∃ line text, error = .syntaxError line text := by
  cases ending with
  | unreadable line text =>
      constructor
      · intro h
        exact ⟨h, line, text, (Except.error.inj h).symm⟩
      · rintro ⟨h, _⟩
        exact h
  | strayEnd line =>
      constructor
      · intro h
        cases h
      · rintro ⟨h, other, text, rfl⟩
        cases h
  | exhausted opened =>
      constructor
      · intro h
        cases opened <;> cases h
      · rintro ⟨h, other, text, rfl⟩
        cases opened <;> cases h

/-- The tree that lenient mode gives to a program is the tree of the repaired program. -/
theorem compile_repaired {program : String} {root : Node} (mode : Mode)
    (h : compile .lenient program = .ok root) : compile mode (repaired program) = .ok root := by
  rcases compileStatements_cases (Source.statements program) with
    ⟨frames, before, stop, ending, path, bound, stops, result⟩
  have ok := (result .lenient).symm.trans h
  obtain rfl := root_eq_of_outcome ok
  cases stops with
  | unreadable _ _ _ => cases ok
  | strayEnd none found =>
      subst none
      -- the repaired program breaks off where the scan has stopped
      have stray := path.strayEnd?_eq_some found
      cases path with
      | outside spans =>
          simp only [repaired, stray]
          exact spans.compile_take bound mode
  | exhausted last =>
      subst last
      -- the depth at the end is the number of frames, and that many ends are put behind
      have nested := path.strayEnd?_eq_none
      have level := path.depth_eq
      simp only [depth_zero, Int.zero_add] at level
      simp only [repaired, nested, level, Int.toNat_natCast]
      exact path.compile_ends mode

/-- Whatever the mode, the tree of a program holds a forest that spans a program which nests. -/
theorem exists_spans_of_compile {program : String} {mode : Mode} {root : Node}
    (h : compile mode program = .ok root) :
    ∃ nested nodes, Spans (Source.statements nested) 0 nodes (Source.statements nested).length ∧
      root = Node.root nodes := by
  cases mode with
  | strict => exact ⟨program, compileStatements_strict_ok.1 h⟩
  | lenient => exact ⟨repaired program, compileStatements_strict_ok.1 (compile_repaired .strict h)⟩

/-- The modes agree on programs that strict mode accepts and on unreadable statements; and what lenient mode
makes of any other program is what strict mode makes of the repaired one. -/
theorem compile_lenient_strict (program : String) :
    (∀ root, compile .strict program = .ok root → compile .lenient program = .ok root) ∧
      (∀ error, compile .lenient program = .error error ↔
        compile .strict program = .error error ∧ ∃ line text, error = .syntaxError line text) ∧
      (∀ root, compile .lenient program = .ok root → compile .strict (repaired program) = .ok root) := by
  rcases compileStatements_cases (Source.statements program) with
    ⟨frames, before, stop, ending, _, _, _, result⟩
  have outcomes : ∀ mode, compile mode program = outcome mode (plug before.reverse frames) ending := result
  refine ⟨?_, ?_, ?_⟩
  · intro root ok
    rw [outcomes] at ok ⊢
    exact outcome_lenient_of_strict ok
  · intro error
    rw [outcomes, outcomes]
    exact outcome_lenient_error
  · intro root ok
    exact compile_repaired .strict ok

/-- Two loops are left open, one in the other. -/
theorem compile_lenient_strict_open :
    compile .lenient "while x not 0 do;decr x;while y not 1 do;incr y" =
        .ok (Node.root
          [.loop 1 (.compare .notEqual (.var "x") (.literal 0))
            [.operation 2 (.decrement "x"),
             .loop 3 (.compare .notEqual (.var "y") (.literal 1)) [.operation 4 (.increment "y")]]]) ∧
      compile .strict "while x not 0 do;decr x;while y not 1 do;incr y;end;end" =
        .ok (Node.root
          [.loop 1 (.compare .notEqual (.var "x") (.literal 0))
            [.operation 2 (.decrement "x"),
             .loop 3 (.compare .notEqual (.var "y") (.literal 1)) [.operation 4 (.increment "y")]]]) := by
  have ends : repaired "while x not 0 do;decr x;while y not 1 do;incr y" =
      "while x not 0 do;decr x;while y not 1 do;incr y;end;end" := by
    decide
  have ok : compile .lenient "while x not 0 do;decr x;while y not 1 do;incr y" = .ok _ := rfl
  refine ⟨ok, ?_⟩
  rw [← ends]
  exact (compile_lenient_strict _).2.2 _ ok

end CounterLang
