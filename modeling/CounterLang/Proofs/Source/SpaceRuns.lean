import CounterLang.Proofs.Source.Layout
import Mathlib.Data.List.SplitBy

/-!
# Space runs — what is left of a file without its layout

Taking four spaces away wherever four of them stand together leaves, of every run of spaces, the remainder of its
length by four.  Runs do not reach over the end of a line, so that a file may be taken line by line, although the
lines stand next to each other in the end.

- `Source.textLines`          : the lines of a text, without their ends
- `Source.shortenRuns`        : a line with its runs of spaces cut down
- `Source.runs_induction`     : induction over a line, run by run
- `stripLayout_line_append`   : a line is cut down on its own, whatever stands behind it
- `stripLayout_eq`            : and so is each line of a text
- `withoutLayout_lines`       : what is left of a file
-/

namespace CounterLang
namespace Source

/-! ## Lines and runs -/

/-- A line without the carriage return at its end, if there is one. -/
def dropReturn (line : List Char) : List Char :=
  if line.getLast? = some '\r' then line.dropLast else line

/-- The lines of a text.  A line ends in front of a newline, and one carriage return there belongs to its end; what
stands behind the last newline is a line as it is. -/
def textLines (text : List Char) : List (List Char) :=
  (text.splitOn '\n').dropLast.map dropReturn ++ (text.splitOn '\n').getLast?.toList

/-- Spaces next to each other belong to the same run; any other character is a run of its own. -/
def sameRun (a b : Char) : Bool :=
  a == ' ' && b == ' '

/-- Of a run of spaces the remainder of its length by four is left. -/
def shorten (run : List Char) : List Char :=
  if ' ' ∈ run then List.replicate (run.length % 4) ' ' else run

/-- A line with all its runs cut down. -/
def shortenRuns (line : List Char) : List Char :=
  (line.splitBy sameRun).flatMap shorten

/-- A line is empty, or it starts with a character that is no space, or with a run of spaces. -/
@[elab_as_elim]
theorem runs_induction {motive : List Char → Prop} (nil : motive [])
    (other : ∀ c line, c ≠ ' ' → motive line → motive (c :: line))
    (spaces : ∀ length line, line.head? ≠ some ' ' → motive line →
      motive (List.replicate (length + 1) ' ' ++ line)) :
    ∀ line, motive line := by
  -- the spaces that have been passed are carried along until their run is complete
  have carried : ∀ line length, motive (List.replicate length ' ' ++ line) := by
    intro line
    induction line with
    | nil =>
        intro length
        cases length with
        | zero => exact nil
        | succ length => exact spaces length [] (by simp) nil
    | cons c line ih =>
        intro length
        by_cases space : c = ' '
        · subst space
          have longer := ih (length + 1)
          rw [List.replicate_succ', List.append_assoc] at longer
          exact longer
        · have rest : motive (c :: line) := other c line space (ih 0)
          cases length with
          | zero => exact rest
          | succ length => exact spaces length (c :: line) (by simpa using space) rest
  exact fun line => carried line 0

section
variable {c : Char} {line rest : List Char}

theorem shortenRuns_nil : shortenRuns [] = [] := rfl

theorem shortenRuns_cons (other : c ≠ ' ') : shortenRuns (c :: line) = c :: shortenRuns line := by
  have apart : ∀ x ∈ [c].getLast?, ∀ y ∈ line.head?, sameRun x y = false := by
    intro x last
    obtain rfl : c = x := by simpa using last
    simp [sameRun, other]
  have cut : (c :: line).splitBy sameRun = [c] :: line.splitBy sameRun := List.splitBy_append apart
  simp [shortenRuns, cut, shorten, Ne.symm other]

theorem shortenRuns_spaces (length : Nat) (maximal : line.head? ≠ some ' ') :
    shortenRuns (List.replicate (length + 1) ' ' ++ line) =
      List.replicate ((length + 1) % 4) ' ' ++ shortenRuns line := by
  have apart : ∀ x ∈ (List.replicate (length + 1) ' ').getLast?, ∀ y ∈ line.head?, sameRun x y = false := by
    intro x _ y first
    have other : y ≠ ' ' := by
      rintro rfl
      exact maximal first
    simp [sameRun, other]
  have run : (List.replicate (length + 1) ' ').splitBy sameRun = [List.replicate (length + 1) ' '] := by
    refine List.splitBy_of_isChain (by simp) ?_
    exact List.isChain_replicate_of_rel _ rfl
  rw [shortenRuns, List.splitBy_append apart, run]
  simp [shorten, shortenRuns]

/-! ## Taking the layout of a line away -/

/-- Fewer than four spaces are no step of indentation. -/
theorem not_replicate_prefix {length : Nat} (few : length < 4) (maximal : rest.head? ≠ some ' ') :
    ¬ List.replicate 4 ' ' <+: List.replicate length ' ' ++ rest := by
  rintro ⟨behind, split⟩
  -- the character behind the spaces would be a space, too
  have next : (List.replicate 4 ' ' ++ behind)[length]? = (List.replicate length ' ' ++ rest)[length]? := by
    rw [split]
  rw [List.getElem?_append_left (by simpa using few), List.getElem?_append_right (by simp),
    List.getElem?_replicate, if_pos few, List.length_replicate, Nat.sub_self, ← List.head?_eq_getElem?] at next
  exact maximal next.symm

theorem stripLayout_spaces (length : Nat) (maximal : rest.head? ≠ some ' ') :
    stripLayout (List.replicate length ' ' ++ rest) = List.replicate (length % 4) ' ' ++ stripLayout rest := by
  have few : ∀ count < 4, stripLayout (List.replicate count ' ' ++ rest) =
      List.replicate count ' ' ++ stripLayout rest := by
    intro count
    induction count with
    | zero => exact fun _ => rfl
    | succ count ih =>
        intro bound
        have noIndent : ¬ List.replicate 4 ' ' <+: ' ' :: (List.replicate count ' ' ++ rest) :=
          not_replicate_prefix bound maximal
        have noReturn : ' ' = '\r' → (List.replicate count ' ' ++ rest).head? ≠ some '\n' :=
          fun isReturn => absurd isReturn (by decide)
        rw [List.replicate_succ, List.cons_append, stripLayout_cons (by decide) noReturn noIndent, ih (by omega)]
        rfl
  have split : List.replicate length ' ' =
      List.replicate (4 * (length / 4)) ' ' ++ List.replicate (length % 4) ' ' := by
    rw [List.replicate_append_replicate, Nat.div_add_mod]
  rw [split, List.append_assoc, stripLayout_indent, few _ (Nat.mod_lt _ (by decide))]

/-- A line is cut down on its own, unless what stands behind it goes on with a run of the line or belongs to an end of
the line. -/
theorem stripLayout_line_append (endless : '\n' ∉ line) (apart : rest.head? ≠ some ' ')
    (noReturn : line.getLast? = some '\r' → rest.head? ≠ some '\n') :
    stripLayout (line ++ rest) = shortenRuns line ++ stripLayout rest := by
  induction line using runs_induction with
  | nil => rfl
  | other c line other ih =>
      have inLine : c ≠ '\n' := Ne.symm (List.ne_of_not_mem_cons endless)
      have endlessLine : '\n' ∉ line := List.not_mem_of_not_mem_cons endless
      have noIndent : ¬ List.replicate 4 ' ' <+: c :: (line ++ rest) := by
        intro indent
        exact other (List.cons_prefix_cons.1 indent).1.symm
      -- a return is kept if the line goes on behind it, or if no newline follows
      have noReturnHere : c = '\r' → (line ++ rest).head? ≠ some '\n' := by
        rintro rfl
        cases line with
        | nil => exact noReturn rfl
        | cons next line =>
            have inLine : '\n' ≠ next := List.ne_of_not_mem_cons endlessLine
            simpa using inLine.symm
      have noReturnLater : line.getLast? = some '\r' → rest.head? ≠ some '\n' := by
        intro last
        refine noReturn ?_
        rw [List.getLast?_cons, last]
        rfl
      rw [List.cons_append, stripLayout_cons inLine noReturnHere noIndent, ih endlessLine noReturnLater,
        shortenRuns_cons other, List.cons_append]
  | spaces length line maximal ih =>
      have endlessLine : '\n' ∉ line := fun mem => endless (List.mem_append_right _ mem)
      have maximalHere : (line ++ rest).head? ≠ some ' ' := by
        cases line with
        | nil => exact apart
        | cons next line => exact maximal
      have noReturnLater : line.getLast? = some '\r' → rest.head? ≠ some '\n' := by
        intro last
        refine noReturn ?_
        rw [List.getLast?_append, last]
        rfl
      rw [List.append_assoc, stripLayout_spaces _ maximalHere, ih endlessLine noReturnLater,
        shortenRuns_spaces length maximal, List.append_assoc]

/-- A line that is ended: its end goes, and what stands behind it is taken on its own. -/
theorem stripLayout_ended (endless : '\n' ∉ line) (rest : List Char) :
    stripLayout (line ++ '\n' :: rest) = shortenRuns (dropReturn line) ++ stripLayout rest := by
  by_cases last : line.getLast? = some '\r'
  · obtain ⟨front, rfl⟩ := List.getLast?_eq_some_iff.1 last
    have endlessFront : '\n' ∉ front := fun mem => endless (List.mem_append_left _ mem)
    have cut : stripLayout (front ++ '\r' :: '\n' :: rest) = _ :=
      stripLayout_line_append endlessFront (by simp) (by simp)
    have ended : stripLayout ('\r' :: '\n' :: rest) = stripLayout rest := stripLayout_lineEnd .returnNewline rest
    rw [ended] at cut
    simpa [dropReturn] using cut
  · have cut : stripLayout (line ++ '\n' :: rest) = _ :=
      stripLayout_line_append endless (by simp) (fun isReturn => absurd isReturn last)
    have ended : stripLayout ('\n' :: rest) = stripLayout rest := stripLayout_lineEnd .newline rest
    rw [ended] at cut
    simpa [dropReturn, last] using cut

/-! ## Taking the layout of a text away -/

theorem textLines_append (front rest : List Char) :
    textLines (front ++ '\n' :: rest) = (front.splitOn '\n').map dropReturn ++ textLines rest := by
  have more : rest.splitOn '\n' ≠ [] := List.splitOn_ne_nil _ _
  rw [textLines, textLines, List.splitOn_append_cons_self, List.dropLast_append_of_ne_nil more,
    List.getLast?_append_of_ne_nil _ more, List.map_append, List.append_assoc]

theorem textLines_of_endless (endless : '\n' ∉ line) : textLines line = [line] := by
  simp [textLines, List.splitOn_eq_singleton endless]

/-- What is left of a text are its lines, cut down one by one. -/
theorem stripLayout_eq (text : List Char) : stripLayout text = (textLines text).flatMap shortenRuns := by
  by_cases more : '\n' ∈ text
  · obtain ⟨line, rest, split, endless⟩ := List.eq_append_cons_of_mem more
    have later := stripLayout_eq rest
    rw [split, stripLayout_ended endless, later, textLines_append, List.splitOn_eq_singleton endless]
    rfl
  · have whole : stripLayout (text ++ []) = _ := stripLayout_line_append more (by simp) (by simp)
    simpa [textLines_of_endless more, stripLayout] using whole
termination_by text.length
decreasing_by
  rw [split, List.length_append, List.length_cons]
  omega

/-- No newline is left. -/
theorem newline_notMem_stripLayout (text : List Char) : '\n' ∉ stripLayout text := by
  fun_induction stripLayout text with
  | case1 rest ih => exact ih
  | case2 rest ih => exact ih
  | case3 rest ih => exact ih
  | case4 c rest noIndent noReturn inLine ih =>
      have other : '\n' ≠ c := fun same => inLine same.symm
      simp [other, ih]
  | case5 => simp

/-- Of the characters that are no part of a layout, none is lost. -/
theorem count_stripLayout {c : Char} (noSpace : c ≠ ' ') (noReturn : c ≠ '\r') (noNewline : c ≠ '\n')
    (text : List Char) : (stripLayout text).count c = text.count c := by
  fun_induction stripLayout text with
  | case1 rest ih => simp [ih, noSpace.symm]
  | case2 rest ih => simp [ih, noReturn.symm, noNewline.symm]
  | case3 rest ih => simp [ih, noNewline.symm]
  | case4 c rest _ _ _ ih => simp [List.count_cons, ih]
  | case5 => rfl

/-- What stands behind a newline is taken on its own. -/
theorem stripLayout_append (front rest : List Char) :
    stripLayout (front ++ '\n' :: rest) = stripLayout (front ++ ['\n']) ++ stripLayout rest := by
  have ended : textLines [] = [[]] := rfl
  rw [stripLayout_eq, stripLayout_eq (front ++ ['\n']), stripLayout_eq rest, textLines_append, textLines_append, ended,
    List.flatMap_append, List.flatMap_append]
  simp [shortenRuns_nil]

end

end Source

/-- Of a file its lines are left, one behind the other and without their ends, and of each run of spaces in a line the
remainder of its length by four.  So no newline is left and no semicolon is lost, and what stands behind a newline is
taken on its own. -/
theorem withoutLayout_lines (file : String) :
    Source.withoutLayout file = String.ofList ((Source.textLines file.toList).flatMap Source.shortenRuns) ∧
      '\n' ∉ (Source.withoutLayout file).toList ∧
      (Source.withoutLayout file).toList.count ';' = file.toList.count ';' ∧
      ∀ rest, Source.withoutLayout (file ++ "\n" ++ rest) =
        Source.withoutLayout (file ++ "\n") ++ Source.withoutLayout rest := by
  refine ⟨?_, ?_, ?_, ?_⟩
  · rw [Source.withoutLayout, Source.stripLayout_eq]
  · rw [Source.withoutLayout, String.toList_ofList]
    exact Source.newline_notMem_stripLayout file.toList
  · rw [Source.withoutLayout, String.toList_ofList]
    exact Source.count_stripLayout (by decide) (by decide) (by decide) file.toList
  · intro rest
    rw [← String.toList_inj]
    simpa [Source.withoutLayout] using Source.stripLayout_append file.toList rest.toList

/-- Five spaces in a row may be left, where they come from several lines. -/
example : Source.withoutLayout "x     \r\n   \n y\r" = "x     y\r" := by decide

end CounterLang
