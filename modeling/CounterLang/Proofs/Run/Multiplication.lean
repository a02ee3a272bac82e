import CounterLang.Proofs.Run.Counting
import CounterLang.Proofs.Run.CountingLoop
import CounterLang.Proofs.Run.Evaluates
import CounterLang.Proofs.Source.Indented

/-!
# Multiplication — two numbers multiplied by counting

A program that only counts can multiply: it counts `z` up by the second number, with `w` counting along, and does so
once for each step in which it counts `x` down from the first number.  The first number is written as a sequence of
statements, so that the program grows with it; the second one is the number in the head of a loop.

- `Multiplication.file`                : the program, one statement on a line
- `Multiplication.forest`              : its tree
- `Multiplication.compile_file`        : the file is compiled to this tree
- `applications`                       : how often an operation is carried out
- `Multiplication.evaluates_addition`  : the inner loop adds the second number to `z`
- `Multiplication.evaluates_additions` : the outer loop does so once for each step of `x`
- `multiplication_runs`                : the file multiplies
-/

namespace CounterLang

/-- How often an operation is carried out. -/
def applications (op : Operation) (events : List Event) : Nat :=
  events.countP fun event => event.action.operation? = some op

theorem applications_cons (op : Operation) (event : Event) (events : List Event) :
    applications op (event :: events) =
      (if event.action.operation? = some op then 1 else 0) + applications op events := by
  simp [applications, List.countP_cons, Nat.add_comm]

theorem applications_append (op : Operation) (front back : List Event) :
    applications op (front ++ back) = applications op front + applications op back :=
  List.countP_append

namespace Multiplication

/-! ## The program -/

/-- The loop that counts `z` up as often as `w` has to be counted up to reach a number. -/
def addition (line k : Nat) : Node :=
  .whileNot line "w" (Int64.ofNat k) [.operation (line + 1) (.increment "z"), .operation (line + 2) (.increment "w")]

/-- The loop that makes such an addition each time that it counts `x` down. -/
def additions (line k : Nat) : Node :=
  .whileNot line "x" 0
    [.operation (line + 1) (.clear "w"), addition (line + 2) k, .operation (line + 6) (.decrement "x")]

/-- Statements that count `x` up so many times, one on each line. -/
def increments (line m : Nat) : List Node :=
  (List.range' line m).map fun line => .operation line (.increment "x")

/-- The program that multiplies two numbers. -/
def forest (m k : Nat) : List Node :=
  .operation 1 (.clear "x") :: (increments 2 m ++ [.operation (m + 2) (.clear "z"), additions (m + 3) k])

/-- The program as a file. -/
def file (m k : Nat) : String :=
  "clear x;\n" ++ String.join (List.replicate m "incr x;\n") ++
    ("clear z;\n" ++
      "while x not 0 do;\n" ++
      "    clear w;\n" ++
      "    while w not " ++ toString k ++ " do;\n" ++
      "        incr z;\n" ++
      "        incr w;\n" ++
      "    end;\n" ++
      "    decr x;\n" ++
      "end;\n")

/-! ## Compiling the program -/

section
variable {m k line : Nat} {rest : List Node}

theorem increments_succ (line m : Nat) :
    increments line (m + 1) = .operation line (.increment "x") :: increments (line + 1) m := by
  simp [increments, List.range'_succ]

/-- The head of a loop is plain if the name in it is. -/
theorem isPlain_head {name : String} (value : Int64) (isName : IsSourceName name) (filled : name ≠ "")
    (endless : '\n' ∉ name.toList) :
    IsPlain (Condition.spelling (.compare .notEqual (.var name) (.literal value))) := by
  have number : Numeral.read? (Numeral.write value) = some value := Numeral.read?_write value
  have digits : '\n' ∉ (Numeral.write value).toList := Numeral.notMem_write (by decide) (by decide) value
  refine .of_pieces (Condition.Writable.notEqual isName).unbroken ?_ ?_
  · simp [Condition.spelling, Operand.spelling, endless, digits]
  · rw [Condition.spelling, Operand.spelling, Operand.spelling, Statement.words_opening isName.toIsName number]
    simp [filled.symm, (Numeral.ne_empty_of_read? number).symm]

theorem isSourceName_of_mem {name : String} (mem : name ∈ ["w", "x", "z"]) : IsSourceName name := by
  simp only [List.mem_cons, List.not_mem_nil, or_false] at mem
  rcases mem with rfl | rfl | rfl
  all_goals exact ⟨⟨by decide, by decide, by decide⟩, by decide⟩

theorem writable_increments (line m : Nat) (writable : Writable rest) : Writable (increments line m ++ rest) := by
  induction m generalizing line with
  | zero => exact writable
  | succ m ih =>
      rw [increments_succ]
      exact .operation (.increment (isSourceName_of_mem (by simp))) (ih (line + 1))

theorem writable_forest (m k : Nat) : Writable (forest m k) := by
  have w : IsSourceName "w" := isSourceName_of_mem (by simp)
  have x : IsSourceName "x" := isSourceName_of_mem (by simp)
  have z : IsSourceName "z" := isSourceName_of_mem (by simp)
  have inner : Writable [.operation (m + 3 + 2 + 1) (.increment "z"), .operation (m + 3 + 2 + 2) (.increment "w")] :=
    .operation (.increment z) (.operation (.increment w) .nil)
  have outer : Writable [.operation (m + 3 + 1) (.clear "w"), addition (m + 3 + 2) k,
      .operation (m + 3 + 6) (.decrement "x")] :=
    .operation (.clear w) (.loop (.notEqual w) inner (.operation (.decrement x) .nil))
  exact .operation (.clear x) (writable_increments 2 m (.operation (.clear z) (.loop (.notEqual x) outer .nil)))

theorem placeAll_increments (line m : Nat) (rest : List Node) :
    Node.placeAll line (increments line m ++ rest) = increments line m ++ Node.placeAll (line + m) rest := by
  induction m generalizing line with
  | zero => rfl
  | succ m ih =>
      rw [increments_succ, List.cons_append, Node.placeAll, Node.placeAt, Node.spell, List.length_singleton, ih,
        List.cons_append, Nat.add_assoc, Nat.add_comm 1]

/-- Each node is on the line of its statement. -/
theorem placeAll_forest (m k : Nat) : Node.placeAll 1 (forest m k) = forest m k := by
  have loops : Node.placeAll (2 + m) [.operation (m + 2) (.clear "z"), additions (m + 3) k] =
      [.operation (m + 2) (.clear "z"), additions (m + 3) k] := by
    simp [Node.placeAll, Node.placeAt, Node.spell, Node.spellAll, additions, addition, Node.whileNot,
      Nat.add_comm 2 m]
  rw [forest, Node.placeAll, Node.placeAt, Node.spell, List.length_singleton, placeAll_increments, loops]

theorem spellAll_increments (line m : Nat) (rest : List Node) :
    Node.spellAll (increments line m ++ rest) = List.replicate m "incr x" ++ Node.spellAll rest := by
  induction m generalizing line with
  | zero => rfl
  | succ m ih =>
      rw [increments_succ, List.cons_append, Node.spellAll, ih]
      rfl

/-- The statements of the program; only the head of the inner loop depends on the numbers. -/
theorem mem_of_mem_spellAll {text : String} (mem : text ∈ Node.spellAll (forest m k)) :
    text = Condition.spelling (.compare .notEqual (.var "w") (.literal (Int64.ofNat k))) ∨
      text ∈ ["clear x", "incr x", "clear z", "while x not 0 do", "clear w", "incr z", "incr w", "end", "decr x"] := by
  have first : (Operation.clear "x").spelling = "clear x" := rfl
  have loops : Node.spellAll [.operation (m + 2) (.clear "z"), additions (m + 3) k] =
      ["clear z", "while x not 0 do", "clear w",
        Condition.spelling (.compare .notEqual (.var "w") (.literal (Int64.ofNat k))), "incr z", "incr w", "end",
        "decr x", "end"] := rfl
  rw [forest, Node.spellAll, spellAll_increments, Node.spell, loops, first] at mem
  generalize Condition.spelling _ = head at mem ⊢
  simp only [List.mem_append, List.mem_replicate, List.mem_cons, List.not_mem_nil, or_false] at mem ⊢
  tauto

theorem isPlain_of_mem_spellAll (m k : Nat) : ∀ text ∈ Node.spellAll (forest m k), IsPlain text := by
  intro text mem
  rcases mem_of_mem_spellAll mem with rfl | mem
  · exact isPlain_head _ (isSourceName_of_mem (by simp)) (by decide) (by decide)
  · simp only [List.mem_cons, List.not_mem_nil, or_false] at mem
    rcases mem with rfl | rfl | rfl | rfl | rfl | rfl | rfl | rfl | rfl
    all_goals exact .of_pieces (by decide) (by decide) (by decide)

theorem write_ofNat (small : k < 2 ^ 63) : Numeral.write (Int64.ofNat k) = toString k := by
  have value : (Int64.ofNat k).toInt = Int.ofNat k := Int64.toInt_ofNat_of_lt small
  rw [Numeral.write, Numeral.writeChars, value]
  rfl

/-- The first lines of the file. -/
theorem map_fileLinesAll_increments (line m : Nat) (rest : List Node) :
    (Node.fileLinesAll 0 (increments line m ++ rest)).map (fun line => line.text ++ "\n") =
      List.replicate m "incr x;\n" ++ (Node.fileLinesAll 0 rest).map fun line => line.text ++ "\n" := by
  induction m generalizing line with
  | zero => rfl
  | succ m ih =>
      rw [increments_succ, List.cons_append, Node.fileLinesAll, List.map_append, ih]
      rfl

/-- The file is the program, written with a line for each statement and indented by loops. -/
theorem file_eq (small : k < 2 ^ 63) : file m k = (Source.indented (forest m k)).text := by
  have lines := map_fileLinesAll_increments 2 m [.operation (m + 2) (.clear "z"), additions (m + 3) k]
  have first : (FileLine.mk 0 [(Operation.clear "x").spelling]).text ++ "\n" = "clear x;\n" := by decide
  have text : (Source.indented (forest m k)).text =
      String.join ((Node.fileLinesAll 0 (forest m k)).map fun line => line.text ++ "\n") := by
    rw [Source.indented, Layout.text, List.map_map]
    exact String.append_empty
  rw [text, forest, Node.fileLinesAll, List.map_append, lines, Node.fileLines, List.map_singleton, first,
    String.join_append, String.join_append, file, ← write_ofNat small]
  have loops : Node.fileLinesAll 0 [.operation (m + 2) (.clear "z"), additions (m + 3) k] =
      [⟨0, ["clear z"]⟩, ⟨0, ["while x not 0 do"]⟩, ⟨1, ["clear w"]⟩,
        ⟨1, ["while w not " ++ Numeral.write (Int64.ofNat k) ++ " do"]⟩, ⟨2, ["incr z"]⟩, ⟨2, ["incr w"]⟩,
        ⟨1, ["end"]⟩, ⟨1, ["decr x"]⟩, ⟨0, ["end"]⟩] := rfl
  rw [loops, ← String.toList_inj]
  simp [FileLine.text, Source.oneLine, List.replicate]

theorem compile_file (m : Nat) (small : k < 2 ^ 63) (mode : Mode) :
    compile mode (Source.withoutLayout (file m k)) = .ok (Node.root (forest m k)) := by
  have compiled := (writable_forest m k).compile_indented (isPlain_of_mem_spellAll m k) mode
  rwa [placeAll_forest, ← file_eq small] at compiled

end

/-! ## Running the program -/

/-- The store while the program runs; `w` has no value before the first addition. -/
def state (x z : Int64) : Option Int64 → Store
  | none => (Store.empty.set "x" x).set "z" z
  | some w => ((Store.empty.set "x" x).set "z" z).set "w" w

section
variable {m k n d v c line : Nat} {x z w : Int64} {counted : Option Int64} {rest : List Node} {events : List Event}
  {final : Store}

theorem get?_state (x z : Int64) (counted : Option Int64) (name : String) :
    (state x z counted).get? name =
      if name = "w" then counted else if name = "z" then some z else if name = "x" then some x else none := by
  cases counted with
  | none => by_cases isW : name = "w" <;> simp [state, Store.get?_set, Store.get?_empty, isW]
  | some w => simp [state, Store.get?_set, Store.get?_empty]

/-- The three variables keep their places when one of them is set. -/
theorem set_state {name : String} (known : name ∈ ["x", "z", "w"]) (x z value : Int64) (counted : Option Int64) :
    (state x z counted).set name value =
      state (if name = "x" then value else x) (if name = "z" then value else z)
        (if name = "w" then some value else counted) := by
  refine Store.ext_get? fun other => ?_
  simp only [List.mem_cons, List.not_mem_nil, or_false] at known
  rcases known with rfl | rfl | rfl
  all_goals
    simp only [Store.get?_set, get?_state]
    split_ifs <;> simp_all

/-- Numbers that fit into a word are told apart by their words. -/
theorem ofNat_ne (small : k < 2 ^ 63) (below : n < k) : Int64.ofNat n ≠ Int64.ofNat k := by
  intro same
  have values := congrArg Int64.toInt same
  rw [Int64.toInt_ofNat_of_lt small, Int64.toInt_ofNat_of_lt (Nat.lt_trans below small)] at values
  omega

theorem ofNat_succ (n : Nat) : Int64.ofNat n + 1 = Int64.ofNat (n + 1) :=
  (Int64.ofNat_add n 1).symm

theorem ofNat_pred (n : Nat) : Int64.ofNat (n + 1) - 1 = Int64.ofNat n := by
  rw [← ofNat_succ, Int64.add_sub_cancel]

/-! ### Single statements -/

/-- An operation that replaces the value of one of the three variables by what follows from it. -/
theorem read_set_state {name : String} {value : Int64} (known : name ∈ ["x", "z", "w"])
    (found : (state x z counted).get? name = some value) (change : Int64 → Int64) :
    ((state x z counted).read name >>= fun value => .ok ((state x z counted).set name (change value))) =
      .ok (state (if name = "x" then change value else x) (if name = "z" then change value else z)
        (if name = "w" then some (change value) else counted)) :=
  Store.read_bind_eq_ok_iff.2 ⟨value, found, (set_state known x z (change value) counted).symm⟩

/-! ### Loops -/

/-- The inner loop counts `z` up by what `w` lacks of its number. -/
theorem evaluates_addition (line c : Nat) (x : Int64) (small : k < 2 ^ 63) (way : n + d = k) :
    ∃ events, Evaluates (state x (Int64.ofNat c) (some (Int64.ofNat n))) [addition line k] events
        (state x (Int64.ofNat (c + d)) (some (Int64.ofNat k))) ∧
      applications (.increment "z") events = d := by
  have found := get?_state x (Int64.ofNat c) (some (Int64.ofNat n)) "w"
  induction d generalizing n c with
  | zero =>
      obtain rfl : n = k := way
      have ended : Comparison.notEqual.Decides (.var "w") (.literal (Int64.ofNat n))
          (state x (Int64.ofNat c) (some (Int64.ofNat n))) false :=
        Comparison.decides_notEqual_iff.2 ⟨Int64.ofNat n, found, by simp⟩
      exact ⟨_, .left ended .nil, rfl⟩
  | succ d ih =>
      -- `w` is still below its number, and a round counts it and `z` up by one
      have differs : Int64.ofNat n ≠ Int64.ofNat k := ofNat_ne small (by omega)
      have round : Comparison.notEqual.Decides (.var "w") (.literal (Int64.ofNat k))
          (state x (Int64.ofNat c) (some (Int64.ofNat n))) true :=
        Comparison.decides_notEqual_iff.2 ⟨Int64.ofNat n, found, by simpa using differs⟩
      have counts : (Operation.increment "z").apply (state x (Int64.ofNat c) (some (Int64.ofNat n))) =
          .ok (state x (Int64.ofNat c + 1) (some (Int64.ofNat n))) :=
        read_set_state (by decide) (get?_state ..) (· + 1)
      have along : (Operation.increment "w").apply (state x (Int64.ofNat c + 1) (some (Int64.ofNat n))) =
          .ok (state x (Int64.ofNat c + 1) (some (Int64.ofNat n + 1))) :=
        read_set_state (by decide) (get?_state ..) (· + 1)
      have body : Evaluates (state x (Int64.ofNat c) (some (Int64.ofNat n)))
          [.operation (line + 1) (.increment "z"), .operation (line + 2) (.increment "w")] _ _ :=
        .operation counts (.operation along .nil)
      rw [ofNat_succ, ofNat_succ] at body
      rcases ih (c + 1) (show n + 1 + d = k by omega) (get?_state ..) with ⟨later, further, count⟩
      rw [Nat.add_assoc, Nat.add_comm 1] at further
      refine ⟨_, .entered round body further, ?_⟩
      simp [applications_cons, count, Action.operation?, Nat.add_comm]

/-- The outer loop makes one addition for each step in which it counts `x` down. -/
theorem evaluates_additions (line c : Nat) (counted : Option Int64) (small : k < 2 ^ 63) (fits : v < 2 ^ 63) :
    ∃ events, Evaluates (state (Int64.ofNat v) (Int64.ofNat c) counted) [additions line k] events
        (state 0 (Int64.ofNat (c + v * k)) (if v = 0 then counted else some (Int64.ofNat k))) ∧
      applications (.increment "z") events = v * k := by
  have found := get?_state (Int64.ofNat v) (Int64.ofNat c) counted "x"
  induction v generalizing c counted with
  | zero =>
      have ended : Comparison.notEqual.Decides (.var "x") (.literal 0)
          (state (Int64.ofNat 0) (Int64.ofNat c) counted) false :=
        Comparison.decides_notEqual_iff.2 ⟨Int64.ofNat 0, found, by simp⟩
      rw [Nat.zero_mul, Nat.add_zero, if_pos rfl]
      exact ⟨_, .left ended .nil, rfl⟩
  | succ v ih =>
      have differs : Int64.ofNat (v + 1) ≠ 0 := (ofNat_ne fits (Nat.succ_pos v)).symm
      have round : Comparison.notEqual.Decides (.var "x") (.literal 0)
          (state (Int64.ofNat (v + 1)) (Int64.ofNat c) counted) true :=
        Comparison.decides_notEqual_iff.2 ⟨Int64.ofNat (v + 1), found, by simpa using differs⟩
      -- `w` is cleared in each round, whatever it is in front of it, and so a whole addition is made
      rcases evaluates_addition (line + 2) c (Int64.ofNat (v + 1)) small (Nat.zero_add k) with ⟨adding, added, sum⟩
      have counts : (Operation.decrement "x").apply
          (state (Int64.ofNat (v + 1)) (Int64.ofNat (c + k)) (some (Int64.ofNat k))) =
          .ok (state (Int64.ofNat (v + 1) - 1) (Int64.ofNat (c + k)) (some (Int64.ofNat k))) :=
        read_set_state (by decide) (get?_state ..) (· - 1)
      rw [ofNat_pred] at counts
      have cleared : (Operation.clear "w").apply (state (Int64.ofNat (v + 1)) (Int64.ofNat c) counted) =
          .ok (state (Int64.ofNat (v + 1)) (Int64.ofNat c) (some 0)) :=
        congrArg Except.ok (set_state (by decide) _ _ 0 counted)
      have body : Evaluates (state (Int64.ofNat (v + 1)) (Int64.ofNat c) counted)
          [.operation (line + 1) (.clear "w"), addition (line + 2) k, .operation (line + 6) (.decrement "x")] _ _ :=
        .operation cleared (added.append (.operation counts .nil))
      rcases ih (c + k) (some (Int64.ofNat k)) (by omega) (get?_state ..) with ⟨later, further, count⟩
      rw [ite_self, Nat.add_assoc, ← Nat.add_comm (v * k), ← Nat.succ_mul] at further
      rw [if_neg (Nat.succ_ne_zero v)]
      refine ⟨_, .entered round body further, ?_⟩
      simp [applications_cons, applications_append, sum, count, Action.operation?, Nat.succ_mul, Nat.add_comm]

theorem evaluates_increments (line m n : Nat) :
    ∃ events, Evaluates (Store.empty.set "x" (Int64.ofNat n)) (increments line m) events
        (Store.empty.set "x" (Int64.ofNat (n + m))) ∧
      applications (.increment "z") events = 0 := by
  induction m generalizing line n with
  | zero => exact ⟨_, .nil, rfl⟩
  | succ m ih =>
      have result : (Operation.increment "x").apply (Store.empty.set "x" (Int64.ofNat n)) =
          .ok (Store.empty.set "x" (Int64.ofNat (n + 1))) := by
        refine Store.read_bind_eq_ok_iff.2 ⟨Int64.ofNat n, by simp [Store.get?_set], ?_⟩
        refine Store.ext_get? fun name => ?_
        rw [← ofNat_succ]
        by_cases isX : name = "x" <;> simp [Store.get?_set, isX]
      rcases ih (line + 1) (n + 1) with ⟨later, further, nothing⟩
      rw [Nat.add_assoc, Nat.add_comm 1] at further
      rw [increments_succ]
      refine ⟨_, .operation result further, ?_⟩
      simp [applications_cons, nothing, Action.operation?]

/-- The program as a whole. -/
theorem evaluates_forest (fits : m < 2 ^ 63) (small : k < 2 ^ 63) :
    ∃ events, Evaluates .empty (forest m k) events
        (state 0 (Int64.ofNat (m * k)) (if m = 0 then none else some (Int64.ofNat k))) ∧
      applications (.increment "z") events = m * k := by
  rcases evaluates_increments 2 m 0 with ⟨first, counted, nothing⟩
  rcases evaluates_additions (m + 3) 0 none small fits with ⟨last, added, count⟩
  rw [Nat.zero_add] at counted added
  have cleared : (Operation.clear "z").apply (Store.empty.set "x" (Int64.ofNat m)) =
      .ok (state (Int64.ofNat m) (Int64.ofNat 0) none) := rfl
  refine ⟨_, .operation rfl (counted.append (.operation cleared added)), ?_⟩
  simp [applications_cons, applications_append, nothing, count, Action.operation?]

/-- A machine that is started on the program comes to its end. -/
theorem halts_forest (fits : m < 2 ^ 63) (small : k < 2 ^ 63) :
    ∃ events ended, (Machine.start .empty (Node.root (forest m k))).Halts events ⟨.ok (), ended⟩ ∧
      ended.store = state 0 (Int64.ofNat (m * k)) (if m = 0 then none else some (Int64.ofNat k)) ∧
      applications (.increment "z") events = m * k := by
  rcases evaluates_forest fits small with ⟨inner, evaluates, count⟩
  refine ⟨_, _, evaluates.halts_root, rfl, ?_⟩
  rw [applications_cons, applications_append, count]
  -- entering the root and leaving it are no operations
  simp [applications, Action.operation?]

/-- The values in the store, in the order of names. -/
theorem toList_state (x z : Int64) (counted : Option Int64) :
    (state x z counted).toList = (counted.toList.map fun w => ("w", w)) ++ [("x", x), ("z", z)] := by
  have behind : ¬ "z" < "x" := by decide
  have other : ¬ "z" = "x" := by decide
  have front : "w" < "x" := by decide
  cases counted with
  | none => simp only [state, Store.toList, Store.set, Store.empty, Entries.set, if_neg behind, if_neg other]; rfl
  | some w =>
      simp only [state, Store.toList, Store.set, Store.empty, Entries.set, if_neg behind, if_neg other, if_pos front]
      rfl

end
end Multiplication

/-! ## The file multiplies -/

open Multiplication in
/-- For any two numbers that fit into a word, and so does their product, the file is compiled in either mode, and its
program comes to its end, watched or not.  Then `x` is zero and `z` is the product; `w` is the second number, unless
there has been no addition at all; and nothing else has a value.  The operation that counts `z` up has been carried out
as often as the product says. -/
theorem multiplication_runs {m k : Nat} (first : m < 2 ^ 63) (second : k < 2 ^ 63) (product : m * k < 2 ^ 63)
    (mode : Mode) :
    ∃ root, compile mode (Source.withoutLayout (file m k)) = .ok root ∧
      ∃ needed, ∀ more,
        let run := execute (needed + more) .empty root
        run.outcome = .finished ∧
          finish? (needed + more) .empty root = some ⟨.ok (), run.machine⟩ ∧
          (run.store.toList.map fun entry => (entry.1, entry.2.toInt)) =
            (if m = 0 then [] else [("w", (k : Int))]) ++ [("x", 0), ("z", ((m * k : Nat) : Int))] ∧
          applications (.increment "z") run.events = m * k := by
  refine ⟨_, compile_file m second mode, ?_⟩
  rcases halts_forest first second with ⟨events, ended, halts, left, count⟩
  refine ⟨events.length, fun more => ?_⟩
  have run : execute (events.length + more) .empty (Node.root (forest m k)) = ⟨events, .finished, ended⟩ :=
    halts.run more
  rw [run]
  refine ⟨rfl, halts.finish? more, ?_, count⟩
  have values : (Int64.ofNat (m * k)).toInt = ((m * k : Nat) : Int) := Int64.toInt_ofNat_of_lt product
  have number : (Int64.ofNat k).toInt = (k : Int) := Int64.toInt_ofNat_of_lt second
  show ended.store.toList.map _ = _
  rw [left, toList_state, ← values, ← number]
  split <;> rfl

/-- Three times two. -/
theorem multiplication_runs_three_two :
    3 < 2 ^ 63 ∧ 2 < 2 ^ 63 ∧ 3 * 2 < 2 ^ 63 ∧
      ∃ root, compile .lenient (Source.withoutLayout (Multiplication.file 3 2)) = .ok root ∧
        ∃ needed, ∀ more,
          let run := execute (needed + more) .empty root
          run.outcome = .finished ∧
            finish? (needed + more) .empty root = some ⟨.ok (), run.machine⟩ ∧
            (run.store.toList.map fun entry => (entry.1, entry.2.toInt)) = [("w", 2), ("x", 0), ("z", 6)] ∧
            applications (.increment "z") run.events = 6 :=
  ⟨by decide, by decide, by decide, multiplication_runs (m := 3) (k := 2) (by decide) (by decide) (by decide) .lenient⟩

end CounterLang
