/-!
# Pieces — a text cut at a separator

Cutting a text at every occurrence of a character leaves one piece more than there are occurrences; pieces
may be empty, and nothing is trimmed.

- `pieces`                : the pieces between the separators, in order
- `intercalate_pieces`    : joining the pieces gives the text back
- `pieces_intercalate`    : texts without the separator are the pieces of their join
- `pieces_append`         : two texts around a separator are cut independently
- `length_pieces`         : one piece more than there are separators
- `pieces_eq_iff`         : the pieces are the only separator-free texts that join to the text
-/

namespace CounterLang
namespace Text

/-- The pieces of a text between the occurrences of a separator. -/
def pieces (separator : Char) (text : String) : List String :=
  (text.toList.splitOn separator).map String.ofList

theorem pieces_ne_nil (separator : Char) (text : String) : pieces separator text ≠ [] := by
  simp [pieces]

theorem map_toList_pieces (separator : Char) (text : String) :
    (pieces separator text).map String.toList = text.toList.splitOn separator := by
  simp [pieces, Function.comp_def]

/-- Nothing but the separators is lost. -/
theorem intercalate_pieces (separator : Char) (text : String) :
    (String.singleton separator).intercalate (pieces separator text) = text := by
  rw [← String.toList_inj, String.toList_intercalate, map_toList_pieces, String.toList_singleton,
    List.intercalate_splitOn]

/-- Texts without the separator are found again after they have been joined. -/
theorem pieces_intercalate {separator : Char} {texts : List String} (nonempty : texts ≠ [])
    (free : ∀ text ∈ texts, separator ∉ text.toList) :
    pieces separator ((String.singleton separator).intercalate texts) = texts := by
  rw [pieces, String.toList_intercalate, String.toList_singleton, List.splitOn_intercalate]
  · simp [Function.comp_def]
  · simpa using free
  · simpa using nonempty

/-- Two texts around a separator are cut independently of each other. -/
theorem pieces_append (separator : Char) (a b : String) :
    pieces separator (a ++ String.singleton separator ++ b) =
      pieces separator a ++ pieces separator b := by
  rw [pieces, String.toList_append, String.toList_append, String.toList_singleton,
    List.append_assoc, List.singleton_append, List.splitOn_append_cons_self, List.map_append]
  rfl

theorem length_splitOn {α : Type} [BEq α] [LawfulBEq α] (separator : α) (items : List α) :
    (items.splitOn separator).length = items.count separator + 1 := by
  induction items with
  | nil => simp
  | cons item items ih =>
      rw [List.splitOn_cons_eq_if_modifyHead, List.count_cons]
      split <;> simp [ih]

/-- There is one piece more than there are separators. -/
theorem length_pieces (separator : Char) (text : String) :
    (pieces separator text).length = text.toList.count separator + 1 := by
  rw [pieces, List.length_map, length_splitOn]

theorem notMem_of_mem_splitOn {α : Type} [BEq α] [LawfulBEq α] {separator : α} {piece items : List α}
    (h : piece ∈ items.splitOn separator) : separator ∉ piece := by
  induction items generalizing piece with
  | nil =>
      simp at h
      simp [h]
  | cons item items ih =>
      rw [List.splitOn_cons_eq_if_modifyHead] at h
      split at h
      next same =>
        rcases List.mem_cons.1 h with rfl | h
        · simp
        · exact ih h
      next differ =>
        -- the item is put in front of the first piece, and the other pieces stay as they are
        cases pieces : items.splitOn separator with
        | nil => simp [pieces] at h
        | cons first rest =>
            rw [pieces, List.modifyHead_cons] at h
            rcases List.mem_cons.1 h with rfl | h
            · have free : separator ∉ first := ih (by simp [pieces])
              have other : separator ≠ item := by
                rintro rfl
                simp at differ
              simp [other, free]
            · exact ih (by simp [pieces, h])

/-- No piece contains the separator. -/
theorem notMem_of_mem_pieces {separator : Char} {text piece : String}
    (h : piece ∈ pieces separator text) : separator ∉ piece.toList := by
  obtain ⟨chars, mem, rfl⟩ := List.mem_map.1 h
  rw [String.toList_ofList]
  exact notMem_of_mem_splitOn mem

/-- The pieces of a text are the only texts without the separator that join to it. -/
theorem pieces_eq_iff {separator : Char} {text : String} {texts : List String} :
    pieces separator text = texts ↔
      text = (String.singleton separator).intercalate texts ∧ texts ≠ [] ∧
        ∀ piece ∈ texts, separator ∉ piece.toList := by
  constructor
  · rintro rfl
    refine ⟨(intercalate_pieces separator text).symm, pieces_ne_nil separator text, ?_⟩
    intro piece mem
    exact notMem_of_mem_pieces mem
  · rintro ⟨rfl, nonempty, free⟩
    exact pieces_intercalate nonempty free

end Text
end CounterLang
