import CounterLang.Text.Quoted
import Mathlib.Data.List.Basic
import Mathlib.Data.String.Basic

/-!
# Quoting — a quoted text stands for one text only

A character between quotes is written in one of three forms: as it is, by a letter behind a backslash, or by its number.
The first characters of a form tell which of the three it is, and where it ends, so whatever stands behind it, it is
the form of one character only.

- `cut_unique`          : a list is cut in one way only at the first of its marks
- `toDigits_injective`  : different numbers have different digits in base 16
- `Escaped`             : the three forms
- `Escaped.unique`      : a form stands for one character, whatever stands behind it
- `quote_injective`     : different texts are quoted differently
- `unbroken_quote`      : a quoted text stands on one line
-/

namespace CounterLang
namespace Text

/-- A list is cut in one way only at the first of its marks. -/
theorem cut_unique {α : Type} {mark : α} : ∀ {front front' back back' : List α},
    mark ∉ front → mark ∉ front' → front ++ mark :: back = front' ++ mark :: back' → front = front' ∧ back = back'
  | [], [], _, _, _, _, same => ⟨rfl, (List.cons.inj same).2⟩
  | [], x :: _, _, _, _, unmarked, same => absurd (List.cons.inj same).1 (List.ne_of_not_mem_cons unmarked)
  | x :: _, [], _, _, unmarked, _, same => absurd (List.cons.inj same).1.symm (List.ne_of_not_mem_cons unmarked)
  | x :: xs, y :: ys, _, _, unmarked, unmarked', same => by
      rcases List.cons.inj same with ⟨head, tail⟩
      have ⟨front, back⟩ :=
        cut_unique (List.not_mem_of_not_mem_cons unmarked) (List.not_mem_of_not_mem_cons unmarked') tail
      exact ⟨by rw [head, front], back⟩

/-! ## Digits in base 16 -/

theorem digitChar_injective : ∀ m < 16, ∀ n < 16, Nat.digitChar m = Nat.digitChar n → m = n := by
  decide

/-- A character that is no digit of any number occurs in no numeral. -/
theorem notMem_toDigits {c : Char} (noDigit : ∀ d, Nat.digitChar d ≠ c) (n : Nat) : c ∉ Nat.toDigits 16 n := by
  induction n using Nat.strongRecOn with
  | ind n ih =>
      rw [Nat.toDigits_eq_if (by decide)]
      split
      · simp [(noDigit _).symm]
      · rename_i large
        have front : c ∉ Nat.toDigits 16 (n / 16) := ih (n / 16) (by omega)
        simp [front, (noDigit _).symm]

theorem toDigits_injective {m n : Nat} (same : Nat.toDigits 16 m = Nat.toDigits 16 n) : m = n := by
  induction m using Nat.strongRecOn generalizing n with
  | ind m ih =>
      rw [Nat.toDigits_eq_if (by decide), Nat.toDigits_eq_if (n := n) (by decide)] at same
      have front : ∀ k, Nat.toDigits 16 k ≠ [] := fun _ => Nat.toDigits_ne_nil
      split at same <;> split at same
      · rename_i small small'
        exact digitChar_injective m small n small' (List.singleton_inj.1 same)
      · exact absurd (List.append_eq_singleton_iff.1 same.symm) (by simp [front])
      · exact absurd (List.append_eq_singleton_iff.1 same) (by simp [front])
      · rename_i large large'
        rcases List.append_inj' same rfl with ⟨quotients, remainders⟩
        -- the last digits are the remainders, and the digits in front of them are those of the quotients
        have sameQuotient : m / 16 = n / 16 := ih (m / 16) (by omega) quotients
        have sameRemainder : m % 16 = n % 16 :=
          digitChar_injective _ (by omega) _ (by omega) (List.singleton_inj.1 remainders)
        omega

/-! ## The forms of a character -/

/-- The characters that have a letter of their own behind a backslash. -/
def lettered : List (Char × Char) :=
  [('\x00', '0'), ('\t', 't'), ('\n', 'n'), ('\r', 'r'), ('"', '"'), ('\\', '\\')]

/-- The forms in which a character may stand between quotes. -/
inductive Escaped : Char → List Char → Prop where
  | plain {c : Char} : c ≠ '\\' → c ≠ '\n' → Escaped c [c]
  | letter {c letter : Char} : (c, letter) ∈ lettered → Escaped c ['\\', letter]
  | number {c : Char} : Escaped c ('\\' :: 'u' :: '{' :: Nat.toDigits 16 c.toNat ++ ['}'])

theorem escaped_escape (c : Char) : Escaped c (escape c) := by
  unfold escape
  split
  all_goals try exact .letter (by decide)
  rename_i notNewline _ _ notBackslash
  split
  · exact .plain notBackslash notNewline
  · exact .number

namespace Escaped
variable {c d : Char} {form other rest rest' : List Char}

theorem ne_nil (h : Escaped c form) : form ≠ [] := by
  cases h <;> exact List.cons_ne_nil _ _

/-- No form contains the end of a line. -/
theorem unbroken (h : Escaped c form) : '\n' ∉ form := by
  cases h with
  | plain _ notNewline => exact fun mem => notNewline (List.mem_singleton.1 mem).symm
  | letter mem =>
      have ordinary : ∀ entry ∈ lettered, '\n' ∉ ['\\', entry.2] := by decide
      exact ordinary _ mem
  | number =>
      have ordinary : '\n' ∉ Nat.toDigits 16 c.toNat :=
        notMem_toDigits (fun _ => Nat.digitChar_ne '\n' (by decide)) _
      simpa using ordinary

/-- A form stands for one character, whatever stands behind it. -/
theorem unique (h : Escaped c form) (h' : Escaped d other) (same : form ++ rest = other ++ rest') :
    c = d ∧ rest = rest' := by
  -- what follows the backslash is a letter of the table, or `u` and digits as far as the closing bracket
  have notU : ∀ entry ∈ lettered, entry.2 ≠ 'u' := by decide
  cases h with
  | plain notBackslash _ =>
      cases h' with
      | plain _ _ => exact List.cons.inj same
      | letter _ => exact absurd (List.cons.inj same).1 notBackslash
      | number => exact absurd (List.cons.inj same).1 notBackslash
  | letter mem =>
      cases h' with
      | plain notBackslash _ => exact absurd (List.cons.inj same).1.symm notBackslash
      | letter mem' =>
          simp only [List.cons_append, List.nil_append, List.cons.injEq, true_and] at same
          have determined : ∀ entry ∈ lettered, ∀ entry' ∈ lettered, entry.2 = entry'.2 → entry.1 = entry'.1 := by
            decide
          exact ⟨determined _ mem _ mem' same.1, same.2⟩
      | number => exact absurd (List.cons.inj (List.cons.inj same).2).1 (notU _ mem)
  | number =>
      cases h' with
      | plain notBackslash _ => exact absurd (List.cons.inj same).1.symm notBackslash
      | letter mem => exact absurd (List.cons.inj (List.cons.inj same).2).1.symm (notU _ mem)
      | number =>
          simp only [List.cons_append, List.append_assoc, List.nil_append, List.cons.injEq, true_and] at same
          have unmarked : ∀ n, '}' ∉ Nat.toDigits 16 n :=
            notMem_toDigits fun _ => Nat.digitChar_ne '}' (by decide)
          rcases cut_unique (unmarked _) (unmarked _) same with ⟨digits, behind⟩
          exact ⟨Char.toNat_inj.1 (toDigits_injective digits), behind⟩

end Escaped

/-! ## Quoted texts -/

theorem escape_injective : ∀ {cs ds : List Char}, cs.flatMap escape = ds.flatMap escape → cs = ds
  | [], [], _ => rfl
  | [], d :: _, same => absurd (List.append_eq_nil_iff.1 same.symm).1 (escaped_escape d).ne_nil
  | c :: _, [], same => absurd (List.append_eq_nil_iff.1 same).1 (escaped_escape c).ne_nil
  | c :: cs, d :: ds, same => by
      rcases (escaped_escape c).unique (escaped_escape d) same with ⟨head, tail⟩
      rw [head, escape_injective tail]

/-- Different texts are quoted differently. -/
theorem quote_injective {a b : String} (same : quote a = quote b) : a = b := by
  have chars := String.ofList_injective same
  simp only [List.cons_append, List.cons.injEq, true_and, List.append_left_inj] at chars
  exact String.toList_injective (escape_injective chars)

/-- A quoted text stands on one line. -/
theorem unbroken_quote (text : String) : '\n' ∉ (quote text).toList := by
  have escaped : ∀ c ∈ text.toList, '\n' ∉ escape c := fun c _ => (escaped_escape c).unbroken
  simpa [quote] using escaped

end Text
end CounterLang
