import Mathlib.Data.String.Basic

/-!
# Encoding — texts ordered by their bytes

Texts are compared character by character, and of two different characters the one with the smaller code point comes
first.  The same order is found in their UTF-8 encodings, byte by byte.  A character is encoded as a number in base 64
whose first digit also tells how many more there are, so that a longer encoding has a larger first byte, and two
encodings of the same length first differ at a byte that is smaller for the smaller character.

- `Text.bytes`, `Text.codePoints`  : a text in UTF-8, and the numbers of its characters
- `Departs`                        : two lists of bytes part at a byte that is smaller in the first of them
- `digits`, `Form`                 : the bytes of a number, and what the first of them and their number are
- `departs_encode`                 : the encodings of two characters part like the characters
- `bytes_lt_iff`                   : texts are in the order of their bytes
- `codePoints_lt_iff`              : texts are in the order of their code points
-/

namespace CounterLang
namespace Text

/-- The bytes of a text in UTF-8. -/
def bytes (text : String) : List UInt8 :=
  text.toUTF8.data.toList

def codePoints (text : String) : List Nat :=
  text.toList.map Char.toNat

/-- A view of texts that keeps their order is as good as the texts themselves. -/
theorem lt_iff_of_forall_lt {α : Type} [LT α] [Std.Irrefl (· < · : α → α → Prop)]
    [Std.Asymm (· < · : α → α → Prop)] (view : String → List α) (keeps : ∀ a b, a < b → view a < view b)
    {a b : String} : view a < view b ↔ a < b := by
  refine ⟨?_, keeps a b⟩
  intro less
  rcases lt_trichotomy a b with below | rfl | above
  · exact below
  · exact absurd less (List.lt_irrefl _)
  · exact absurd less (List.lt_asymm (keeps b a above))

theorem codePoints_lt_iff {a b : String} : codePoints a < codePoints b ↔ a < b := by
  refine lt_iff_of_forall_lt codePoints fun a b less => ?_
  exact List.map_lt (fun _ _ smaller => smaller) less

/-! ## Lists of bytes that part -/

/-- Two lists of bytes part at a byte that is smaller in the first of them. -/
inductive Departs : List UInt8 → List UInt8 → Prop where
  | here {b c : UInt8} {bs cs : List UInt8} : b < c → Departs (b :: bs) (c :: cs)
  | later {b : UInt8} {bs cs : List UInt8} : Departs bs cs → Departs (b :: bs) (b :: cs)

namespace Departs
variable {bs cs : List UInt8}

/-- What stands behind the byte where two lists part does not matter. -/
theorem append (h : Departs bs cs) (xs ys : List UInt8) : Departs (bs ++ xs) (cs ++ ys) := by
  induction h with
  | here less => exact .here less
  | later _ ih => exact .later ih

theorem append_left (front : List UInt8) (h : Departs bs cs) : Departs (front ++ bs) (front ++ cs) := by
  induction front with
  | nil => exact h
  | cons _ _ ih => exact .later ih

theorem lt (h : Departs bs cs) : bs < cs := by
  induction h with
  | here less => exact .rel less
  | later _ ih => exact .cons ih

end Departs

/-! ## Numbers as bytes -/

theorem ofNat_lt_ofNat {m n : Nat} (less : m < n) (small : n < 256) : UInt8.ofNat m < UInt8.ofNat n := by
  rw [UInt8.lt_iff_toNat_lt, UInt8.toNat_ofNat', UInt8.toNat_ofNat', Nat.mod_eq_of_lt small,
    Nat.mod_eq_of_lt (less.trans small)]
  exact less

/-- A number in base 64: a first digit of any size, marked by `lead`, and `more` digits behind it. -/
def digits (lead : Nat) : Nat → Nat → List UInt8
  | 0, value => [UInt8.ofNat (value + lead)]
  | more + 1, value => digits lead more (value / 64) ++ [UInt8.ofNat (value % 64 + 0x80)]

section
variable {lead lead' more more' value value' : Nat}

theorem exists_digits_eq_cons (lead more value : Nat) :
    ∃ rest, digits lead more value = UInt8.ofNat (value / 64 ^ more + lead) :: rest := by
  induction more generalizing value with
  | zero => exact ⟨[], by simp [digits]⟩
  | succ more ih =>
      rcases ih (value / 64) with ⟨rest, first⟩
      rw [Nat.div_div_eq_div_mul, ← Nat.pow_succ'] at first
      exact ⟨rest ++ [UInt8.ofNat (value % 64 + 0x80)], by rw [digits, first, List.cons_append]⟩

/-- Two numbers with as many digits part at the first digit in which they differ. -/
theorem departs_digits (less : value < value') (fits : value' / 64 ^ more + lead < 256) :
    Departs (digits lead more value) (digits lead more value') := by
  induction more generalizing value value' with
  | zero => exact .here (ofNat_lt_ofNat (by omega) (by simpa using fits))
  | succ more ih =>
      rcases Nat.lt_or_eq_of_le (Nat.div_le_div_right (c := 64) less.le) with higher | same
      · rw [Nat.pow_succ', ← Nat.div_div_eq_div_mul] at fits
        exact (ih higher fits).append _ _
      · have last : value % 64 < value' % 64 := by omega
        rw [digits, digits, same]
        exact .append_left _ (.here (ofNat_lt_ofNat (by omega) (by omega)))

/-! ## Characters as bytes -/

/-- The code point of a character, the mark in the first byte of its encoding, and the number of bytes behind it. -/
inductive Form : Nat → Nat → Nat → Prop where
  | one {value : Nat} : value ≤ 0x7f → Form value 0 0
  | two {value : Nat} : 0x7f < value → value ≤ 0x7ff → Form value 0xc0 1
  | three {value : Nat} : 0x7ff < value → value ≤ 0xffff → Form value 0xe0 2
  | four {value : Nat} : 0xffff < value → value < 0x110000 → Form value 0xf0 3

theorem exists_form (c : Char) :
    ∃ lead more, Form c.toNat lead more ∧ String.utf8EncodeChar c = digits lead more c.toNat := by
  have bound : c.toNat < 0x110000 := by
    rcases c.valid with low | ⟨_, high⟩
    · exact low.trans (by decide)
    · exact high
  simp only [String.utf8EncodeChar, Char.toNat_val]
  split
  next small => exact ⟨_, _, .one small, rfl⟩
  next large =>
    split
    next small =>
      have first : c.toNat / 64 < 0x20 := by omega
      refine ⟨_, _, .two (by omega) small, ?_⟩
      rw [Nat.mod_eq_of_lt first]
      rfl
    next large =>
      split
      next small =>
        have first : c.toNat / 4096 < 0x10 := by omega
        refine ⟨_, _, .three (by omega) small, ?_⟩
        rw [Nat.mod_eq_of_lt first]
        simp [digits, Nat.div_div_eq_div_mul]
      next large =>
        have first : c.toNat / 262144 < 0x08 := by omega
        refine ⟨_, _, .four (by omega) bound, ?_⟩
        rw [Nat.mod_eq_of_lt first]
        simp [digits, Nat.div_div_eq_div_mul]

theorem Form.departs (form : Form value lead more) (form' : Form value' lead' more') (less : value < value') :
    Departs (digits lead more value) (digits lead' more' value') := by
  have fits : value' / 64 ^ more' + lead' < 256 := by
    cases form' <;> omega
  -- either the first bytes tell the characters apart, or as many bytes stand behind both of them
  have firsts : value / 64 ^ more + lead < value' / 64 ^ more' + lead' ∨ lead = lead' ∧ more = more' := by
    cases form <;> cases form' <;> omega
  rcases firsts with first | ⟨rfl, rfl⟩
  · rcases exists_digits_eq_cons lead more value with ⟨_, eq⟩
    rcases exists_digits_eq_cons lead' more' value' with ⟨_, eq'⟩
    rw [eq, eq']
    exact .here (ofNat_lt_ofNat first fits)
  · exact departs_digits less fits

end

theorem departs_encode {c d : Char} (h : c < d) :
    Departs (String.utf8EncodeChar c) (String.utf8EncodeChar d) := by
  rcases exists_form c with ⟨_, _, form, eq⟩
  rcases exists_form d with ⟨_, _, form', eq'⟩
  rw [eq, eq']
  exact form.departs form' h

/-! ## Texts as bytes -/

theorem bytes_eq (text : String) : bytes text = text.toList.flatMap String.utf8EncodeChar := by
  rw [bytes, String.toUTF8_eq_toByteArray, ← String.utf8Encode_toList, List.utf8Encode,
    List.toList_data_toByteArray]

theorem flatMap_encode_lt {cs ds : List Char} (h : cs < ds) :
    cs.flatMap String.utf8EncodeChar < ds.flatMap String.utf8EncodeChar := by
  induction h with
  | @nil d ds =>
      rcases List.exists_cons_of_ne_nil (String.utf8EncodeChar_ne_nil (c := d)) with ⟨_, _, eq⟩
      rw [List.flatMap_nil, List.flatMap_cons, eq]
      exact .nil
  | rel less =>
      rw [List.flatMap_cons, List.flatMap_cons]
      exact ((departs_encode less).append _ _).lt
  | cons _ ih =>
      rw [List.flatMap_cons, List.flatMap_cons]
      exact List.append_left_lt ih

theorem bytes_lt_iff {a b : String} : bytes a < bytes b ↔ a < b := by
  refine lt_iff_of_forall_lt bytes fun a b less => ?_
  rw [bytes_eq, bytes_eq]
  exact flatMap_encode_lt less

/-- The order by bytes is not that of the 16-bit units of a text. -/
example : bytes "｡" < bytes "𐀀" := by decide

end Text
end CounterLang
