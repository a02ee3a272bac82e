/-!
# Numeral — signed 64-bit numbers written in decimal

A numeral is an optional sign, `+` or `-`, followed by one or more decimal digits; leading zeros are
allowed in any number.  It denotes a number only if the value fits a signed 64-bit word.

- `Numeral.read?`  : the number that a text denotes, if it is a numeral of a number in range
- `Numeral.write`  : the shortest numeral of a number, without `+` and without leading zeros
- `read?_write`    : the written numeral denotes the number it was written from
-/

namespace CounterLang
namespace Numeral

/-! ## Reading -/

/-- The value of a nonempty run of decimal digits. -/
def magnitude? (digits : List Char) : Option Nat :=
  if !digits.isEmpty && digits.all Char.isDigit then some (Nat.ofDigitChars 10 digits 0) else none

/-- The word of an integer, if the integer lies in the range of signed 64-bit words. -/
def word? (value : Int) : Option Int64 :=
  if h : Int64.minValue.toInt ≤ value ∧ value ≤ Int64.maxValue.toInt then
    some (Int64.ofIntLE value h.1 h.2)
  else
    none

/-- The number that a run of characters denotes. -/
def readChars? : List Char → Option Int64
  | '-' :: digits => (magnitude? digits).bind fun n => word? (-n)
  | '+' :: digits => (magnitude? digits).bind fun n => word? n
  | digits => (magnitude? digits).bind fun n => word? n

/-- The number that a text denotes, or `none` if the text is no numeral of a number in range. -/
def read? (text : String) : Option Int64 :=
  readChars? text.toList

/-! ## Writing -/

/-- The digits of a number, after a `-` if it is negative. -/
def writeChars (value : Int64) : List Char :=
  match value.toInt with
  | .ofNat n => Nat.toDigits 10 n
  | .negSucc n => '-' :: Nat.toDigits 10 (n + 1)

/-- The shortest numeral of a number. -/
def write (value : Int64) : String :=
  String.ofList (writeChars value)

/-! ## Written numerals read back -/

theorem magnitude?_toDigits (n : Nat) : magnitude? (Nat.toDigits 10 n) = some n := by
  have digits : ∀ c ∈ Nat.toDigits 10 n, c.isDigit := fun _ =>
    Nat.isDigit_of_mem_toDigits (by decide) (by decide)
  have nonempty : Nat.toDigits 10 n ≠ [] := Nat.toDigits_ne_nil
  simp [magnitude?, nonempty, Nat.ofDigitChars_toDigits]
  exact digits

theorem word?_toInt (value : Int64) : word? value.toInt = some value := by
  have h := And.intro value.minValue_le_toInt value.toInt_le
  rw [word?, dif_pos h, Int64.ofIntLE_toInt]

theorem readChars?_of_isDigit {c : Char} {cs : List Char} (h : c.isDigit) :
    readChars? (c :: cs) = (magnitude? (c :: cs)).bind fun n => word? n := by
  unfold readChars?
  split
  · simp_all
  · simp_all
  · rfl

theorem readChars?_toDigits (n : Nat) :
    readChars? (Nat.toDigits 10 n) = word? n := by
  cases h : Nat.toDigits 10 n with
  | nil => exact absurd h Nat.toDigits_ne_nil
  | cons c cs =>
    have digit : c.isDigit :=
      Nat.isDigit_of_mem_toDigits (b := 10) (n := n) (by decide) (by decide) (by simp [h])
    rw [readChars?_of_isDigit digit, ← h, magnitude?_toDigits]
    rfl

/-- Every number is denoted by its written numeral. -/
theorem read?_write (value : Int64) : read? (write value) = some value := by
  rw [read?, write, String.toList_ofList, writeChars]
  have back := word?_toInt value
  split
  next n h =>
    rw [readChars?_toDigits, ← back, h, Int.ofNat_eq_natCast]
  next n h =>
    rw [readChars?, magnitude?_toDigits, Option.bind_some, ← back, h, Int.negSucc_eq]
    simp only [Int.natCast_add, Int.cast_ofNat_Int]

end Numeral
end CounterLang
