import CounterLang.Proofs.Statement.Wording

/-!
# Spelling — statements written out

An operation is written as its keyword and its target, the head of a loop with the operands of its condition,
numbers in decimal.  What is written out in this way denotes what it was written from, as long as names are
names and no semicolon breaks them up; and all statements of a program are of this kind.

- `IsSourceName`                   : the words that name variables in a program
- `Operation.spelling`, `Condition.spelling` : operations and loop heads as texts
- `Operation.Writable`, `Condition.Writable` : what can be written out
- `Operation.Writable.denotes`, `Condition.Writable.denotes` : written statements read back
- `Operation.Writable.of_denotes`, `Condition.Writable.of_denotes` : whatever is read can be written
-/

namespace CounterLang

open Statement (Denotes)

/-! ## Writing -/

/-- A name that no semicolon breaks up. -/
structure IsSourceName (word : String) : Prop extends IsName word where
  unbroken : ';' ∉ word.toList

def Operand.spelling : Operand → String
  | literal value => Numeral.write value
  | var name => name

def Operation.spelling (op : Operation) : String :=
  op.keyword ++ " " ++ op.target

/-- The head of a loop with a given condition; a trigger has no words. -/
def Condition.spelling : Condition → String
  | compare _ left right => "while " ++ left.spelling ++ " not " ++ right.spelling ++ " do"
  | once _ => ""

inductive Operation.Writable : Operation → Prop where
  | clear {name : String} : IsSourceName name → Writable (.clear name)
  | increment {name : String} : IsSourceName name → Writable (.increment name)
  | decrement {name : String} : IsSourceName name → Writable (.decrement name)

inductive Condition.Writable : Condition → Prop where
  | notEqual {name : String} {value : Int64} :
      IsSourceName name → Writable (.compare .notEqual (.var name) (.literal value))

/-! ## Reading back -/

theorem Numeral.isDigit_of_mem_writeChars {value : Int64} {c : Char} (mem : c ∈ writeChars value) :
    c = '-' ∨ c.isDigit = true := by
  have digits : ∀ n : Nat, c ∈ Nat.toDigits 10 n → c.isDigit = true := fun n =>
    Nat.isDigit_of_mem_toDigits (by decide) (by decide)
  unfold writeChars at mem
  split at mem
  · exact .inr (digits _ mem)
  · rcases List.mem_cons.1 mem with sign | digit
    · exact .inl sign
    · exact .inr (digits _ digit)

/-- Nothing occurs in a numeral but digits and the sign. -/
theorem Numeral.notMem_write {c : Char} (noSign : c ≠ '-') (noDigit : ¬ c.isDigit = true) (value : Int64) :
    c ∉ (write value).toList := by
  rw [write, String.toList_ofList]
  exact fun mem => (isDigit_of_mem_writeChars mem).elim noSign noDigit

namespace Operation.Writable

variable {op : Operation} {text : String}

theorem denotes (h : op.Writable) : Denotes op.spelling (.operation op) := by
  cases h with
  | clear isName => exact .clear isName.toIsName
  | increment isName => exact .increment isName.toIsName
  | decrement isName => exact .decrement isName.toIsName

theorem unbroken (h : op.Writable) : ';' ∉ op.spelling.toList := by
  cases h with
  | clear isName => simp [spelling, keyword, target, isName.unbroken]
  | increment isName => simp [spelling, keyword, target, isName.unbroken]
  | decrement isName => simp [spelling, keyword, target, isName.unbroken]

theorem of_denotes (h : Denotes text (.operation op)) (unbroken : ';' ∉ text.toList) : op.Writable := by
  cases h with
  | clear isName => exact .clear ⟨isName, by simp_all⟩
  | increment isName => exact .increment ⟨isName, by simp_all⟩
  | decrement isName => exact .decrement ⟨isName, by simp_all⟩

end Operation.Writable

namespace Condition.Writable

variable {condition : Condition} {text : String}

theorem denotes (h : condition.Writable) : Denotes condition.spelling (.opening condition) := by
  cases h with
  | notEqual isName => exact .opening isName.toIsName (Numeral.read?_write _)

theorem unbroken (h : condition.Writable) : ';' ∉ condition.spelling.toList := by
  cases h with
  | notEqual isName =>
      have number : ∀ value, ';' ∉ (Numeral.write value).toList := Numeral.notMem_write (by decide) (by decide)
      simp [spelling, Operand.spelling, isName.unbroken, number]

theorem of_denotes (h : Denotes text (.opening condition)) (unbroken : ';' ∉ text.toList) :
    condition.Writable := by
  cases h with
  | opening isName isNumber => exact .notEqual ⟨isName, by simp_all⟩

end Condition.Writable
end CounterLang
