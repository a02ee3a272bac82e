import CounterLang.RuntimeError

/-!
# Store — the variables that have a value

A store holds the value of each variable that has one, in ascending order of names.  The order is part of
the type, so that two stores with the same values are equal however they came about.

- `Store`, `Store.empty`, `Store.get?`, `Store.set`, `Store.size`
- `Store.read`, `Store.resolve`  : looking up what must be there
- `get?_set`                     : setting a variable changes that variable and no other
- `ext_get?`                     : a store is determined by the values it holds
-/

namespace CounterLang

/-! ## Ascending lists of entries -/

namespace Entries

/-- Names ascend strictly, so that no name occurs twice. -/
abbrev Ascending (entries : List (String × Int64)) : Prop :=
  entries.Pairwise fun a b => a.1 < b.1

/-- Puts a value under a name, in place of the value that may stand there. -/
def set (name : String) (value : Int64) : List (String × Int64) → List (String × Int64)
  | [] => [(name, value)]
  | entry :: rest =>
    if name < entry.1 then (name, value) :: entry :: rest
    else if name = entry.1 then (name, value) :: rest
    else entry :: set name value rest

theorem mem_of_mem_set {name : String} {value : Int64} {entry : String × Int64}
    {entries : List (String × Int64)} (h : entry ∈ set name value entries) :
    entry = (name, value) ∨ entry ∈ entries := by
  induction entries with
  | nil => simpa [set] using h
  | cons first rest ih =>
    rw [set] at h
    split at h
    · simpa using h
    · split at h
      · rcases List.mem_cons.mp h with rfl | h
        · exact .inl rfl
        · exact .inr (List.mem_cons_of_mem _ h)
      · rcases List.mem_cons.mp h with rfl | h
        · exact .inr List.mem_cons_self
        · exact (ih h).imp id (List.mem_cons_of_mem _)

theorem ascending_set (name : String) (value : Int64) {entries : List (String × Int64)}
    (h : Ascending entries) : Ascending (set name value entries) := by
  induction entries with
  | nil => simp [set, Ascending]
  | cons first rest ih =>
    obtain ⟨least, ascending⟩ := List.pairwise_cons.mp h
    rw [set]
    split
    next before =>
      refine List.pairwise_cons.mpr ⟨fun entry mem => ?_, h⟩
      rcases List.mem_cons.mp mem with rfl | mem
      · exact before
      · exact String.lt_trans before (least entry mem)
    next notBefore =>
      split
      next same => exact List.pairwise_cons.mpr ⟨fun entry mem => same ▸ least entry mem, ascending⟩
      next differ =>
        refine List.pairwise_cons.mpr ⟨fun entry mem => ?_, ih ascending⟩
        rcases mem_of_mem_set mem with rfl | mem
        · apply String.not_le.mp
          intro le
          exact differ (String.le_antisymm le (String.not_lt.mp notBefore))
        · exact least entry mem

/-! ### Looking up -/

theorem lookup_cons (name other : String) (value : Int64) (rest : List (String × Int64)) :
    List.lookup other ((name, value) :: rest) =
      if other = name then some value else rest.lookup other := by
  rw [List.lookup_cons]
  by_cases h : other = name
  · rw [if_pos h, h, beq_self_eq_true]
  · rw [if_neg h, beq_false_of_ne h]

theorem lookup_set (name : String) (value : Int64) (other : String)
    (entries : List (String × Int64)) :
    (set name value entries).lookup other =
      if other = name then some value else entries.lookup other := by
  induction entries with
  | nil => exact lookup_cons name other value []
  | cons first rest ih =>
    obtain ⟨firstName, firstValue⟩ := first
    rw [set]
    split
    next before => rw [lookup_cons]
    next notBefore =>
      split
      next same =>
        rw [lookup_cons, lookup_cons, same]
        by_cases h : other = firstName <;> simp [h]
      next differ =>
        rw [lookup_cons, lookup_cons, ih]
        by_cases h : other = firstName
        · have : other ≠ name := fun e => differ (e.symm.trans h)
          simp [h, Ne.symm differ]
        · simp [h]

theorem lookup_eq_none_of_lt {name : String} {entries : List (String × Int64)}
    (h : ∀ entry ∈ entries, name < entry.1) : entries.lookup name = none := by
  induction entries with
  | nil => rfl
  | cons first rest ih =>
    obtain ⟨firstName, firstValue⟩ := first
    have differ : name ≠ firstName := String.ne_of_lt (h _ List.mem_cons_self)
    rw [lookup_cons, if_neg differ]
    exact ih fun entry mem => h entry (List.mem_cons_of_mem _ mem)

/-- A name that is found does not come before the first one. -/
theorem not_lt_of_lookup {name first : String} {value found : Int64} {rest : List (String × Int64)}
    (ascending : Ascending ((first, value) :: rest)) (h : List.lookup name ((first, value) :: rest) = some found) :
    ¬ name < first := by
  intro before
  have least := (List.pairwise_cons.mp ascending).1
  have absent : List.lookup name ((first, value) :: rest) = none := by
    apply lookup_eq_none_of_lt
    intro entry mem
    rcases List.mem_cons.mp mem with rfl | mem
    · exact before
    · exact String.lt_trans before (least entry mem)
  rw [absent] at h
  cases h

theorem eq_of_lookup_eq {as bs : List (String × Int64)} (ha : Ascending as) (hb : Ascending bs)
    (same : ∀ name, as.lookup name = bs.lookup name) : as = bs := by
  induction as generalizing bs with
  | nil =>
    cases bs with
    | nil => rfl
    | cons b bs => cases (same b.1).trans List.lookup_cons_self
  | cons a as ih =>
    obtain ⟨x, v⟩ := a
    obtain ⟨leastA, ascA⟩ := List.pairwise_cons.mp ha
    have foundA : List.lookup x bs = some v := (same x).symm.trans List.lookup_cons_self
    cases bs with
    | nil => cases foundA
    | cons b bs =>
      obtain ⟨y, w⟩ := b
      obtain ⟨leastB, ascB⟩ := List.pairwise_cons.mp hb
      have foundB : List.lookup y ((x, v) :: as) = some w := (same y).trans List.lookup_cons_self
      -- the least names of both lists agree, since either occurs in the other list
      have xy : ¬ x < y := not_lt_of_lookup hb foundA
      have yx : ¬ y < x := not_lt_of_lookup ha foundB
      obtain rfl : x = y := String.le_antisymm (String.not_lt.mp yx) (String.not_lt.mp xy)
      have value : v = w := Option.some.inj (foundA.symm.trans List.lookup_cons_self)
      have rest : as = bs := by
        apply ih ascA ascB
        intro name
        by_cases h : name = x
        · subst h
          rw [lookup_eq_none_of_lt leastA, lookup_eq_none_of_lt leastB]
        · have := same name
          rwa [lookup_cons, lookup_cons, if_neg h, if_neg h] at this
      rw [value, rest]

end Entries

/-! ## Stores -/

open Entries

structure Store where
  entries : List (String × Int64)
  ascending : Ascending entries
  deriving DecidableEq

namespace Store

def empty : Store :=
  ⟨[], .nil⟩

instance : Inhabited Store := ⟨empty⟩

def get? (store : Store) (name : String) : Option Int64 :=
  store.entries.lookup name

def set (store : Store) (name : String) (value : Int64) : Store :=
  ⟨Entries.set name value store.entries, ascending_set name value store.ascending⟩

/-- The number of variables that have a value. -/
def size (store : Store) : Nat :=
  store.entries.length

def isEmpty (store : Store) : Bool :=
  store.entries.isEmpty

/-- The variables with their values, in ascending order of names. -/
def toList (store : Store) : List (String × Int64) :=
  store.entries

/-- The value of a variable that must have one. -/
def read (store : Store) (name : String) : Except RuntimeError Int64 :=
  match store.get? name with
  | some value => .ok value
  | none => .error (.undefinedVariable name)

/-- The value of an operand whose variable must have one. -/
def resolve (store : Store) : Operand → Except RuntimeError Int64
  | .literal value => .ok value
  | .var name => store.read name

/-! ## Values after a change -/

theorem get?_empty (name : String) : empty.get? name = none := rfl

/-- Setting a variable changes that variable and no other. -/
theorem get?_set (store : Store) (name : String) (value : Int64) (other : String) :
    (store.set name value).get? other = if other = name then some value else store.get? other :=
  lookup_set name value other store.entries

/-! ## A store is determined by the values it holds -/

/-- Stores that hold the same values are equal. -/
theorem ext_get? {a b : Store} (same : ∀ name, a.get? name = b.get? name) : a = b := by
  obtain ⟨as, ha⟩ := a
  obtain ⟨bs, hb⟩ := b
  obtain rfl := eq_of_lookup_eq ha hb same
  rfl

end Store
end CounterLang
