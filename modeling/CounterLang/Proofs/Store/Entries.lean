import CounterLang.Store
import Mathlib.Data.List.Dedup

/-!
# Entries — what a store lists and what it answers

The entries of a store and the ways of looking a variable up all tell the same: an entry is there if and only if its
value is found under its name, and no name is there twice.  A variable that is not there has no value, whichever way it
is looked up, and it is named where that is a mistake.

- `Entries.isSome_lookup_iff`  : a name is there if and only if a value is found
- `Store.mem_toList_iff`       : an entry is there if and only if its value is found
- `Store.size_eq`              : the size of a store, told from the names in it
- `Store.Answers`              : what all ways of looking a variable up come to
-/

namespace CounterLang

/-! ## Entries and names -/

/-- A name is there if and only if a value is found under it. -/
theorem Entries.isSome_lookup_iff {entries : List (String × Int64)} {name : String} :
    (entries.lookup name).isSome ↔ name ∈ entries.map Prod.fst := by
  rw [List.lookup_isSome_iff, List.mem_map]
  simp only [beq_iff_eq, eq_comm (a := name)]

namespace Store

variable {store : Store} {name : String} {value : Int64}

/-- The names in a store are all different. -/
theorem nodup_names (store : Store) : (store.entries.map Prod.fst).Nodup := by
  rw [List.Nodup, List.pairwise_map]
  exact store.ascending.imp fun before => String.ne_of_lt before

theorem mem_toList_iff : (name, value) ∈ store.toList ↔ store.get? name = some value := by
  rcases store with ⟨entries, ascending⟩
  change _ ∈ entries ↔ entries.lookup name = some value
  induction entries with
  | nil => simp
  | cons entry rest ih =>
      obtain ⟨least, later⟩ := List.pairwise_cons.1 ascending
      rw [List.mem_cons, ih later, Entries.lookup_cons, Prod.ext_iff]
      split
      next same =>
        -- the name stands at the front, so that it does not stand anywhere behind
        have absent : rest.lookup name = none := Entries.lookup_eq_none_of_lt fun other mem => same ▸ least other mem
        rw [absent]
        simp [same, eq_comm]
      next differ => simp [differ]

/-- A store that holds the names of a list has as many variables as there are different names in it. -/
theorem size_eq {names : List String} (h : ∀ name, (store.get? name).isSome ↔ name ∈ names) :
    store.size = names.dedup.length := by
  have same : (store.entries.map Prod.fst).Perm names.dedup := by
    rw [List.perm_ext_iff_of_nodup store.nodup_names names.nodup_dedup]
    intro name
    rw [← Entries.isSome_lookup_iff, List.mem_dedup]
    exact h name
  rw [← same.length_eq, List.length_map, size]

/-! ## Looking up -/

/-- All ways of looking a variable up come to the same: its value, or that it has none. -/
def Answers (store : Store) (name : String) : Option Int64 → Prop
  | some value =>
    store.get? name = some value ∧ store.read name = .ok value ∧ store.resolve (.var name) = .ok value
  | none =>
    store.get? name = none ∧ store.read name = .error (.undefinedVariable name) ∧
      store.resolve (.var name) = .error (.undefinedVariable name)

theorem answers (store : Store) (name : String) : store.Answers name (store.get? name) := by
  cases found : store.get? name <;> simp [Answers, resolve, read, found]

end Store
end CounterLang
