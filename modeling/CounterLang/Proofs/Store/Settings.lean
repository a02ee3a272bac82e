import CounterLang.Proofs.Store.Entries
import CounterLang.Proofs.Text.Encoding

/-!
# Settings — a store is told from the last settings

A store that starts out empty and is set time and again holds the last value that each variable has been set to, and
no trace of anything else: neither of earlier values, nor of the order in which different variables have been set.
Its entries stand in the order of their names, which is that of the bytes of the names.

- `LastSet`               : the value that a variable has been set to last
- `lastSet?`              : the same, as a function
- `Store.setAll`          : a store after a sequence of settings
- `Store.ofSettings`      : a store that starts out empty, after a sequence of settings
- `Store.get?_setAll`     : the last value set is found, and what was there before if none is set
- `Store.set_comm`        : different variables may be set in either order
- `Store.setAll_set`      : a setting is forgotten once its variable is set again
- `store_last_settings`   : what is in a store, told from the settings
-/

namespace CounterLang

/-! ## Sequences of settings -/

/-- A variable has been set to a value, and has not been set after that. -/
def LastSet (settings : List (String × Int64)) (name : String) (value : Int64) : Prop :=
  ∃ before later, settings = before ++ (name, value) :: later ∧ name ∉ later.map Prod.fst

/-- The value that a variable has been set to last, if it has been set. -/
def lastSet? (settings : List (String × Int64)) (name : String) : Option Int64 :=
  settings.reverse.lookup name

section
variable {settings later : List (String × Int64)} {setting : String × Int64} {name other : String}
  {value otherValue : Int64}

theorem lastSet?_cons :
    lastSet? (setting :: later) name =
      (lastSet? later name).or (if name = setting.1 then some setting.2 else none) := by
  rw [lastSet?, List.reverse_cons, List.lookup_append, Entries.lookup_cons, List.lookup_nil, lastSet?]

theorem lastSet?_eq_some_iff : lastSet? settings name = some value ↔ LastSet settings name value := by
  rw [lastSet?, List.lookup_eq_some_iff]
  constructor
  · rintro ⟨behind, front, split, fresh⟩
    refine ⟨front.reverse, behind.reverse, ?_, ?_⟩
    · rw [← settings.reverse_reverse, split]
      simp
    · rw [List.map_reverse, List.mem_reverse, List.mem_map]
      rintro ⟨entry, mem, rfl⟩
      simpa using fresh entry mem
  · rintro ⟨before, later, rfl, fresh⟩
    refine ⟨later.reverse, before.reverse, by simp, ?_⟩
    intro entry mem
    rw [bne_iff_ne]
    rintro rfl
    exact fresh (List.mem_map_of_mem (List.mem_reverse.1 mem))

theorem isSome_lastSet?_iff : (lastSet? settings name).isSome ↔ name ∈ settings.map Prod.fst := by
  rw [lastSet?, Entries.isSome_lookup_iff, List.map_reverse, List.mem_reverse]

theorem lastSet?_eq_none_iff : lastSet? settings name = none ↔ name ∉ settings.map Prod.fst := by
  rw [← isSome_lastSet?_iff, Option.not_isSome_iff_eq_none]

/-! ## Stores after settings -/

namespace Store
variable {store : Store}

/-- A store after some settings, of which the first comes first. -/
def setAll (store : Store) (settings : List (String × Int64)) : Store :=
  settings.foldl (fun store setting => store.set setting.1 setting.2) store

/-- A store that starts out empty, after some settings. -/
def ofSettings (settings : List (String × Int64)) : Store :=
  empty.setAll settings

theorem setAll_cons : store.setAll (setting :: later) = (store.set setting.1 setting.2).setAll later := rfl

theorem ofSettings_append : ofSettings (settings ++ later) = (ofSettings settings).setAll later :=
  List.foldl_append

/-- What was there before is found if nothing has been set since. -/
theorem get?_setAll (store : Store) (settings : List (String × Int64)) (name : String) :
    (store.setAll settings).get? name = (lastSet? settings name).or (store.get? name) := by
  induction settings generalizing store with
  | nil => rfl
  | cons setting later ih =>
      -- what is found first is a later setting, then this one, then what was there before
      rw [setAll_cons, ih, lastSet?_cons, Option.or_assoc, get?_set]
      split <;> rfl

theorem get?_ofSettings : (ofSettings settings).get? name = lastSet? settings name := by
  rw [ofSettings, get?_setAll, get?_empty, Option.or_none]

/-- All ways of looking a variable up come to the value that it has been set to last. -/
theorem answers_ofSettings (settings : List (String × Int64)) (name : String) :
    if name ∈ settings.map Prod.fst then
      ∃ value, LastSet settings name value ∧ (ofSettings settings).Answers name (some value)
    else (ofSettings settings).Answers name none := by
  have answers := (ofSettings settings).answers name
  rw [get?_ofSettings] at answers
  cases found : lastSet? settings name with
  | none =>
      rw [found] at answers
      rwa [if_neg (lastSet?_eq_none_iff.1 found)]
  | some value =>
      rw [found] at answers
      rw [if_pos (isSome_lastSet?_iff.1 (Option.isSome_of_eq_some found))]
      exact ⟨value, lastSet?_eq_some_iff.1 found, answers⟩

/-- Different variables may be set in either order. -/
theorem set_comm (differ : name ≠ other) :
    (store.set name value).set other otherValue = (store.set other otherValue).set name value := by
  refine ext_get? fun asked => ?_
  simp only [get?_set]
  by_cases isOther : asked = other
  · simp [isOther, differ.symm]
  · simp [isOther]

/-- A setting makes no difference in front of settings of the same variable. -/
theorem setAll_set (h : name ∈ settings.map Prod.fst) :
    (store.set name value).setAll settings = store.setAll settings := by
  refine ext_get? fun asked => ?_
  rw [get?_setAll, get?_setAll]
  cases found : lastSet? settings asked with
  | some last => rfl
  | none =>
      have never : asked ∉ settings.map Prod.fst := lastSet?_eq_none_iff.1 found
      have differ : asked ≠ name := fun same => never (same ▸ h)
      rw [get?_set, if_neg differ]

end Store
end

/-! ## The law of settings -/

/-- A store that starts out empty, after any sequence of settings.  Its entries stand in strictly ascending order of
the bytes of their names, which is also the order of their code points; each name that has been set is there once, with
the value that it has been set to last, and no other name is there.  All ways of looking a variable up come to that
value, and fail if the variable has never been set; a number is found as it is.  There are as many entries as there are
different names in the settings.  Stores with the same values are the same store, however they have come about: so
different variables may be set in either order, and a setting makes no difference if the variable is set again. -/
theorem store_last_settings (settings : List (String × Int64)) :
    let store := Store.ofSettings settings
    let names := settings.map Prod.fst
    ((store.toList.map fun entry => Text.bytes entry.1).Pairwise (· < ·) ∧
        (store.toList.map fun entry => Text.codePoints entry.1).Pairwise (· < ·) ∧
        ∀ a b, Text.bytes a < Text.bytes b ↔ Text.codePoints a < Text.codePoints b) ∧
      (∀ name, (store.toList.map Prod.fst).count name = if name ∈ names then 1 else 0) ∧
      (∀ name value, (name, value) ∈ store.toList ↔ LastSet settings name value) ∧
      (∀ name, if name ∈ names then ∃ value, LastSet settings name value ∧ store.Answers name (some value)
        else store.Answers name none) ∧
      (∀ value, store.resolve (.literal value) = .ok value) ∧
      store.size = names.dedup.length ∧
      (∀ others, store = Store.ofSettings others ↔
        ∀ name, store.get? name = (Store.ofSettings others).get? name) ∧
      (∀ first second later, first.1 ≠ second.1 →
        Store.ofSettings (settings ++ first :: second :: later) =
          Store.ofSettings (settings ++ second :: first :: later)) ∧
      ∀ setting later, setting.1 ∈ later.map Prod.fst →
        Store.ofSettings (settings ++ setting :: later) = Store.ofSettings (settings ++ later) := by
  intro store names
  have known : ∀ name, (store.get? name).isSome ↔ name ∈ names := by
    intro name
    rw [Store.get?_ofSettings, isSome_lastSet?_iff]
  refine ⟨⟨?_, ?_, ?_⟩, ?_, ?_, Store.answers_ofSettings settings, fun _ => rfl, Store.size_eq known, ?_, ?_, ?_⟩
  · exact List.pairwise_map.2 (store.ascending.imp Text.bytes_lt_iff.2)
  · exact List.pairwise_map.2 (store.ascending.imp Text.codePoints_lt_iff.2)
  · intro a b
    rw [Text.bytes_lt_iff, Text.codePoints_lt_iff]
  · intro name
    have listed : name ∈ store.entries.map Prod.fst ↔ name ∈ names :=
      Entries.isSome_lookup_iff.symm.trans (known name)
    rw [Store.toList, store.nodup_names.count]
    simp only [listed]
  · intro name value
    rw [Store.mem_toList_iff, Store.get?_ofSettings, lastSet?_eq_some_iff]
  · intro others
    exact ⟨fun same name => by rw [same], Store.ext_get?⟩
  · intro first second later differ
    rw [Store.ofSettings_append, Store.ofSettings_append, Store.setAll_cons, Store.setAll_cons, Store.setAll_cons,
      Store.setAll_cons, Store.set_comm differ]
  · intro setting later again
    rw [Store.ofSettings_append, Store.ofSettings_append, Store.setAll_cons, Store.setAll_set again]

/-- Two variables that are set in the wrong order, and the first of them once more. -/
theorem store_last_settings_again :
    let accented : String × Int64 := ("é", 1)
    let plain : String × Int64 := ("z", 2)
    let again : String × Int64 := ("é", 3)
    accented.1 ≠ plain.1 ∧ accented.1 ∈ [again].map Prod.fst ∧
      Store.ofSettings [accented, plain, again] = Store.ofSettings [plain, accented, again] ∧
      Store.ofSettings [plain, accented, again] = Store.ofSettings [plain, again] ∧
      (Store.ofSettings [accented, plain, again]).toList = [plain, again] := by
  intro accented plain again
  have differ : accented.1 ≠ plain.1 := by decide
  have later : accented.1 ∈ [again].map Prod.fst := by decide
  rcases store_last_settings [] with ⟨_, _, _, _, _, _, _, exchanged, _⟩
  rcases store_last_settings [plain] with ⟨_, _, _, _, _, _, _, _, dropped⟩
  exact ⟨differ, later, exchanged accented plain [again] differ, dropped accented [again] later, by decide⟩

end CounterLang
