import CounterLang.Proofs.Run.Steps

/-!
# Reads — what a step has to find in the store

Counting a variable and testing it need its value.  A step fails only where such a value is missing, or at
arithmetic, which is only reserved; and no step takes a value away.

- `Node.reads`               : the variables whose values a node needs
- `Operation.apply_cases`    : all that an operation can do to a store
- `Operation.isSome_apply`   : a variable that has a value keeps having one
- `Point.Fails.cases`        : all that can go wrong at a node
-/

namespace CounterLang

/-! ## Variables that are read -/

def Operand.reads : Operand → List String
  | literal _ => []
  | var name => [name]

def Operation.reads : Operation → List String
  | increment target | decrement target => [target]
  | clear _ | arithmetic _ _ _ => []

def Condition.reads : Condition → List String
  | once _ => []
  | compare _ left right => left.reads ++ right.reads

/-- The variables whose values are needed to carry out an operation, or to test a loop. -/
def Node.reads : Node → List String
  | operation _ op => op.reads
  | loop _ condition _ => condition.reads

/-! ## Values in the store -/

namespace Store

variable {store changed : Store} {name : String} {error : RuntimeError} {change : Int64 → Store}

/-- A change that starts from the value of a variable is made if there is a value. -/
theorem read_bind_eq_ok_iff : (do let value ← store.read name; return change value) = Except.ok changed ↔
    ∃ value, store.get? name = some value ∧ changed = change value := by
  cases found : store.get? name <;> simp [read, found, bind, Except.bind, pure, Except.pure, eq_comm]

theorem read_bind_eq_error_iff : (do let value ← store.read name; return change value) = Except.error error ↔
    store.get? name = none ∧ error = .undefinedVariable name := by
  cases found : store.get? name <;> simp [read, found, bind, Except.bind, pure, Except.pure, eq_comm]

theorem resolve_eq_error {operand : Operand} (h : store.resolve operand = .error error) :
    ∃ name ∈ operand.reads, store.get? name = none ∧ error = .undefinedVariable name := by
  cases operand with
  | literal value => cases h
  | var name =>
      refine ⟨name, List.mem_singleton_self name, ?_⟩
      cases found : store.get? name with
      | none => simpa [resolve, read, found, eq_comm] using h
      | some value => simp [resolve, read, found] at h

end Store

/-! ## Operations and conditions -/

section
variable {store changed : Store} {op : Operation} {condition : Condition} {name : String} {error : RuntimeError}

/-- All that an operation can do to a store. -/
theorem Operation.apply_cases (h : op.apply store = .ok changed) :
    (∃ target, op = .clear target ∧ changed = store.set target 0) ∨
      (∃ target value, op = .increment target ∧ store.get? target = some value ∧
        changed = store.set target (value + 1)) ∨
      ∃ target value, op = .decrement target ∧ store.get? target = some value ∧
        changed = store.set target (value - 1) := by
  cases op with
  | clear target => exact .inl ⟨target, rfl, (Except.ok.inj h).symm⟩
  | increment target =>
      rcases Store.read_bind_eq_ok_iff.1 h with ⟨value, found, same⟩
      exact .inr (.inl ⟨target, value, rfl, found, same⟩)
  | decrement target =>
      rcases Store.read_bind_eq_ok_iff.1 h with ⟨value, found, same⟩
      exact .inr (.inr ⟨target, value, rfl, found, same⟩)
  | arithmetic kind target operand => cases h

/-- An operation fails where a value is missing, and arithmetic fails wherever it stands. -/
theorem Operation.apply_eq_error (h : op.apply store = .error error) :
    (∃ name ∈ op.reads, store.get? name = none ∧ error = .undefinedVariable name) ∨
      ∃ kind target operand, op = .arithmetic kind target operand ∧ error = .notImplemented kind := by
  cases op with
  | clear target => cases h
  | increment target => exact .inl ⟨target, List.mem_singleton_self target, Store.read_bind_eq_error_iff.1 h⟩
  | decrement target => exact .inl ⟨target, List.mem_singleton_self target, Store.read_bind_eq_error_iff.1 h⟩
  | arithmetic kind target operand => exact .inr ⟨kind, target, operand, rfl, (Except.error.inj h).symm⟩

/-- A test fails only where a value is missing. -/
theorem Condition.holds_eq_error (h : condition.holds store = .error error) :
    ∃ name ∈ condition.reads, store.get? name = none ∧ error = .undefinedVariable name := by
  cases condition with
  | once fired => cases h
  | compare comparison left right =>
      cases foundLeft : store.resolve left with
      | error first =>
          obtain rfl : first = error := by simpa [holds, foundLeft, bind, Except.bind] using h
          rcases Store.resolve_eq_error foundLeft with ⟨name, mem, missing⟩
          exact ⟨name, List.mem_append_left _ mem, missing⟩
      | ok leftValue =>
          cases foundRight : store.resolve right with
          | error second =>
              obtain rfl : second = error := by simpa [holds, foundLeft, foundRight, bind, Except.bind] using h
              rcases Store.resolve_eq_error foundRight with ⟨name, mem, missing⟩
              exact ⟨name, List.mem_append_right _ mem, missing⟩
          | ok rightValue => simp [holds, foundLeft, foundRight, bind, Except.bind, pure, Except.pure] at h

/-- A variable that has a value keeps having one. -/
theorem Operation.isSome_apply (h : op.apply store = .ok changed) (present : (store.get? name).isSome) :
    (changed.get? name).isSome := by
  rcases apply_cases h with ⟨target, _, rfl⟩ | ⟨target, value, _, _, rfl⟩ | ⟨target, value, _, _, rfl⟩
  all_goals
    rw [Store.get?_set]
    split
    · rfl
    · exact present

end

/-! ## Steps -/

/-- All that can go wrong at a node: a value is missing, or the node is reserved arithmetic. -/
theorem Point.Fails.cases {store : Store} {point : Point} {error : RuntimeError} (h : point.Fails store error) :
    (∃ name ∈ point.node.reads, store.get? name = none ∧ error = .undefinedVariable name) ∨
      ∃ line kind target operand, point.node = .operation line (.arithmetic kind target operand) ∧
        error = .notImplemented kind := by
  cases h with
  | @operation _ _ _ line op _ result =>
      rcases Operation.apply_eq_error result with missing | ⟨kind, target, operand, rfl, same⟩
      · exact .inl missing
      · exact .inr ⟨line, kind, target, operand, rfl, same⟩
  | loop result => exact .inl (Condition.holds_eq_error result)
end CounterLang
