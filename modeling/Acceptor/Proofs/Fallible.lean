/-!
Steps that may fail, taken one after the other. A sequence succeeds when all its steps do, and it
fails as the first step that fails.
-/
namespace Acceptor.Fallible

variable {ε α β : Type}

theorem bind_eq_ok_iff {first : Except ε α} {next : α → Except ε β} {result : β} :
    (first >>= next) = .ok result ↔ ∃ value, first = .ok value ∧ next value = .ok result := by
  cases first with
  | ok value => simp [bind, Except.bind]
  | error failure => simp [bind, Except.bind]

theorem bind_eq_error_iff {first : Except ε α} {next : α → Except ε β} {failure : ε} :
    (first >>= next) = .error failure ↔
      first = .error failure ∨ ∃ value, first = .ok value ∧ next value = .error failure := by
  cases first with
  | ok value => simp [bind, Except.bind]
  | error other => simp [bind, Except.bind]

theorem mapError_eq_ok_iff {ε' : Type} {change : ε → ε'} {outcome : Except ε α} {value : α} :
    outcome.mapError change = .ok value ↔ outcome = .ok value := by
  cases outcome with
  | ok other =>
    change Except.ok other = Except.ok value ↔ Except.ok other = Except.ok value
    rw [Except.ok.injEq, Except.ok.injEq]
  | error failure =>
    change Except.error (change failure) = Except.ok value ↔ _
    simp only [reduceCtorEq]

theorem mapError_eq_error_iff {ε' : Type} {change : ε → ε'} {outcome : Except ε α} {failure : ε'} :
    outcome.mapError change = .error failure ↔
      ∃ cause, outcome = .error cause ∧ failure = change cause := by
  cases outcome with
  | ok value =>
    change Except.ok value = Except.error failure ↔ _
    simp
  | error cause =>
    change Except.error (change cause) = Except.error failure ↔ _
    simp [eq_comm]

theorem guard_eq_ok_iff {condition : Prop} [Decidable condition] {value result : α} {failure : ε} :
    (if condition then .ok value else .error failure) = Except.ok result ↔
      condition ∧ result = value := by
  split
  next holds => simp [holds, eq_comm]
  next fails => simp [fails]

theorem refusal_eq_ok_iff {condition : Prop} [Decidable condition] {failure : ε}
    {next : Except ε α} {result : α} :
    (if condition then .error failure else next) = .ok result ↔
      ¬ condition ∧ next = .ok result := by
  split
  next holds => simp [holds]
  next fails => simp [fails]

theorem exists_error_iff {outcome : Except ε α} :
    (∃ failure, outcome = .error failure) ↔ ¬ ∃ value, outcome = .ok value := by
  cases outcome with
  | ok value => simp
  | error failure => simp

theorem foldlM_cons_of_ok {step : β → α → Except ε β} {item : α} {state next : β}
    (taken : step state item = .ok next) (rest : List α) :
    (item :: rest).foldlM step state = rest.foldlM step next := by
  rw [List.foldlM_cons, taken]
  rfl

theorem foldlM_append_of_ok {step : β → α → Except ε β} {items : List α} {state next : β}
    (taken : items.foldlM step state = .ok next) (rest : List α) :
    (items ++ rest).foldlM step state = rest.foldlM step next := by
  rw [List.foldlM_append, taken]
  rfl

theorem mapM_eq_some_map {step : α → Option β} {result : α → β} {list : List α}
    (succeeds : ∀ item ∈ list, step item = some (result item)) :
    list.mapM step = some (list.map result) := by
  induction list with
  | nil => rfl
  | cons item rest ih =>
    obtain ⟨here, later⟩ := List.forall_mem_cons.mp succeeds
    rw [List.mapM_cons, here, ih later]
    rfl

/-- Where each member of a list is got back from what was made of it, so is the list. -/
theorem mapM_map_eq_some {make : α → β} {step : β → Option α} {list : List α}
    (back : ∀ item ∈ list, step (make item) = some item) :
    (list.map make).mapM step = some list := by
  have each := @mapM_eq_some_map α α (step ∘ make) id list back
  rw [List.map_id] at each
  rw [List.mapM_map]
  exact each

theorem mapM_congr {step step' : α → Option β} {list : List α}
    (same : ∀ item ∈ list, step item = step' item) : list.mapM step = list.mapM step' := by
  induction list with
  | nil => rfl
  | cons item rest ih =>
    obtain ⟨here, later⟩ := List.forall_mem_cons.mp same
    rw [List.mapM_cons, List.mapM_cons, here, ih later]

theorem mapM_eq_none {step : α → Option β} {list : List α} {item : α} (member : item ∈ list)
    (fails : step item = none) : list.mapM step = none := by
  induction list with
  | nil => cases member
  | cons first rest ih =>
    rw [List.mapM_cons]
    rcases List.mem_cons.mp member with rfl | later
    · rw [fails]
      rfl
    · rw [ih later]
      cases step first with
      | none => rfl
      | some result => rfl

end Acceptor.Fallible
