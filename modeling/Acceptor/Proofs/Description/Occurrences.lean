import Acceptor.Proofs.Description.WellFormed
/-!
Where symbols stand in a list of groups: the group that holds a symbol first, and what the check
has entered of the groups that it has gone through.
-/
namespace Acceptor.Description

def firstHolder? (groups : List Group) (symbol : Char) : Option Nat :=
  (groups.findIdx? (·.symbols.contains symbol)).map (· + 1)

theorem firstHolder?_eq_none_iff {groups : List Group} {symbol : Char} :
    firstHolder? groups symbol = none ↔ symbol ∉ groups.flatMap Group.symbols := by
  simp [firstHolder?, List.findIdx?_eq_none_iff]

theorem firstHolder?_append (before after : List Group) (symbol : Char) :
    firstHolder? (before ++ after) symbol =
      (firstHolder? before symbol).or
        ((firstHolder? after symbol).map (· + before.length)) := by
  simp only [firstHolder?, List.findIdx?_append, Option.map_or, Option.map_map]
  congr 2
  funext place
  simp only [Function.comp_apply]
  omega

theorem firstHolder?_singleton (group : Group) (symbol : Char) :
    firstHolder? [group] symbol = if symbol ∈ group.symbols then some 1 else none := by
  by_cases held : symbol ∈ group.symbols
  · simp [firstHolder?, held]
  · simp [firstHolder?, held]

theorem firstHolder?_le {groups : List Group} {symbol : Char} {first : Nat}
    (holder : firstHolder? groups symbol = some first) : 1 ≤ first ∧ first ≤ groups.length := by
  obtain ⟨place, found, rfl⟩ := Option.map_eq_some_iff.mp holder
  obtain ⟨bound, _⟩ := List.findIdx?_eq_some_iff_getElem.mp found
  omega

theorem firstHolder?_eq_last_iff {before : List Group} {group : Group} {symbol : Char}
    {first : Nat} (held : symbol ∈ group.symbols)
    (holder : firstHolder? (before ++ [group]) symbol = some first) :
    first = before.length + 1 ↔ ∀ earlier ∈ before, symbol ∉ earlier.symbols := by
  have absent_iff : (∀ earlier ∈ before, symbol ∉ earlier.symbols) ↔
      firstHolder? before symbol = none := by
    rw [firstHolder?_eq_none_iff]
    simp
  rw [firstHolder?_append, firstHolder?_singleton, if_pos held] at holder
  rw [absent_iff]
  cases known : firstHolder? before symbol with
  | some place =>
    rw [known, Option.some_or, Option.some.injEq] at holder
    have bound := (firstHolder?_le known).2
    simp only [reduceCtorEq, iff_false]
    omega
  | none =>
    rw [known, Option.none_or, Option.map_some, Option.some.injEq] at holder
    simp only [iff_true]
    omega

/-- Half-way through a group, a symbol is known if it stood before, and its first holder is then the
one it has when the group is read to its end. -/
theorem firstHolder?_halfway {before : List Group} {group : Group} {earlier later : Text}
    {symbol : Char} {first : Nat} (listed : group.symbols = earlier ++ later) :
    firstHolder? (before ++ [⟨earlier, group.outputs⟩]) symbol = some first ↔
      symbol ∈ before.flatMap Group.symbols ++ earlier ∧
        firstHolder? (before ++ [group]) symbol = some first := by
  simp only [firstHolder?_append, firstHolder?_singleton, List.mem_append, listed]
  cases known : firstHolder? before symbol with
  | some place =>
    have held : symbol ∈ before.flatMap Group.symbols := by
      by_cases held : symbol ∈ before.flatMap Group.symbols
      · exact held
      · rw [firstHolder?_eq_none_iff.mpr held] at known
        cases known
    simp only [held, true_or, true_and, Option.some_or]
  | none =>
    have absent := firstHolder?_eq_none_iff.mp known
    by_cases here : symbol ∈ earlier
    · simp only [here, or_true, true_or, true_and]
    · simp [here, absent]

def occurrences (number : Nat) : List Group → Declared
  | [] => []
  | group :: groups => group.symbols.map (·, number) ++ occurrences (number + 1) groups

theorem occurrences_append (number : Nat) (before after : List Group) :
    occurrences number (before ++ after) =
      occurrences number before ++ occurrences (number + before.length) after := by
  induction before generalizing number with
  | nil => rfl
  | cons group before ih =>
    simp only [List.cons_append, occurrences, ih, List.append_assoc, List.length_cons]
    rw [Nat.add_assoc, Nat.add_comm 1]

/-- Where no symbol repeats itself, looking one up among those entered, the last one in front,
finds the group that holds it first. -/
theorem lookup_occurrences (number : Nat) {groups : List Group} (symbol : Char)
    (distinct : (groups.flatMap Group.symbols).Nodup) :
    (occurrences (number + 1) groups).reverse.lookup symbol =
      (firstHolder? groups symbol).map (· + number) := by
  induction groups generalizing number with
  | nil => rfl
  | cons group groups ih =>
    rw [List.flatMap_cons, List.nodup_append] at distinct
    obtain ⟨_, others, apart⟩ := distinct
    have cons : group :: groups = [group] ++ groups := rfl
    rw [cons, firstHolder?_append, firstHolder?_singleton, ← cons, occurrences,
      List.reverse_append, List.lookup_append, ih _ others, lookup_entered]
    by_cases held : symbol ∈ group.symbols
    · have absent : firstHolder? groups symbol = none := by
        rw [firstHolder?_eq_none_iff]
        intro later
        exact apart symbol held symbol later rfl
      simp [held, absent, Nat.add_comm]
    · simp only [held, if_false, Option.or_none, Option.none_or, Option.map_map]
      congr 1
      funext place
      simp only [Function.comp_apply, List.length_singleton]
      omega

theorem lookup_halfway {before : List Group} {earlier : Text} (outputs : List State)
    (symbol : Char) (distinct : (before.flatMap Group.symbols ++ earlier).Nodup) :
    ((earlier.map (·, before.length + 1)).reverse ++ (occurrences 1 before).reverse).lookup symbol =
      firstHolder? (before ++ [⟨earlier, outputs⟩]) symbol := by
  have joined : ((before ++ [(⟨earlier, outputs⟩ : Group)]).flatMap Group.symbols).Nodup := by
    simpa using distinct
  calc
    ((earlier.map (·, before.length + 1)).reverse ++ (occurrences 1 before).reverse).lookup symbol =
        (occurrences 1 (before ++ [⟨earlier, outputs⟩])).reverse.lookup symbol := by
      simp only [occurrences_append, occurrences, List.append_nil, List.reverse_append,
        Nat.add_comm 1]
    _ = (firstHolder? (before ++ [⟨earlier, outputs⟩]) symbol).map (· + 0) :=
      lookup_occurrences 0 symbol joined
    _ = firstHolder? (before ++ [⟨earlier, outputs⟩]) symbol := by
      simp only [Nat.add_zero, Option.map_id']

/-- No symbol of a text is known yet if the text only continues what was entered before. -/
theorem unknown_iff {before : List Group} {earlier : Text}
    (distinct : (before.flatMap Group.symbols).Nodup) :
    ((∀ symbol ∈ earlier, (occurrences 1 before).reverse.lookup symbol = none) ∧ earlier.Nodup) ↔
      (before.flatMap Group.symbols ++ earlier).Nodup := by
  have unknown (symbol : Char) : (occurrences 1 before).reverse.lookup symbol = none ↔
      symbol ∉ before.flatMap Group.symbols := by
    rw [lookup_occurrences 0 symbol distinct, Option.map_eq_none_iff,
      firstHolder?_eq_none_iff]
  simp only [unknown, List.nodup_append]
  constructor
  · intro fresh
    obtain ⟨apart, once⟩ := fresh
    refine ⟨distinct, once, ?_⟩
    intro symbol held other here same
    rw [same] at held
    exact apart other here held
  · intro joined
    obtain ⟨_, once, apart⟩ := joined
    refine ⟨?_, once⟩
    intro symbol here held
    exact apart symbol held symbol here rfl

end Acceptor.Description
