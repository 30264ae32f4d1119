import Acceptor.Proofs.Description.Occurrences
/-!
Which violation is reported of a description that breaks several rules. The rules have an order, and
so have the places where one rule can be broken; the report is on the first break in that order. A
symbol that repeats itself is reported with the group in which it stood first.
-/
namespace Acceptor.Description

open Fallible

inductive GroupViolation (states : Nat) (before : List Group) (group : Group) : Violation → Prop where
  | incomplete (different : group.outputs.length ≠ states) :
    GroupViolation states before group
      (.incompleteTransition (before.length + 1) group.outputs.length states)
  | output {earlier later : List State} {found : State}
    (complete : group.outputs.length = states)
    (listed : group.outputs = earlier ++ found :: later)
    (within : ∀ state ∈ earlier, state.Within states) (outside : ¬found.Within states) :
    GroupViolation states before group (.invalidOutputState (before.length + 1) found states)
  | symbol {earlier later : Text} {repeated : Char} {first : Nat}
    (complete : group.outputs.length = states)
    (within : ∀ state ∈ group.outputs, state.Within states)
    (listed : group.symbols = earlier ++ repeated :: later)
    (distinct : (before.flatMap Group.symbols ++ earlier).Nodup)
    (declared : repeated ∈ before.flatMap Group.symbols ++ earlier)
    (holder : firstHolder? (before ++ [group]) repeated = some first) :
    GroupViolation states before group
      (.nonDeterministicSymbol repeated first (before.length + 1))

/-- The first rule that a description breaks. Each case says that the rules before it are kept. -/
inductive FirstViolation (description : Description) : Violation → Prop where
  | stateCountMissing (missing : description.stateCount = none) :
    FirstViolation description .missingStateCount
  | stateCount {found : Int} (declared : description.stateCount = some found)
    (outside : ¬(1 ≤ found ∧ found ≤ maxStates)) :
    FirstViolation description (.invalidStateCount found)
  | start {states : Nat} (counted : description.Counted states)
    (outside : ∀ start, description.start = some start → ¬start.Within states) :
    FirstViolation description (.invalidStartState description.start states)
  | accepting {states : Nat} {start : State} {earlier later : List State} {found : State}
    (counted : description.Counted states) (started : description.Started states start)
    (listed : description.accepting = earlier ++ found :: later)
    (within : ∀ state ∈ earlier, state.Within states) (outside : ¬found.Within states) :
    FirstViolation description (.invalidAcceptState found states)
  | group {states : Nat} {start : State} {before after : List Group} {group : Group}
    {violation : Violation}
    (counted : description.Counted states) (started : description.Started states start)
    (within : ∀ state ∈ description.accepting, state.Within states)
    (listed : description.groups = before ++ group :: after) (fit : GroupsFit states before)
    (broken : GroupViolation states before group violation) :
    FirstViolation description violation

theorem checkStateCount_eq_error_iff {declared : Option Int} {violation : Violation} :
    checkStateCount declared = .error violation ↔
      (declared = none ∧ violation = .missingStateCount) ∨
        ∃ found, declared = some found ∧ ¬(1 ≤ found ∧ found ≤ maxStates) ∧
          violation = .invalidStateCount found := by
  cases declared with
  | none => simp [checkStateCount, eq_comm]
  | some found =>
    by_cases inside : 1 ≤ found ∧ found ≤ maxStates
    · simp only [checkStateCount, if_pos inside, reduceCtorEq, false_iff]
      intro refused
      rcases refused with ⟨missing, _⟩ | ⟨other, declared, outside, _⟩
      · cases missing
      · rw [Option.some.inj declared] at inside
        exact outside inside
    · simp only [checkStateCount, if_neg inside, Except.error.injEq]
      constructor
      · intro same
        exact .inr ⟨found, rfl, inside, same.symm⟩
      · intro refused
        rcases refused with ⟨missing, _⟩ | ⟨other, declared, _, same⟩
        · cases missing
        · rw [same, Option.some.inj declared]

theorem checkStart_eq_error_iff {states : Nat} {declared : Option State} {violation : Violation} :
    checkStart states declared = .error violation ↔
      (∀ start, declared = some start → ¬start.Within states) ∧
        violation = .invalidStartState declared states := by
  cases declared with
  | none => simp [checkStart, eq_comm]
  | some start =>
    by_cases within : start.Within states
    · simp [checkStart, within]
    · simp [checkStart, within, eq_comm]

theorem checkWithin_eq_error_iff {states : Nat} {complaint : State → Violation}
    {listed : List State} {violation : Violation} :
    checkWithin states complaint listed = .error violation ↔
      ∃ earlier found later, listed = earlier ++ found :: later ∧
        (∀ state ∈ earlier, state.Within states) ∧ ¬found.Within states ∧
        violation = complaint found := by
  cases first : listed.find? (¬ ·.Within states) with
  | none =>
    simp only [checkWithin, first, reduceCtorEq, false_iff]
    intro refused
    obtain ⟨earlier, found, later, rfl, _, outside, _⟩ := refused
    have within := List.find?_eq_none.mp first found (by simp)
    exact within (by simpa using outside)
  | some found =>
    simp only [checkWithin, first, Except.error.injEq]
    constructor
    · intro complained
      obtain ⟨outside, earlier, later, same, within⟩ := List.find?_eq_some_iff_append.mp first
      exact ⟨earlier, found, later, same, by simpa using within, by simpa using outside,
        complained.symm⟩
    · intro refused
      obtain ⟨earlier, other, later, same, within, outside, rfl⟩ := refused
      have again : listed.find? (¬ ·.Within states) = some other :=
        List.find?_eq_some_iff_append.mpr
          ⟨by simpa using outside, earlier, later, same, by simpa using within⟩
      rw [first] at again
      rw [Option.some.inj again]

theorem checkSymbols_eq_error_iff {number : Nat} {declared : Declared} {text : Text}
    {violation : Violation} :
    checkSymbols number declared text = .error violation ↔
      ∃ earlier repeated later middle first, text = earlier ++ repeated :: later ∧
        checkSymbols number declared earlier = .ok middle ∧
        middle.lookup repeated = some first ∧
        violation = .nonDeterministicSymbol repeated first number := by
  induction text generalizing declared with
  | nil => simp [checkSymbols]
  | cons symbol rest ih =>
    cases found : declared.lookup symbol with
    | some first =>
      rw [checkSymbols_of_declared found, Except.error.injEq]
      constructor
      · intro reported
        exact ⟨[], symbol, rest, declared, first, rfl, rfl, found, reported.symm⟩
      · intro refused
        obtain ⟨earlier, repeated, later, middle, other, same, entered, known, rfl⟩ := refused
        cases earlier with
        | nil =>
          cases same
          cases entered
          rw [Option.some.inj (found.symm.trans known)]
        | cons head earlier =>
          cases same
          rw [checkSymbols_of_declared found] at entered
          cases entered
    | none =>
      rw [checkSymbols_of_fresh found, ih]
      constructor
      · intro refused
        obtain ⟨earlier, repeated, later, middle, first, rfl, entered, known, rfl⟩ := refused
        refine ⟨symbol :: earlier, repeated, later, middle, first, rfl, ?_, known, rfl⟩
        rw [checkSymbols_of_fresh found]
        exact entered
      · intro refused
        obtain ⟨earlier, repeated, later, middle, first, same, entered, known, rfl⟩ := refused
        cases earlier with
        | nil =>
          cases same
          cases entered
          rw [found] at known
          cases known
        | cons head earlier =>
          cases same
          rw [checkSymbols_of_fresh found] at entered
          exact ⟨earlier, repeated, later, middle, first, rfl, entered, known, rfl⟩

theorem checkGroup_eq_error_iff {states number : Nat} {declared : Declared} {group : Group}
    {violation : Violation} :
    checkGroup states number declared group = .error violation ↔
      (group.outputs.length ≠ states ∧
        violation = .incompleteTransition number group.outputs.length states) ∨
      group.outputs.length = states ∧
        (checkWithin states (.invalidOutputState number · states) group.outputs =
            .error violation ∨
          (∀ state ∈ group.outputs, state.Within states) ∧
            checkSymbols number declared group.symbols = .error violation) := by
  unfold checkGroup
  by_cases complete : group.outputs.length = states
  · rw [if_neg (fun different => different complete), bind_eq_error_iff]
    simp only [complete, ne_eq, not_true_eq_false, false_and, false_or, true_and]
    refine or_congr_right ?_
    constructor
    · intro refused
      obtain ⟨_, within, failed⟩ := refused
      exact ⟨checkWithin_eq_ok_iff.mp within, failed⟩
    · intro refused
      obtain ⟨within, failed⟩ := refused
      exact ⟨(), checkWithin_eq_ok_iff.mpr within, failed⟩
  · rw [if_pos complete]
    simp only [Except.error.injEq, ne_eq, complete, not_false_eq_true, true_and, false_and,
      or_false]
    exact eq_comm

/-- Checking groups stops at the first one that does not pass, and by then the symbols of the
groups before it are entered. -/
theorem checkGroups_eq_error_iff {states number : Nat} {declared : Declared}
    {groups : List Group} {violation : Violation} :
    checkGroups states number declared groups = .error violation ↔
      ∃ before group after, groups = before ++ group :: after ∧
        checkGroups states number declared before = .ok () ∧
        checkGroup states (number + before.length)
          ((occurrences number before).reverse ++ declared) group = .error violation := by
  -- Each group leaves its symbols behind and the next number, so the induction is over both.
  induction groups generalizing number declared with
  | nil => simp [checkGroups]
  | cons head groups ih =>
    simp only [checkGroups, bind_eq_error_iff, ih]
    constructor
    · intro refused
      rcases refused with failed | ⟨middle, entered, before, group, after, rfl, passed, failed⟩
      · exact ⟨[], head, groups, rfl, rfl, failed⟩
      · refine ⟨head :: before, group, after, rfl, bind_eq_ok_iff.mpr ⟨middle, entered, passed⟩, ?_⟩
        obtain ⟨_, _, symbols⟩ := checkGroup_eq_ok_iff.mp entered
        obtain ⟨_, _, rfl⟩ := checkSymbols_eq_ok_iff.mp symbols
        rw [← List.append_assoc, ← List.reverse_append, Nat.add_assoc, Nat.add_comm 1] at failed
        exact failed
    · intro refused
      obtain ⟨before, group, after, same, passed, failed⟩ := refused
      cases before with
      | nil =>
        cases same
        exact .inl failed
      | cons first before =>
        cases same
        obtain ⟨middle, entered, passed⟩ := bind_eq_ok_iff.mp passed
        refine .inr ⟨middle, entered, before, group, after, rfl, passed, ?_⟩
        obtain ⟨_, _, symbols⟩ := checkGroup_eq_ok_iff.mp entered
        obtain ⟨_, _, rfl⟩ := checkSymbols_eq_ok_iff.mp symbols
        rw [← List.append_assoc, ← List.reverse_append, Nat.add_assoc, Nat.add_comm 1]
        exact failed

theorem checkGroup_eq_error_iff_groupViolation {states : Nat} {before : List Group}
    {group : Group} {violation : Violation} (distinct : (before.flatMap Group.symbols).Nodup) :
    checkGroup states (before.length + 1) (occurrences 1 before).reverse group =
        .error violation ↔
      GroupViolation states before group violation := by
  rw [checkGroup_eq_error_iff]
  constructor
  · intro refused
    rcases refused with ⟨different, rfl⟩ | ⟨complete, ranging | ⟨within, repetition⟩⟩
    · exact .incomplete different
    · obtain ⟨earlier, found, later, listed, inside, outside, rfl⟩ :=
        checkWithin_eq_error_iff.mp ranging
      exact .output complete listed inside outside
    · obtain ⟨earlier, repeated, later, middle, first, listed, entered, known, rfl⟩ :=
        checkSymbols_eq_error_iff.mp repetition
      obtain ⟨unknown, once, rfl⟩ := checkSymbols_eq_ok_iff.mp entered
      have fresh := (unknown_iff distinct).mp ⟨unknown, once⟩
      rw [lookup_halfway group.outputs repeated fresh] at known
      obtain ⟨declared, holder⟩ := (firstHolder?_halfway listed).mp known
      exact .symbol complete within listed fresh declared holder
  · intro broken
    cases broken with
    | incomplete different => exact .inl ⟨different, rfl⟩
    | output complete listed inside outside =>
      exact .inr ⟨complete, .inl (checkWithin_eq_error_iff.mpr
        ⟨_, _, _, listed, inside, outside, rfl⟩)⟩
    | symbol complete within listed fresh declared holder =>
      obtain ⟨unknown, once⟩ := (unknown_iff distinct).mpr fresh
      have known := (firstHolder?_halfway listed).mpr ⟨declared, holder⟩
      rw [← lookup_halfway group.outputs _ fresh] at known
      exact .inr ⟨complete, .inr ⟨within, checkSymbols_eq_error_iff.mpr
        ⟨_, _, _, _, _, listed, checkSymbols_eq_ok_iff.mpr ⟨unknown, once, rfl⟩, known, rfl⟩⟩⟩

theorem check_eq_error_iff {description : Description} {violation : Violation} :
    description.check = .error violation ↔ FirstViolation description violation := by
  simp only [check, bind_eq_error_iff, checkStateCount_eq_ok_iff, checkStart_eq_ok_iff]
  constructor
  · intro refused
    rcases refused with counting | ⟨states, counted, starting | ⟨start, started, accepting |
      ⟨_, within, grouping | ⟨_, _, finished⟩⟩⟩⟩
    · rcases checkStateCount_eq_error_iff.mp counting with ⟨missing, rfl⟩ |
        ⟨found, declared, outside, rfl⟩
      · exact .stateCountMissing missing
      · exact .stateCount declared outside
    · obtain ⟨outside, rfl⟩ := checkStart_eq_error_iff.mp starting
      exact .start counted outside
    · obtain ⟨earlier, found, later, listed, inside, outside, rfl⟩ :=
        checkWithin_eq_error_iff.mp accepting
      exact .accepting counted started listed inside outside
    · obtain ⟨before, group, after, listed, passed, failed⟩ :=
        checkGroups_eq_error_iff.mp grouping
      have fit := (checkGroups_eq_ok_iff.mp passed).1
      rw [List.append_nil, Nat.add_comm 1] at failed
      exact .group counted started (checkWithin_eq_ok_iff.mp within) listed fit
        ((checkGroup_eq_error_iff_groupViolation fit.distinct).mp failed)
    · cases finished
  · intro broken
    cases broken with
    | stateCountMissing missing =>
      exact .inl (checkStateCount_eq_error_iff.mpr (.inl ⟨missing, rfl⟩))
    | stateCount declared outside =>
      exact .inl (checkStateCount_eq_error_iff.mpr (.inr ⟨_, declared, outside, rfl⟩))
    | start counted outside =>
      exact .inr ⟨_, counted, .inl (checkStart_eq_error_iff.mpr ⟨outside, rfl⟩)⟩
    | accepting counted started listed inside outside =>
      exact .inr ⟨_, counted, .inr ⟨_, started, .inl (checkWithin_eq_error_iff.mpr
        ⟨_, _, _, listed, inside, outside, rfl⟩)⟩⟩
    | @group states _ before _ _ _ counted started within listed fit broken =>
      have passed : checkGroups states 1 [] before = .ok () :=
        checkGroups_eq_ok_iff.mpr ⟨fit, fun _ _ => List.lookup_nil⟩
      have failed := (checkGroup_eq_error_iff_groupViolation fit.distinct).mpr broken
      refine .inr ⟨_, counted, .inr ⟨_, started, .inr ⟨(), checkWithin_eq_ok_iff.mpr within,
        .inl (checkGroups_eq_error_iff.mpr ⟨_, _, _, listed, passed, ?_⟩)⟩⟩⟩
      rw [List.append_nil, Nat.add_comm 1]
      exact failed

/-- The group named in the report on a repeated symbol, next to the one under check. -/
theorem holder_of_firstViolation {description : Description} {repeated : Char} {first number : Nat}
    (broken : FirstViolation description (.nonDeterministicSymbol repeated first number)) :
    firstHolder? description.groups repeated = some first ∧ 1 ≤ first ∧ first ≤ number ∧
      (first = number ↔
        ∀ earlier ∈ description.groups.take (number - 1), repeated ∉ earlier.symbols) := by
  cases broken with
  | @group _ _ before after group _ _ _ _ listed _ broken =>
    cases broken with
    | @symbol earlier later _ _ _ _ symbols _ _ holder =>
      have held : repeated ∈ group.symbols := by simp [symbols]
      have whole : firstHolder? description.groups repeated = some first := by
        rw [listed, ← List.singleton_append, ← List.append_assoc, firstHolder?_append, holder,
          Option.some_or]
      have bounds := firstHolder?_le holder
      rw [List.length_append, List.length_singleton] at bounds
      have prior : description.groups.take (before.length + 1 - 1) = before := by
        simp [listed]
      rw [prior]
      exact ⟨whole, bounds.1, bounds.2, firstHolder?_eq_last_iff held holder⟩

/-- A description is refused exactly if it is not well-formed, and then for the first rule in order
that it breaks. Of a repeated symbol the report names the group that holds it first, which is the
group under check only if no group before it holds the symbol. -/
theorem check_reports_first (description : Description) :
    ((∃ violation, description.check = .error violation) ↔
        ¬∃ states start, description.WellFormed states start) ∧
      (∀ violation,
        description.check = .error violation ↔ FirstViolation description violation) ∧
      ∀ repeated first group,
        description.check = .error (.nonDeterministicSymbol repeated first group) →
          firstHolder? description.groups repeated = some first ∧ 1 ≤ first ∧ first ≤ group ∧
            (first = group ↔
              ∀ earlier ∈ description.groups.take (group - 1), repeated ∉ earlier.symbols) := by
  refine ⟨?_, fun violation => check_eq_error_iff, ?_⟩
  · rw [exists_error_iff, exists_check_eq_ok_iff]
  · intro repeated first number refused
    exact holder_of_firstViolation (check_eq_error_iff.mp refused)

/-- Two letters repeat themselves in the second group, one of them within it. -/
theorem check_reports_first_of_two :
    let description : Description :=
      ⟨some 1, some ⟨1⟩, [], [⟨['a'], [⟨1⟩]⟩, ⟨['b', 'b', 'a'], [⟨1⟩]⟩]⟩
    description.check = .error (.nonDeterministicSymbol 'b' 2 2) ∧
      firstHolder? description.groups 'b' = some 2 ∧ (1 ≤ 2 ∧ 2 ≤ 2) ∧
      ∀ earlier ∈ description.groups.take 1, 'b' ∉ earlier.symbols := by
  intro description
  have refused : description.check = .error (.nonDeterministicSymbol 'b' 2 2) := rfl
  obtain ⟨holder, low, high, alone⟩ := (check_reports_first description).2.2 'b' 2 2 refused
  exact ⟨refused, holder, ⟨low, high⟩, alone.mp rfl⟩

end Acceptor.Description
