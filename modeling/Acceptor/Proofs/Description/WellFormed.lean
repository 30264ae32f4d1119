import Acceptor.Description.Check
import Acceptor.Proofs.Fallible
import Acceptor.Proofs.Lookup
/-!
Which descriptions pass the check. Every part of the check has one statement on its success, and
together they say that the well-formed descriptions pass, and only they, with everything kept as it
was declared.
-/
namespace Acceptor.Description

open Fallible

def Counted (description : Description) (states : Nat) : Prop :=
  description.stateCount = some (states : Int) ∧ 1 ≤ states ∧ states ≤ maxStates

def Started (description : Description) (states : Nat) (start : State) : Prop :=
  description.start = some start ∧ start.Within states

structure GroupsFit (states : Nat) (groups : List Group) : Prop where
  complete : ∀ group ∈ groups, group.outputs.length = states
  within : ∀ group ∈ groups, ∀ state ∈ group.outputs, state.Within states
  distinct : (groups.flatMap Group.symbols).Nodup

theorem groupsFit_nil (states : Nat) : GroupsFit states [] := ⟨by simp, by simp, by simp⟩

theorem groupsFit_cons {states : Nat} {group : Group} {groups : List Group} :
    GroupsFit states (group :: groups) ↔
      group.outputs.length = states ∧ (∀ state ∈ group.outputs, state.Within states) ∧
        group.symbols.Nodup ∧
        (∀ symbol ∈ groups.flatMap Group.symbols, symbol ∉ group.symbols) ∧
        GroupsFit states groups := by
  constructor
  · intro fit
    have distinct := fit.distinct
    rw [List.flatMap_cons, List.nodup_append] at distinct
    obtain ⟨once, others, apart⟩ := distinct
    obtain ⟨complete, restComplete⟩ := List.forall_mem_cons.mp fit.complete
    obtain ⟨within, restWithin⟩ := List.forall_mem_cons.mp fit.within
    refine ⟨complete, within, once, ?_, restComplete, restWithin, others⟩
    intro symbol later here
    exact apart symbol here symbol later rfl
  · intro fits
    obtain ⟨complete, within, once, apart, fit⟩ := fits
    refine ⟨?_, ?_, ?_⟩
    · exact List.forall_mem_cons.mpr ⟨complete, fit.complete⟩
    · exact List.forall_mem_cons.mpr ⟨within, fit.within⟩
    · rw [List.flatMap_cons, List.nodup_append]
      refine ⟨once, fit.distinct, ?_⟩
      intro symbol here other later same
      exact apart other later (same ▸ here)

theorem wellFormed_iff {description : Description} {states : Nat} {start : State} :
    description.WellFormed states start ↔
      description.Counted states ∧ description.Started states start ∧
        (∀ state ∈ description.accepting, state.Within states) ∧
        GroupsFit states description.groups := by
  constructor
  · intro formed
    exact ⟨⟨formed.countDeclared, formed.countPositive, formed.countBounded⟩,
      ⟨formed.startDeclared, formed.startWithin⟩, formed.acceptingWithin,
      ⟨formed.outputsComplete, formed.outputsWithin, formed.symbolsDistinct⟩⟩
  · intro parts
    obtain ⟨⟨declared, positive, bounded⟩, ⟨started, startWithin⟩, accepting, fit⟩ := parts
    exact ⟨declared, positive, bounded, started, startWithin, accepting, fit.complete, fit.within,
      fit.distinct⟩

theorem checkStateCount_eq_ok_iff {declared : Option Int} {states : Nat} :
    checkStateCount declared = .ok states ↔
      declared = some (states : Int) ∧ 1 ≤ states ∧ states ≤ maxStates := by
  cases declared with
  | none => simp [checkStateCount]
  | some found =>
    by_cases inside : 1 ≤ found ∧ found ≤ maxStates
    · simp only [checkStateCount, if_pos inside, Except.ok.injEq, Option.some.injEq]
      omega
    · simp only [checkStateCount, if_neg inside, reduceCtorEq, false_iff, Option.some.injEq]
      omega

theorem checkStart_eq_ok_iff {states : Nat} {declared : Option State} {start : State} :
    checkStart states declared = .ok start ↔ declared = some start ∧ start.Within states := by
  cases declared with
  | none => simp [checkStart]
  | some found =>
    by_cases within : found.Within states
    · simp only [checkStart, if_pos within, Except.ok.injEq, Option.some.injEq]
      constructor
      · intro same
        subst same
        exact ⟨rfl, within⟩
      · exact And.left
    · simp only [checkStart, if_neg within, reduceCtorEq, false_iff, Option.some.injEq]
      intro started
      obtain ⟨rfl, inside⟩ := started
      exact within inside

theorem checkWithin_eq_ok_iff {states : Nat} {complaint : State → Violation}
    {listed : List State} :
    checkWithin states complaint listed = .ok () ↔ ∀ state ∈ listed, state.Within states := by
  constructor
  · intro passed
    cases first : listed.find? (¬ ·.Within states) with
    | none => simpa using first
    | some found => simp only [checkWithin, first, reduceCtorEq] at passed
  · exact checkWithin_of_all

theorem lookup_entered (number : Nat) (text : Text) (symbol : Char) :
    (text.map (·, number)).reverse.lookup symbol = if symbol ∈ text then some number else none := by
  rw [← List.map_reverse, Lookup.lookup_map_const]
  simp only [List.mem_reverse]

theorem checkSymbols_eq_ok_iff {number : Nat} {declared final : Declared} {text : Text} :
    checkSymbols number declared text = .ok final ↔
      (∀ symbol ∈ text, declared.lookup symbol = none) ∧ text.Nodup ∧
        final = (text.map (·, number)).reverse ++ declared := by
  induction text generalizing declared with
  | nil =>
    simp only [checkSymbols, Except.ok.injEq, List.map_nil, List.reverse_nil, List.nil_append]
    constructor
    · intro same
      exact ⟨by simp, List.nodup_nil, same.symm⟩
    · intro entered
      exact entered.2.2.symm
  | cons symbol rest ih =>
    cases found : declared.lookup symbol with
    | some first =>
      rw [checkSymbols_of_declared found]
      simp only [reduceCtorEq, List.forall_mem_cons, found, false_and]
    | none =>
      rw [checkSymbols_of_fresh found, ih]
      -- The symbol just entered is known to the rest of the text, which is why none comes twice.
      have fresh (other : Char) : ((symbol, number) :: declared).lookup other = none ↔
          other ≠ symbol ∧ declared.lookup other = none := by
        rw [List.lookup_cons]
        by_cases same : other = symbol
        · simp [same]
        · rw [beq_false_of_ne same]
          simp only [ne_eq, same, not_false_eq_true, true_and]
      simp only [fresh, List.forall_mem_cons, found, true_and, List.nodup_cons, List.map_cons,
        List.reverse_cons, List.append_assoc, List.singleton_append]
      constructor
      · intro entered
        obtain ⟨apart, once, rfl⟩ := entered
        have unknown : ∀ other ∈ rest, declared.lookup other = none := by
          intro other later
          exact (apart other later).2
        have absent : symbol ∉ rest := by
          intro later
          exact (apart symbol later).1 rfl
        exact ⟨unknown, ⟨absent, once⟩, rfl⟩
      · intro entered
        obtain ⟨unknown, ⟨absent, once⟩, rfl⟩ := entered
        refine ⟨?_, once, rfl⟩
        intro other later
        have different : other ≠ symbol := by
          intro same
          rw [same] at later
          exact absent later
        exact ⟨different, unknown other later⟩

theorem checkGroup_eq_ok_iff {states number : Nat} {declared final : Declared} {group : Group} :
    checkGroup states number declared group = .ok final ↔
      group.outputs.length = states ∧ (∀ state ∈ group.outputs, state.Within states) ∧
        checkSymbols number declared group.symbols = .ok final := by
  unfold checkGroup
  by_cases complete : group.outputs.length = states
  · rw [if_neg (fun different => different complete), bind_eq_ok_iff]
    constructor
    · intro passed
      obtain ⟨_, within, entered⟩ := passed
      exact ⟨complete, checkWithin_eq_ok_iff.mp within, entered⟩
    · intro fits
      obtain ⟨_, within, entered⟩ := fits
      exact ⟨(), checkWithin_eq_ok_iff.mpr within, entered⟩
  · rw [if_pos complete]
    simp only [reduceCtorEq, complete, false_and]

theorem checkGroups_eq_ok_iff {states number : Nat} {declared : Declared} {groups : List Group} :
    checkGroups states number declared groups = .ok () ↔
      GroupsFit states groups ∧
        ∀ symbol ∈ groups.flatMap Group.symbols, declared.lookup symbol = none := by
  induction groups generalizing number declared with
  | nil => simp [checkGroups, groupsFit_nil]
  | cons group groups ih =>
    -- What the group enters is unknown to the groups after it exactly if the two share no symbol.
    have entered (symbol : Char) :
        ((group.symbols.map (·, number)).reverse ++ declared).lookup symbol = none ↔
          symbol ∉ group.symbols ∧ declared.lookup symbol = none := by
      rw [List.lookup_append, Option.or_eq_none_iff, lookup_entered]
      simp only [ite_eq_right_iff, reduceCtorEq, imp_false]
    simp only [checkGroups, bind_eq_ok_iff, checkGroup_eq_ok_iff, checkSymbols_eq_ok_iff, ih,
      groupsFit_cons, List.flatMap_cons, List.forall_mem_append]
    constructor
    · intro passed
      obtain ⟨_, ⟨complete, within, unknown, once, rfl⟩, fit, later⟩ := passed
      simp only [entered] at later
      have apart : ∀ symbol ∈ groups.flatMap Group.symbols, symbol ∉ group.symbols := by
        intro symbol member
        exact (later symbol member).1
      have others : ∀ symbol ∈ groups.flatMap Group.symbols, declared.lookup symbol = none := by
        intro symbol member
        exact (later symbol member).2
      exact ⟨⟨complete, within, once, apart, fit⟩, unknown, others⟩
    · intro fits
      obtain ⟨⟨complete, within, once, apart, fit⟩, unknown, later⟩ := fits
      refine ⟨_, ⟨complete, within, unknown, once, rfl⟩, fit, ?_⟩
      intro symbol member
      exact (entered symbol).mpr ⟨apart symbol member, later symbol member⟩

theorem check_eq_ok_iff {description : Description} {automaton : Validated} :
    description.check = .ok automaton ↔
      description.WellFormed automaton.stateCount automaton.start ∧
        automaton.accepting = description.accepting ∧ automaton.groups = description.groups := by
  simp only [check, bind_eq_ok_iff, checkStateCount_eq_ok_iff, checkStart_eq_ok_iff,
    wellFormed_iff, Counted, Started]
  constructor
  · intro passed
    obtain ⟨states, counted, start, started, _, accepting, _, grouped, built⟩ := passed
    have within := checkWithin_eq_ok_iff.mp accepting
    have fit := (checkGroups_eq_ok_iff.mp grouped).1
    cases built
    exact ⟨⟨counted, started, within, fit⟩, rfl, rfl⟩
  · obtain ⟨states, start, accepting, groups⟩ := automaton
    intro fits
    obtain ⟨⟨counted, started, accepting, fit⟩, rfl, rfl⟩ := fits
    have listed : checkWithin states (.invalidAcceptState · states) description.accepting = .ok () :=
      checkWithin_eq_ok_iff.mpr accepting
    have grouped : checkGroups states 1 [] description.groups = .ok () :=
      checkGroups_eq_ok_iff.mpr ⟨fit, fun _ _ => List.lookup_nil⟩
    exact ⟨states, counted, start, started, (), listed, (), grouped, rfl⟩

theorem exists_check_eq_ok_iff {description : Description} :
    (∃ automaton, description.check = .ok automaton) ↔
      ∃ states start, description.WellFormed states start := by
  constructor
  · intro accepted
    obtain ⟨automaton, passed⟩ := accepted
    exact ⟨automaton.stateCount, automaton.start, (check_eq_ok_iff.mp passed).1⟩
  · intro declared
    obtain ⟨states, start, formed⟩ := declared
    exact ⟨⟨states, start, description.accepting, description.groups⟩,
      check_eq_ok_iff.mpr ⟨formed, rfl, rfl⟩⟩

/-- The check accepts the well-formed descriptions and no others, and it keeps what they declare:
the count, the start, and accept states and groups with their order and repeats. -/
theorem check_accepts_wellFormed (description : Description) :
    ((∃ automaton, description.check = .ok automaton) ↔
        ∃ states start, description.WellFormed states start) ∧
      ∀ automaton, description.check = .ok automaton ↔
        description.WellFormed automaton.stateCount automaton.start ∧
          automaton.accepting = description.accepting ∧
          automaton.groups = description.groups :=
  ⟨exists_check_eq_ok_iff, fun _ => check_eq_ok_iff⟩

end Acceptor.Description
