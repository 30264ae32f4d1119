import Acceptor.Compile
import Acceptor.Proofs.Description.WellFormed
import Acceptor.Proofs.Table.Replay
/-!
The rules of descriptions and the guards of builders agree. A description that passes the check is
built without a refusal, and one that does not pass is refused by the builder too, as long as each
of its groups has a symbol: a builder never learns of the others.
-/
namespace Acceptor

open Description (Validated Counted Started GroupsFit)
open Table (Refusal Builder)
open Table.Builder (Fits accepted declared)
open Fallible

def rowsFor (groups : List Group) : List (Char × List State) :=
  groups.flatMap fun group => group.symbols.map (·, group.outputs)

theorem mem_rowsFor {groups : List Group} {row : Char × List State} :
    row ∈ rowsFor groups ↔
      ∃ group ∈ groups, row.1 ∈ group.symbols ∧ row.2 = group.outputs := by
  simp only [rowsFor, List.mem_flatMap, List.mem_map]
  constructor
  · intro made
    obtain ⟨group, member, symbol, held, rfl⟩ := made
    exact ⟨group, member, held, rfl⟩
  · intro declared
    obtain ⟨group, member, held, outputs⟩ := declared
    exact ⟨group, member, row.1, held, Prod.ext rfl outputs.symm⟩

theorem symbols_rowsFor (groups : List Group) :
    (rowsFor groups).map Prod.fst = groups.flatMap Group.symbols := by
  simp only [rowsFor, List.map_flatMap, List.map_map, Function.comp_def, List.map_id']

theorem accepted_callsFor (accepting : List State) (groups : List Group) :
    accepted (callsFor accepting groups) = accepting := by
  simp [accepted, callsFor, List.filterMap_flatMap, List.filterMap_map, Function.comp_def,
    Builder.Call.accepted?]

theorem declared_callsFor (accepting : List State) (groups : List Group) :
    declared (callsFor accepting groups) = rowsFor groups := by
  simp [declared, callsFor, rowsFor, List.filterMap_flatMap, List.filterMap_map,
    Function.comp_def, Builder.Call.declared?]

/-- What a builder asks of a description: groups without symbols count for nothing. -/
theorem fits_callsFor_iff {states : Nat} {accepting : List State} {groups : List Group} :
    Fits states (callsFor accepting groups) ↔
      (∀ state ∈ accepting, state.Within states) ∧
        (∀ group ∈ groups, group.symbols ≠ [] →
          group.outputs.length = states ∧ ∀ state ∈ group.outputs, state.Within states) ∧
        (groups.flatMap Group.symbols).Nodup := by
  constructor
  · intro fits
    have accepting := fits.acceptedWithin
    have complete := fits.rowsComplete
    have within := fits.rowsWithin
    have distinct := fits.symbolsDistinct
    rw [accepted_callsFor] at accepting
    rw [declared_callsFor] at complete within distinct
    rw [symbols_rowsFor] at distinct
    refine ⟨accepting, ?_, distinct⟩
    intro group member held
    obtain ⟨symbol, here⟩ := List.exists_mem_of_ne_nil _ held
    have row : (symbol, group.outputs) ∈ rowsFor groups :=
      mem_rowsFor.mpr ⟨group, member, here, rfl⟩
    exact ⟨complete _ row, within _ row⟩
  · intro asked
    obtain ⟨accepting, rows, distinct⟩ := asked
    have fit (row : Char × List State) (member : row ∈ rowsFor groups) :
        row.2.length = states ∧ ∀ state ∈ row.2, state.Within states := by
      obtain ⟨group, member, held, outputs⟩ := mem_rowsFor.mp member
      rw [outputs]
      exact rows group member (List.ne_nil_of_mem held)
    refine ⟨?_, ?_, ?_, ?_⟩
    · rw [accepted_callsFor]
      exact accepting
    · rw [declared_callsFor]
      intro row member
      exact (fit row member).1
    · rw [declared_callsFor]
      intro row member
      exact (fit row member).2
    · rw [declared_callsFor, symbols_rowsFor]
      exact distinct

/-- The builder of an automaton: the accept states as they are listed, and a row for each symbol. -/
def builderOf (automaton : Validated) : Builder where
  stateCount := automaton.stateCount
  start := automaton.start.index
  accepting := automaton.accepting.map State.index
  rows := (rowsFor automaton.groups).map fun (symbol, outputs) => (symbol, outputs.map State.index)

theorem replay_callsFor_eq_ok_iff {automaton : Validated} {builder : Builder} :
    Builder.replay automaton.stateCount automaton.start
        (callsFor automaton.accepting automaton.groups) = .ok builder ↔
      (1 ≤ automaton.stateCount ∧ automaton.stateCount ≤ maxStates) ∧
        automaton.start.Within automaton.stateCount ∧
        Fits automaton.stateCount (callsFor automaton.accepting automaton.groups) ∧
        builder = builderOf automaton := by
  have held : (⟨automaton.stateCount, automaton.start.index, [], []⟩ : Builder).after
      (callsFor automaton.accepting automaton.groups) = builderOf automaton := by
    rw [Builder.after, accepted_callsFor, declared_callsFor]
    rfl
  rw [Builder.replay_eq_ok_iff, held]

theorem replay_of_check {description : Description} {automaton : Validated}
    (checked : description.check = .ok automaton) :
    Builder.replay automaton.stateCount automaton.start
        (callsFor automaton.accepting automaton.groups) = .ok (builderOf automaton) := by
  obtain ⟨formed, accepting, groups⟩ := Description.check_eq_ok_iff.mp checked
  have bounded := And.intro formed.countPositive formed.countBounded
  have fits : Fits automaton.stateCount (callsFor automaton.accepting automaton.groups) := by
    rw [fits_callsFor_iff, accepting, groups]
    refine ⟨formed.acceptingWithin, ?_, formed.symbolsDistinct⟩
    intro group member _
    exact ⟨formed.outputsComplete group member, formed.outputsWithin group member⟩
  exact replay_callsFor_eq_ok_iff.mpr ⟨bounded, formed.startWithin, fits, rfl⟩

theorem compile_of_check {description : Description} {automaton : Validated}
    (checked : description.check = .ok automaton) :
    compile automaton = .ok (builderOf automaton).build := by
  rw [compile, replay_of_check checked]
  rfl

/-- What a builder takes is well-formed, where no group is hidden from it. -/
theorem check_of_replay (automaton : Validated) {builder : Builder}
    (held : ∀ group ∈ automaton.groups, group.symbols ≠ [])
    (taken : Builder.replay automaton.stateCount automaton.start
      (callsFor automaton.accepting automaton.groups) = .ok builder) :
    Description.check ⟨some automaton.stateCount, some automaton.start, automaton.accepting,
      automaton.groups⟩ = .ok automaton := by
  obtain ⟨bounded, within, fits, _⟩ := replay_callsFor_eq_ok_iff.mp taken
  obtain ⟨accepting, rows, distinct⟩ := fits_callsFor_iff.mp fits
  have complete : ∀ group ∈ automaton.groups, group.outputs.length = automaton.stateCount := by
    intro group member
    exact (rows group member (held group member)).1
  have outputsWithin : ∀ group ∈ automaton.groups, ∀ state ∈ group.outputs,
      state.Within automaton.stateCount := by
    intro group member
    exact (rows group member (held group member)).2
  have fit : GroupsFit automaton.stateCount automaton.groups := ⟨complete, outputsWithin, distinct⟩
  rw [Description.check_eq_ok_iff, Description.wellFormed_iff]
  exact ⟨⟨⟨rfl, bounded⟩, ⟨rfl, within⟩, accepting, fit⟩, rfl, rfl⟩

/-- The check and the builder enforce the same rules. Whatever the check accepts is built without a
refusal. Whatever it refuses is refused by the builder, if every group has a symbol, although the
builder reads row by row what the check reads group by group. -/
theorem replay_agrees_with_check (states : Nat) (start : State) (accepting : List State)
    (groups : List Group) :
    (∀ automaton,
      Description.check ⟨some states, some start, accepting, groups⟩ = .ok automaton →
        ∃ builder, Builder.replay states start (callsFor accepting groups) = .ok builder ∧
          compile automaton = .ok builder.build) ∧
      ((∀ group ∈ groups, group.symbols ≠ []) → ∀ violation,
        Description.check ⟨some states, some start, accepting, groups⟩ = .error violation →
          ∃ refusal,
            Builder.replay states start (callsFor accepting groups) = .error refusal) := by
  constructor
  · intro automaton checked
    have compiled := compile_of_check checked
    have replayed := replay_of_check checked
    obtain ⟨formed, rfl, rfl⟩ := Description.check_eq_ok_iff.mp checked
    have count : states = automaton.stateCount := by
      have same := formed.countDeclared
      simp only [Option.some.injEq] at same
      omega
    have begun : start = automaton.start := Option.some.inj formed.startDeclared
    rw [count, begun]
    exact ⟨_, replayed, compiled⟩
  · intro held violation refused
    rw [exists_error_iff]
    -- A builder that took all the calls would vouch for the description.
    intro built
    obtain ⟨builder, taken⟩ := built
    have checked := check_of_replay ⟨states, start, accepting, groups⟩ held taken
    rw [refused] at checked
    cases checked

/-- A group without symbols and a repeated accept state do no harm; a symbol of two groups does. -/
theorem replay_agrees_with_check_twice :
    (∃ builder, Builder.replay 2 ⟨1⟩
        (callsFor [⟨2⟩, ⟨2⟩] [⟨['a', 'b'], [⟨2⟩, ⟨1⟩]⟩, ⟨[], [⟨1⟩, ⟨1⟩]⟩]) = .ok builder) ∧
      ∃ refusal, Builder.replay 1 ⟨1⟩
        (callsFor [] [⟨['a'], [⟨1⟩]⟩, ⟨['b', 'a'], [⟨1⟩]⟩]) = .error refusal := by
  constructor
  · obtain ⟨builder, taken, _⟩ := (replay_agrees_with_check 2 ⟨1⟩ [⟨2⟩, ⟨2⟩]
      [⟨['a', 'b'], [⟨2⟩, ⟨1⟩]⟩, ⟨[], [⟨1⟩, ⟨1⟩]⟩]).1 _ rfl
    exact ⟨builder, taken⟩
  · exact (replay_agrees_with_check 1 ⟨1⟩ [] [⟨['a'], [⟨1⟩]⟩, ⟨['b', 'a'], [⟨1⟩]⟩]).2
      (by decide) (.nonDeterministicSymbol 'a' 1 2) rfl

end Acceptor
