import Acceptor.Proofs.Compile.Simulation
import Mathlib.Algebra.Group.End
import Mathlib.Data.List.Basic
import Mathlib.Data.List.GetD
/-!
Numbering the states anew. The numbers of states are names: a permutation of them moves the entries
of every row to other places and puts other entries there, and changes the order of the accept
states, but every run goes through the same states under their new numbers.
-/
namespace Acceptor

open Description (Validated WellFormed)

/-- Another numbering of so many states, which gives each of them one of their numbers. -/
abbrev Renumbering (count : Nat) := Equiv.Perm {state : State // state.Within count}

namespace Renumbering

variable {count : Nat}

/-- The renumbering on all states. The ones out of range keep their numbers. -/
def onStates (numbering : Renumbering count) : Equiv.Perm State := Equiv.Perm.ofSubtype numbering

/-- The outputs of a group, each under its new number and at the place of the new number of the
state that moves there. Places without an output are not to be met, as outputs are complete. -/
def outputs (numbering : Renumbering count) (listed : List State) : List State :=
  (List.range count).map fun place =>
    numbering.onStates
      (listed.getD (numbering.onStates.symm (.ofIndex place)).index (.ofIndex place))

theorem within_onStates (numbering : Renumbering count) {state : State} :
    (numbering.onStates state).Within count ↔ state.Within count :=
  Equiv.Perm.ofSubtype_apply_mem_iff_mem numbering state

theorem within_symm (numbering : Renumbering count) {state : State} :
    (numbering.onStates.symm state).Within count ↔ state.Within count := by
  rw [← numbering.within_onStates, Equiv.apply_symm_apply]

theorem length_outputs (numbering : Renumbering count) (listed : List State) :
    (numbering.outputs listed).length = count := by
  rw [outputs, List.length_map, List.length_range]

theorem getElem?_outputs (numbering : Renumbering count) {listed : List State} {state : State}
    (complete : listed.length = count) (within : state.Within count) :
    (numbering.outputs listed)[(numbering.onStates state).index]? =
      listed[state.index]?.map numbering.onStates := by
  have moved := numbering.within_onStates.mpr within
  have bound : state.index < listed.length := complete ▸ within.index_lt
  rw [outputs, List.getElem?_map, List.getElem?_range moved.index_lt,
    List.getElem?_eq_getElem bound, Option.map_some, State.ofIndex_index moved.1,
    Equiv.symm_apply_apply, List.getD_eq_getElem _ _ bound]
  rfl

theorem outputs_within (numbering : Renumbering count) {listed : List State}
    (complete : listed.length = count) (within : ∀ state ∈ listed, state.Within count) :
    ∀ state ∈ numbering.outputs listed, state.Within count := by
  rw [outputs, List.forall_mem_map]
  intro place listedPlace
  have inside := State.within_ofIndex.mpr (List.mem_range.mp listedPlace)
  have bound : (numbering.onStates.symm (.ofIndex place)).index < listed.length :=
    complete ▸ (numbering.within_symm.mpr inside).index_lt
  rw [within_onStates, List.getD_eq_getElem _ _ bound]
  exact within _ (List.getElem_mem bound)

end Renumbering

variable {count : Nat}

def Group.renumbered (group : Group) (numbering : Renumbering count) : Group :=
  { group with outputs := numbering.outputs group.outputs }

def Description.renumbered (description : Description) (numbering : Renumbering count) :
    Description where
  stateCount := description.stateCount
  start := description.start.map numbering.onStates
  accepting := description.accepting.map numbering.onStates
  groups := description.groups.map (·.renumbered numbering)

def Description.Validated.renumbered (automaton : Validated) (numbering : Renumbering count) :
    Validated where
  stateCount := automaton.stateCount
  start := numbering.onStates automaton.start
  accepting := automaton.accepting.map numbering.onStates
  groups := automaton.groups.map (·.renumbered numbering)

def Outcome.renumbered (numbering : Renumbering count) : Outcome → Outcome
  | accepted state => accepted (numbering.onStates state)
  | rejected state => rejected (numbering.onStates state)
  | unknownSymbol position symbol state =>
    unknownSymbol position symbol (numbering.onStates state)

theorem Outcome.renumbered_ofVerdict (numbering : Renumbering count) (verdict : Bool)
    (state : State) :
    (Outcome.ofVerdict verdict state).renumbered numbering =
      .ofVerdict verdict (numbering.onStates state) := by
  cases verdict <;> rfl

theorem Description.symbols_renumbered (description : Description) (numbering : Renumbering count) :
    (description.renumbered numbering).symbols = description.symbols :=
  List.flatMap_map ..

/-- Every rule is kept: lists of outputs stay complete, and all states stay in range. -/
theorem Description.WellFormed.renumbered {description : Description} {start : State}
    (formed : WellFormed description count start) (numbering : Renumbering count) :
    WellFormed (description.renumbered numbering) count (numbering.onStates start) where
  countDeclared := formed.countDeclared
  countPositive := formed.countPositive
  countBounded := formed.countBounded
  startDeclared := congrArg (Option.map numbering.onStates) formed.startDeclared
  startWithin := numbering.within_onStates.mpr formed.startWithin
  acceptingWithin := by
    refine List.forall_mem_map.mpr ?_
    intro state listed
    exact numbering.within_onStates.mpr (formed.acceptingWithin state listed)
  outputsComplete := by
    refine List.forall_mem_map.mpr ?_
    intro group member
    exact numbering.length_outputs group.outputs
  outputsWithin := by
    refine List.forall_mem_map.mpr ?_
    intro group member
    exact numbering.outputs_within (formed.outputsComplete group member)
      (formed.outputsWithin group member)
  symbolsDistinct := by
    rw [symbols_renumbered]
    exact formed.symbolsDistinct

section Checked

variable {description : Description} {automaton : Validated}

theorem check_renumbered (checked : description.check = .ok automaton)
    (numbering : Renumbering automaton.stateCount) :
    (description.renumbered numbering).check = .ok (automaton.renumbered numbering) := by
  obtain ⟨formed, accepting, groups⟩ := Description.check_eq_ok_iff.mp checked
  refine Description.check_eq_ok_iff.mpr ⟨formed.renumbered numbering, ?_, ?_⟩
  · exact congrArg (List.map numbering.onStates) accepting
  · exact congrArg (List.map (·.renumbered numbering)) groups

theorem move?_renumbered (checked : description.check = .ok automaton)
    (numbering : Renumbering automaton.stateCount) {state : State}
    (within : state.Within automaton.stateCount) (symbol : Char) :
    (automaton.renumbered numbering).move? (numbering.onStates state) symbol =
      (automaton.move? state symbol).map numbering.onStates := by
  obtain ⟨formed, _, groups⟩ := Description.check_eq_ok_iff.mp checked
  have held : (automaton.renumbered numbering).group? symbol =
      (automaton.group? symbol).map (·.renumbered numbering) := List.find?_map ..
  rw [Validated.move?, Validated.move?, held]
  cases found : automaton.group? symbol with
  | none => rfl
  | some group =>
    have member : group ∈ description.groups := groups ▸ List.mem_of_find?_eq_some found
    exact numbering.getElem?_outputs (formed.outputsComplete group member) within

theorem reach?_renumbered (checked : description.check = .ok automaton)
    (numbering : Renumbering automaton.stateCount) {state last : State} {word : Text}
    (within : state.Within automaton.stateCount)
    (declared : ∀ symbol ∈ word, symbol ∈ description.symbols)
    (reached : automaton.reach? state word = some last) :
    (automaton.renumbered numbering).reach? (numbering.onStates state) word =
      some (numbering.onStates last) := by
  induction word generalizing state with
  | nil =>
    cases reached
    rfl
  | cons symbol rest ih =>
    obtain ⟨here, later⟩ := List.forall_mem_cons.mp declared
    obtain ⟨next, moved, nextWithin⟩ := move?_of_declared checked within here
    rw [Validated.reach?, List.foldlM_cons, moved] at reached
    rw [Validated.reach?, List.foldlM_cons, move?_renumbered checked numbering within, moved]
    exact ih nextWithin later reached

theorem run_renumbered (checked : description.check = .ok automaton)
    (numbering : Renumbering automaton.stateCount) (word : Text) :
    (builderOf (automaton.renumbered numbering)).build.run word =
      ((builderOf automaton).build.run word).renumbered numbering := by
  have checkedToo := check_renumbered checked numbering
  have symbols := description.symbols_renumbered numbering
  have within := (Description.check_eq_ok_iff.mp checked).1.startWithin
  rcases declared_or_split description word with
    declared | ⟨known, symbol, rest, rfl, declared, undeclared⟩
  · obtain ⟨last, reached, ran⟩ := run_of_declared checked declared
    obtain ⟨other, reachedToo, ranToo⟩ := run_of_declared checkedToo (symbols ▸ declared)
    cases (reach?_renumbered checked numbering within declared reached).symm.trans reachedToo
    have accepting : numbering.onStates last ∈ (description.renumbered numbering).accepting ↔
        last ∈ description.accepting :=
      List.mem_map_of_injective numbering.onStates.injective
    rw [ran, ranToo, Outcome.renumbered_ofVerdict, decide_eq_decide.mpr accepting]
  · obtain ⟨last, reached, ran⟩ := run_of_undeclared checked rest declared undeclared
    obtain ⟨other, reachedToo, ranToo⟩ :=
      run_of_undeclared checkedToo rest (symbols ▸ declared) (symbols ▸ undeclared)
    cases (reach?_renumbered checked numbering within declared reached).symm.trans reachedToo
    rw [ran, ranToo]
    rfl

/-- A checked description whose states are numbered anew is a checked description. In every group,
the output of a state stands under its new number at the place of the state's new number, and the
symbols stay. The tables of both come to the same outcome over every word, but for the number of the
state: they stop at the same symbol and position, or accept both, or reject both. -/
theorem renumbered_runs_alike (checked : description.check = .ok automaton)
    (numbering : Renumbering automaton.stateCount) :
    (∀ group ∈ description.groups,
        (group.renumbered numbering).symbols = group.symbols ∧
        (group.renumbered numbering).outputs.length = automaton.stateCount ∧
        ∀ state : State, state.Within automaton.stateCount →
          (group.renumbered numbering).outputs[(numbering.onStates state).index]? =
            group.outputs[state.index]?.map numbering.onStates) ∧
      ∃ other table renumbered,
        (description.renumbered numbering).check = .ok other ∧
        other.stateCount = automaton.stateCount ∧
        compile automaton = .ok table ∧ compile other = .ok renumbered ∧
        ∀ word, renumbered.run word = (table.run word).renumbered numbering := by
  have formed := (Description.check_eq_ok_iff.mp checked).1
  have checkedToo := check_renumbered checked numbering
  refine ⟨?_, _, _, _, checkedToo, rfl, compile_of_check checked, compile_of_check checkedToo,
    run_renumbered checked numbering⟩
  intro group member
  refine ⟨rfl, numbering.length_outputs group.outputs, ?_⟩
  intro state within
  exact numbering.getElem?_outputs (formed.outputsComplete group member) within

/-- The first of three states becomes the second, the second the third, and the third the first. -/
theorem renumbered_runs_alike_around :
    let automaton : Validated := ⟨3, ⟨1⟩, [⟨3⟩], [⟨['a'], [⟨2⟩, ⟨3⟩, ⟨3⟩]⟩]⟩
    let other : Validated := ⟨3, ⟨2⟩, [⟨1⟩], [⟨['a'], [⟨1⟩, ⟨3⟩, ⟨1⟩]⟩]⟩
    let numbering : Renumbering 3 :=
      Equiv.swap ⟨⟨1⟩, by decide⟩ ⟨⟨2⟩, by decide⟩ * Equiv.swap ⟨⟨2⟩, by decide⟩ ⟨⟨3⟩, by decide⟩
    Description.check ⟨some 3, some ⟨1⟩, [⟨3⟩], automaton.groups⟩ = .ok automaton ∧
      Description.renumbered ⟨some 3, some ⟨1⟩, [⟨3⟩], automaton.groups⟩ numbering =
        ⟨some 3, some ⟨2⟩, [⟨1⟩], other.groups⟩ ∧
      Description.check ⟨some 3, some ⟨2⟩, [⟨1⟩], other.groups⟩ = .ok other ∧
      ∃ table renumbered, compile automaton = .ok table ∧ compile other = .ok renumbered ∧
        table.run ['a', 'a'] = .accepted ⟨3⟩ ∧ renumbered.run ['a', 'a'] = .accepted ⟨1⟩ ∧
        table.run ['a', 'b'] = .unknownSymbol 1 'b' ⟨2⟩ ∧
        renumbered.run ['a', 'b'] = .unknownSymbol 1 'b' ⟨3⟩ := by
  intro automaton other numbering
  have checked :
      Description.check ⟨some 3, some ⟨1⟩, [⟨3⟩], automaton.groups⟩ = .ok automaton := rfl
  have checkedToo :
      Description.check ⟨some 3, some ⟨2⟩, [⟨1⟩], other.groups⟩ = .ok other := rfl
  have same : Description.renumbered ⟨some 3, some ⟨1⟩, [⟨3⟩], automaton.groups⟩ numbering =
      ⟨some 3, some ⟨2⟩, [⟨1⟩], other.groups⟩ := rfl
  obtain ⟨_, _, table, renumbered, again, _, compiled, compiledToo, runs⟩ :=
    renumbered_runs_alike checked numbering
  rw [same, checkedToo] at again
  cases again
  cases compiled
  refine ⟨checked, same, checkedToo, _, renumbered, rfl, compiledToo, rfl, ?_, rfl, ?_⟩
  · exact runs ['a', 'a']
  · exact runs ['a', 'b']

end Checked

end Acceptor
