import Acceptor.Proofs.Fallible
import Acceptor.Table.Builder
/-!
What a sequence of calls makes of a builder. A sequence is taken to its end exactly if every call
fits by itself and no symbol is given two rows, and then the builder holds what the calls say, in
their order.
-/
namespace Acceptor.Table.Builder

open Fallible

def Call.accepted? : Call → Option State
  | acceptState state => some state
  | addTransition .. => none

def Call.declared? : Call → Option (Char × List State)
  | acceptState _ => none
  | addTransition symbol successors => some (symbol, successors)

def accepted (calls : List Call) : List State := calls.filterMap Call.accepted?

def declared (calls : List Call) : List (Char × List State) := calls.filterMap Call.declared?

theorem mem_accepted {calls : List Call} {state : State} :
    state ∈ accepted calls ↔ .acceptState state ∈ calls := by
  rw [accepted, List.mem_filterMap]
  constructor
  · intro marked
    obtain ⟨call, made, same⟩ := marked
    cases call with
    | acceptState other => exact Option.some.inj same ▸ made
    | addTransition symbol successors => cases same
  · intro made
    exact ⟨_, made, rfl⟩

theorem mem_declared {calls : List Call} {symbol : Char} {successors : List State} :
    (symbol, successors) ∈ declared calls ↔ .addTransition symbol successors ∈ calls := by
  rw [declared, List.mem_filterMap]
  constructor
  · intro row
    obtain ⟨call, made, same⟩ := row
    cases call with
    | acceptState state => cases same
    | addTransition other states =>
      cases same
      exact made
  · intro made
    exact ⟨_, made, rfl⟩

structure Fits (count : Nat) (calls : List Call) : Prop where
  acceptedWithin : ∀ state ∈ accepted calls, state.Within count
  rowsComplete : ∀ row ∈ declared calls, row.2.length = count
  rowsWithin : ∀ row ∈ declared calls, ∀ state ∈ row.2, state.Within count
  symbolsDistinct : ((declared calls).map Prod.fst).Nodup

def after (builder : Builder) (calls : List Call) : Builder :=
  { builder with
    accepting := builder.accepting ++ (accepted calls).map State.index
    rows := builder.rows ++
      (declared calls).map fun (symbol, successors) => (symbol, successors.map State.index) }

theorem after_nil (builder : Builder) : builder.after [] = builder := by
  simp [after, accepted, declared]

theorem after_acceptState (builder : Builder) (state : State) (calls : List Call) :
    builder.after (.acceptState state :: calls) =
      ({ builder with accepting := builder.accepting ++ [state.index] } : Builder).after calls := by
  simp [after, accepted, declared, List.filterMap_cons, Call.accepted?, Call.declared?]

theorem after_addTransition (builder : Builder) (symbol : Char) (successors : List State)
    (calls : List Call) :
    builder.after (.addTransition symbol successors :: calls) =
      ({ builder with
        rows := builder.rows ++ [(symbol, successors.map State.index)] } : Builder).after calls := by
  simp [after, accepted, declared, List.filterMap_cons, Call.accepted?, Call.declared?]

theorem fits_nil (count : Nat) : Fits count [] :=
  ⟨by simp [accepted], by simp [declared], by simp [declared], by simp [declared]⟩

theorem fits_acceptState {count : Nat} {state : State} {calls : List Call} :
    Fits count (.acceptState state :: calls) ↔ state.Within count ∧ Fits count calls := by
  constructor
  · intro fits
    obtain ⟨within, rest⟩ := List.forall_mem_cons.mp fits.acceptedWithin
    exact ⟨within, rest, fits.rowsComplete, fits.rowsWithin, fits.symbolsDistinct⟩
  · intro parts
    obtain ⟨within, fits⟩ := parts
    exact ⟨List.forall_mem_cons.mpr ⟨within, fits.acceptedWithin⟩, fits.rowsComplete,
      fits.rowsWithin, fits.symbolsDistinct⟩

theorem fits_addTransition {count : Nat} {symbol : Char} {successors : List State}
    {calls : List Call} :
    Fits count (.addTransition symbol successors :: calls) ↔
      successors.length = count ∧ (∀ state ∈ successors, state.Within count) ∧
        (∀ row ∈ declared calls, row.1 ≠ symbol) ∧ Fits count calls := by
  constructor
  · intro fits
    obtain ⟨complete, restComplete⟩ := List.forall_mem_cons.mp fits.rowsComplete
    obtain ⟨within, restWithin⟩ := List.forall_mem_cons.mp fits.rowsWithin
    obtain ⟨absent, distinct⟩ := List.nodup_cons.mp fits.symbolsDistinct
    refine ⟨complete, within, ?_, fits.acceptedWithin, restComplete, restWithin, distinct⟩
    intro row member same
    exact absent (List.mem_map.mpr ⟨row, member, same⟩)
  · intro parts
    obtain ⟨complete, within, apart, fits⟩ := parts
    refine ⟨fits.acceptedWithin, List.forall_mem_cons.mpr ⟨complete, fits.rowsComplete⟩,
      List.forall_mem_cons.mpr ⟨within, fits.rowsWithin⟩,
      List.nodup_cons.mpr ⟨?_, fits.symbolsDistinct⟩⟩
    intro again
    obtain ⟨row, member, same⟩ := List.mem_map.mp again
    exact apart row member same

theorem new_eq_ok_iff {count : Nat} {start : State} {builder : Builder} :
    new count start = .ok builder ↔
      (1 ≤ count ∧ count ≤ maxStates) ∧ start.Within count ∧
        builder = ⟨count, start.index, [], []⟩ := by
  unfold new
  by_cases bounded : 1 ≤ count ∧ count ≤ maxStates
  · rw [if_neg (not_not_intro bounded)]
    by_cases within : start.Within count
    · rw [if_neg (not_not_intro within), Except.ok.injEq]
      constructor
      · intro same
        exact ⟨bounded, within, same.symm⟩
      · intro fits
        exact fits.2.2.symm
    · rw [if_pos within]
      simp only [reduceCtorEq, within, false_and, and_false]
  · rw [if_pos bounded]
    simp only [reduceCtorEq, bounded, false_and]

theorem acceptState_eq_ok_iff {builder next : Builder} {state : State} :
    builder.acceptState state = .ok next ↔
      state.Within builder.stateCount ∧
        next = { builder with accepting := builder.accepting ++ [state.index] } := by
  by_cases within : state.Within builder.stateCount
  · simp [acceptState_of_within within, within, eq_comm]
  · simp [acceptState, within]

theorem addTransition_eq_ok_iff {builder next : Builder} {symbol : Char}
    {successors : List State} :
    builder.addTransition symbol successors = .ok next ↔
      builder.hasSymbol symbol = false ∧ successors.length = builder.stateCount ∧
        (∀ state ∈ successors, state.Within builder.stateCount) ∧
        next = { builder with
          rows := builder.rows ++ [(symbol, successors.map State.index)] } := by
  constructor
  · intro taken
    simp only [addTransition] at taken
    split at taken
    next => cases taken
    next fresh =>
      split at taken
      next => cases taken
      next complete =>
        split at taken
        next => cases taken
        next within =>
          cases taken
          exact ⟨by simpa using fresh, by simpa using complete, by simpa using within, rfl⟩
  · intro fits
    obtain ⟨fresh, complete, within, rfl⟩ := fits
    exact addTransition_of_fits fresh complete within

theorem hasSymbol_append {builder : Builder} {symbol other : Char} {row : List Nat} :
    ({ builder with rows := builder.rows ++ [(symbol, row)] } : Builder).hasSymbol other = false ↔
      other ≠ symbol ∧ builder.hasSymbol other = false := by
  simp only [hasSymbol, List.lookup_append, Option.isSome_or, Bool.or_eq_false_iff]
  by_cases same : other = symbol
  · simp [same]
  · simp [same]

/-- A builder takes calls to their end exactly if they fit and give no row to a symbol that has one,
and then it holds what they say behind what it held. -/
theorem foldlM_apply_eq_ok_iff {builder final : Builder} {calls : List Call} :
    calls.foldlM apply builder = .ok final ↔
      Fits builder.stateCount calls ∧
        (∀ row ∈ declared calls, builder.hasSymbol row.1 = false) ∧
        final = builder.after calls := by
  induction calls generalizing builder with
  | nil =>
    rw [List.foldlM_nil, after_nil]
    constructor
    · intro done
      cases done
      exact ⟨fits_nil _, by simp [declared], rfl⟩
    · intro taken
      obtain ⟨_, _, rfl⟩ := taken
      rfl
  | cons call calls ih =>
    rw [List.foldlM_cons, bind_eq_ok_iff]
    cases call with
    | acceptState state =>
      simp only [apply, acceptState_eq_ok_iff, ih, fits_acceptState, after_acceptState]
      constructor
      · intro taken
        obtain ⟨_, ⟨within, rfl⟩, fits, fresh, rfl⟩ := taken
        exact ⟨⟨within, fits⟩, fresh, rfl⟩
      · intro parts
        obtain ⟨⟨within, fits⟩, fresh, rfl⟩ := parts
        exact ⟨_, ⟨within, rfl⟩, fits, fresh, rfl⟩
    | addTransition symbol successors =>
      simp only [apply, addTransition_eq_ok_iff, ih, fits_addTransition, after_addTransition]
      constructor
      · intro taken
        obtain ⟨_, ⟨unused, complete, within, rfl⟩, fits, fresh, rfl⟩ := taken
        -- The rows to come find this symbol taken, which is how symbols of later calls stay apart.
        simp only [hasSymbol_append] at fresh
        have apart : ∀ row ∈ declared calls, row.1 ≠ symbol := by
          intro row member
          exact (fresh row member).1
        have others : ∀ row ∈ declared calls, builder.hasSymbol row.1 = false := by
          intro row member
          exact (fresh row member).2
        refine ⟨⟨complete, within, apart, fits⟩, ?_, rfl⟩
        exact List.forall_mem_cons.mpr ⟨unused, others⟩
      · intro parts
        obtain ⟨⟨complete, within, apart, fits⟩, fresh, rfl⟩ := parts
        obtain ⟨unused, fresh⟩ := List.forall_mem_cons.mp fresh
        refine ⟨_, ⟨unused, complete, within, rfl⟩, fits, ?_, rfl⟩
        intro row member
        exact hasSymbol_append.mpr ⟨apart row member, fresh row member⟩

theorem replay_eq_ok_iff {count : Nat} {start : State} {calls : List Call} {builder : Builder} :
    replay count start calls = .ok builder ↔
      (1 ≤ count ∧ count ≤ maxStates) ∧ start.Within count ∧ Fits count calls ∧
        builder = (⟨count, start.index, [], []⟩ : Builder).after calls := by
  simp only [replay, bind_eq_ok_iff, new_eq_ok_iff, foldlM_apply_eq_ok_iff]
  constructor
  · intro taken
    obtain ⟨_, ⟨bounded, within, rfl⟩, fits, _, rfl⟩ := taken
    exact ⟨bounded, within, fits, rfl⟩
  · intro parts
    obtain ⟨bounded, within, fits, rfl⟩ := parts
    exact ⟨_, ⟨bounded, within, rfl⟩, fits, fun _ _ => rfl, rfl⟩

end Acceptor.Table.Builder
