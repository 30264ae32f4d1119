import Acceptor.Proofs.Table.Packed
/-!
What was declared is read back. A builder that took all its calls builds a table from which start
state, alphabet and rows come back as they were given, from one state up to as many as places can
number; and so it does when all of them are kept in machine words.
-/
namespace Acceptor.Table

open Builder (declared)

variable {count : Nat} {start : State} {calls : List Builder.Call} {builder : Builder}

theorem getElem?_countedDown {α : Type} (items : List α) (asked : Nat) :
    (countedDown items)[asked]? = items[asked]?.map (items.length - asked, ·) := by
  rw [countedDown, List.getElem?_map, List.getElem?_zipIdx, Option.map_map]
  cases items[asked]? with
  | none => rfl
  | some item => simp

theorem map_index_eq {states : List State} (within : ∀ state ∈ states, state.Within count) :
    (states.map State.index).map Int.ofNat = states.map (·.number - 1) := by
  rw [List.map_map]
  apply List.map_congr_left
  intro state listed
  have low := (within state listed).1
  exact Int.toNat_of_nonneg (by omega)

theorem startState_of_replay (taken : Builder.replay count start calls = .ok builder) :
    builder.build.startState = start := by
  obtain ⟨_, within, _, rfl⟩ := Builder.replay_eq_ok_iff.mp taken
  exact State.ofIndex_index within.1

theorem alphabet_of_replay (taken : Builder.replay count start calls = .ok builder) :
    builder.build.alphabet = (declared calls).map Prod.fst := by
  obtain ⟨_, _, _, rfl⟩ := Builder.replay_eq_ok_iff.mp taken
  simp [alphabet, Builder.build, Builder.after, Function.comp_def]

theorem row?_of_replay (taken : Builder.replay count start calls = .ok builder) (symbol : Char) :
    builder.build.row? symbol = ((declared calls).lookup symbol).map (·.map State.index) := by
  obtain ⟨_, _, _, rfl⟩ := Builder.replay_eq_ok_iff.mp taken
  exact Lookup.lookup_map_entry _ _ symbol

/-- Calls between and after it leave the row of a symbol as it was declared. -/
theorem row?_of_declared (taken : Builder.replay count start calls = .ok builder) {symbol : Char}
    {successors : List State} (made : .addTransition symbol successors ∈ calls) :
    builder.build.row? symbol = some (successors.map State.index) := by
  obtain ⟨_, _, fits, _⟩ := Builder.replay_eq_ok_iff.mp taken
  have row := Builder.mem_declared.mpr made
  rw [row?_of_replay taken, (Lookup.lookup_eq_some_iff_mem fits.symbolsDistinct).mpr row]
  rfl

theorem row?_of_undeclared (taken : Builder.replay count start calls = .ok builder) {symbol : Char}
    (never : ∀ successors, .addTransition symbol successors ∉ calls) :
    builder.build.row? symbol = none := by
  have absent : (declared calls).lookup symbol = none := by
    rw [Lookup.lookup_eq_none_iff_notMem]
    intro listed
    obtain ⟨row, member, rfl⟩ := List.mem_map.mp listed
    exact never row.2 (Builder.mem_declared.mp member)
  rw [row?_of_replay taken, absent]
  rfl

/-- A built table reads back as it was declared: the start state; the symbols in the order of their
calls; for each of them the states of its row, one after the other with as many left as are still to
come, and their places, one less than their numbers; and nothing for any other symbol, whatever the
place. The same calls with all states as words of sixty-four bits, and all places as words of
thirty-two, build a table that says the same. -/
theorem declarations_read_back (taken : Builder.replay count start calls = .ok builder) :
    builder.build.startState = start ∧
      builder.build.alphabet = (declared calls).map Prod.fst ∧
      (∀ symbol successors, .addTransition symbol successors ∈ calls →
        successors.length = count ∧
        builder.build.successors? symbol = some successors ∧
        (∀ asked,
          (countedDown successors)[asked]? = successors[asked]?.map (count - asked, ·)) ∧
        ∃ row, builder.build.row? symbol = some row ∧
          row.map Int.ofNat = successors.map (·.number - 1)) ∧
      (∀ symbol, (∀ successors, .addTransition symbol successors ∉ calls) →
        builder.build.row? symbol = none ∧ builder.build.successors? symbol = none ∧
          ∀ place, builder.build.step place symbol = .ok none) ∧
      ∃ packed, Packed.replay (.ofNat count) start.word (calls.map .ofNamed) = .ok packed ∧
        packed.build.Tells builder.build := by
  obtain ⟨_, _, fits, _⟩ := Builder.replay_eq_ok_iff.mp taken
  refine ⟨startState_of_replay taken, alphabet_of_replay taken, ?_, ?_, Packed.exists_packed taken⟩
  · intro symbol successors made
    have row := Builder.mem_declared.mpr made
    have complete : successors.length = count := fits.rowsComplete _ row
    have within : ∀ state ∈ successors, state.Within count := fits.rowsWithin _ row
    have found := row?_of_declared taken made
    refine ⟨complete, ?_, ?_, _, found, map_index_eq within⟩
    · rw [successors?, found, Option.map_some, map_ofIndex_index within]
    · intro asked
      rw [getElem?_countedDown, complete]
  · intro symbol never
    have absent := row?_of_undeclared taken never
    refine ⟨absent, ?_, step_of_row_none absent⟩
    rw [successors?, absent]
    rfl

/-- As many states as places can number: a row that leads to the last of them, an accept state, and
a row that leads to the first. -/
theorem declarations_read_back_at_limit :
    let last : State := ⟨4294967295⟩
    let calls : List Builder.Call :=
      [.addTransition 'b' (.replicate 4294967295 last), .acceptState ⟨1⟩,
        .addTransition 'a' (.replicate 4294967295 ⟨1⟩)]
    ∃ builder, Builder.replay 4294967295 last calls = .ok builder ∧
      builder.build.startState = last ∧ builder.build.alphabet = ['b', 'a'] ∧
      builder.build.successors? 'b' = some (.replicate 4294967295 last) ∧
      builder.build.successors? 'a' = some (.replicate 4294967295 ⟨1⟩) ∧
      builder.build.step 7 'c' = .ok none := by
  intro last calls
  have constant : ∀ {state : State}, state.Within 4294967295 →
      ∀ other ∈ List.replicate 4294967295 state, other.Within 4294967295 := by
    intro state within other listed
    exact List.eq_of_mem_replicate listed ▸ within
  have fits : Builder.Fits 4294967295 calls := by
    rw [Builder.fits_addTransition, Builder.fits_acceptState, Builder.fits_addTransition]
    refine ⟨List.length_replicate, constant (by decide), ?_, by decide, List.length_replicate,
      constant (by decide), ?_, Builder.fits_nil _⟩
    · intro row listed
      rw [List.mem_singleton.mp listed]
      decide
    · intro row listed
      cases listed
  have within : last.Within 4294967295 := by decide
  have taken := Builder.replay_eq_ok_iff.mpr ⟨by decide, within, fits, rfl⟩
  obtain ⟨started, listed, rows, absent, _⟩ := declarations_read_back taken
  refine ⟨_, taken, started, listed, ?_, ?_, ?_⟩
  · exact (rows 'b' _ List.mem_cons_self).2.1
  · exact (rows 'a' _ (List.mem_cons_of_mem _ (List.mem_cons_of_mem _ List.mem_cons_self))).2.1
  · refine (absent 'c' ?_).2.2 7
    intro successors made
    have symbol : 'c' ∈ (declared calls).map Prod.fst :=
      List.mem_map_of_mem (Builder.mem_declared.mpr made)
    exact absurd symbol (by decide)

end Acceptor.Table
