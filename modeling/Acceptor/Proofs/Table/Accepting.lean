import Acceptor.Proofs.Table.Packed
/-!
A table accepts the states that its builder was told, and no others. They are listed once each in
ascending order, whatever the order of the calls; and a number that is no state of the table is not
taken for one, although places are kept in fewer bits than numbers.
-/
namespace Acceptor.Table

variable {count : Nat} {start : State} {calls : List Builder.Call} {builder : Builder}

theorem acceptsAt_iff_marked (taken : Builder.replay count start calls = .ok builder)
    (place : Nat) :
    builder.build.acceptsAt place = true ↔ .acceptState (.ofIndex place) ∈ calls := by
  obtain ⟨_, _, fits, rfl⟩ := Builder.replay_eq_ok_iff.mp taken
  rw [acceptsAt, List.contains_iff_mem, Builder.build, Ascending.mem_ofList, ← Builder.mem_accepted]
  constructor
  · intro listed
    obtain ⟨state, marked, rfl⟩ := List.mem_map.mp listed
    rw [State.ofIndex_index (fits.acceptedWithin state marked).1]
    exact marked
  · intro marked
    exact List.mem_map.mpr ⟨_, marked, State.index_ofIndex place⟩

/-- Only states in range can be marked, so the guard in front of the look-up turns none away. -/
theorem accepts_iff_marked (taken : Builder.replay count start calls = .ok builder)
    (state : State) : builder.build.accepts state = true ↔ .acceptState state ∈ calls := by
  have placed := acceptsAt_iff_marked taken state.index
  obtain ⟨_, _, fits, same⟩ := Builder.replay_eq_ok_iff.mp taken
  have counted : builder.build.stateCount = count := congrArg Builder.stateCount same
  rw [accepts, Bool.and_eq_true, decide_eq_true_iff, placed, counted]
  constructor
  · intro both
    rw [← State.ofIndex_index both.1.1]
    exact both.2
  · intro made
    have within := fits.acceptedWithin state (Builder.mem_accepted.mpr made)
    refine ⟨within, ?_⟩
    rw [State.ofIndex_index within.1]
    exact made

theorem mem_acceptStates_iff_marked (taken : Builder.replay count start calls = .ok builder)
    (state : State) : state ∈ builder.build.acceptStates ↔ .acceptState state ∈ calls := by
  have placed (place : Nat) :
      place ∈ builder.build.accepting ↔ .acceptState (.ofIndex place) ∈ calls := by
    rw [← acceptsAt_iff_marked taken, acceptsAt, List.contains_iff_mem]
  rw [acceptStates, List.mem_map]
  constructor
  · intro listed
    obtain ⟨place, member, rfl⟩ := listed
    exact (placed place).mp member
  · intro made
    obtain ⟨_, _, fits, _⟩ := Builder.replay_eq_ok_iff.mp taken
    have same := State.ofIndex_index (fits.acceptedWithin state (Builder.mem_accepted.mpr made)).1
    exact ⟨state.index, (placed _).mpr (same.symm ▸ made), same⟩

theorem pairwise_acceptStates (builder : Builder) :
    (builder.build.acceptStates.map State.number).Pairwise (· < ·) := by
  rw [acceptStates, List.map_map, List.pairwise_map]
  apply (Ascending.pairwise_ofList builder.accepting).imp
  intro first second below
  change (first + 1 : Int) < second + 1
  omega

/-- The accept states are the states that calls have marked, each once and in ascending order.
Whether a state accepts, and whether a place does, is decided by these calls alone. It is decided
alike where the marked places are sorted and searched in words of thirty-two bits: a word that is
beyond the states of the table accepts nothing, even if all of it that a place keeps is the place of
an accept state. -/
theorem accepting_are_marked (taken : Builder.replay count start calls = .ok builder) :
    (builder.build.acceptStates.map State.number).Pairwise (· < ·) ∧
      (∀ state, state ∈ builder.build.acceptStates ↔ .acceptState state ∈ calls) ∧
      (∀ state, builder.build.accepts state = true ↔ .acceptState state ∈ calls) ∧
      (∀ place, builder.build.acceptsAt place = true ↔ .acceptState (.ofIndex place) ∈ calls) ∧
      ∃ packed, Packed.replay (.ofNat count) start.word (calls.map .ofNamed) = .ok packed ∧
        packed.build.acceptStates.map .ofWord = builder.build.acceptStates ∧
        (∀ state, packed.build.accepts state = true ↔ .acceptState (.ofWord state) ∈ calls) ∧
        ∀ place, packed.build.acceptsAt place = true ↔
          .acceptState (.ofIndex place.toNat) ∈ calls := by
  refine ⟨pairwise_acceptStates builder, mem_acceptStates_iff_marked taken,
    accepts_iff_marked taken, acceptsAt_iff_marked taken, ?_⟩
  obtain ⟨packed, replayed, tells⟩ := Packed.exists_packed taken
  refine ⟨packed, replayed, tells.acceptStates, ?_, ?_⟩
  · intro state
    rw [tells.accepts, accepts_iff_marked taken]
  · intro place
    rw [tells.acceptsAt, acceptsAt_iff_marked taken]

/-- As many states as places can number, of which the last and the second are marked. The number
that is greater than the second by all that thirty-two bits can count shares its place, and is not
accepted. -/
theorem accepting_are_marked_at_limit :
    ∃ packed,
      Packed.replay 4294967295 4294967295
        [.acceptState 4294967295, .acceptState 2, .acceptState 4294967295] = .ok packed ∧
      packed.build.accepts 2 = true ∧ packed.build.accepts 4294967295 = true ∧
      Packed.place 4294967298 = Packed.place 2 ∧ packed.build.accepts 4294967298 = false ∧
      packed.build.accepts 0 = false ∧ packed.build.acceptsAt 4294967294 = true := by
  have taken : Builder.replay 4294967295 ⟨4294967295⟩
      [.acceptState ⟨4294967295⟩, .acceptState ⟨2⟩, .acceptState ⟨4294967295⟩] =
        .ok ⟨4294967295, 4294967294, [4294967294, 1, 4294967294], []⟩ := rfl
  obtain ⟨_, _, _, _, packed, replayed, _, accepts, acceptsAt⟩ := accepting_are_marked taken
  refine ⟨packed, replayed, (accepts 2).mpr ?_, (accepts 4294967295).mpr ?_, rfl, ?_, ?_,
    (acceptsAt 4294967294).mpr ?_⟩
  · decide
  · decide
  · rw [Bool.eq_false_iff]
    exact fun accepted => absurd ((accepts 4294967298).mp accepted) (by decide)
  · rw [Bool.eq_false_iff]
    exact fun accepted => absurd ((accepts 0).mp accepted) (by decide)
  · decide

end Acceptor.Table
