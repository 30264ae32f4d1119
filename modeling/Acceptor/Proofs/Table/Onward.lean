import Acceptor.Proofs.Table.Reach
import Acceptor.Proofs.Table.Same
/-!
Running on. A run keeps nothing but the state it is in and the number of symbols it has read, so a
word may be read in two parts: the second part is run from the state that the first one led to. A
run that has stopped at an unknown symbol reads no further, whatever follows.
-/
namespace Acceptor

namespace Outcome

/-- An outcome behind so many symbols that were read before, which its position counts, too. -/
def behind (count : Nat) : Outcome → Outcome
  | accepted state => accepted state
  | rejected state => rejected state
  | unknownSymbol position symbol state => unknownSymbol (position + count) symbol state

theorem behind_ofVerdict (count : Nat) (verdict : Bool) (state : State) :
    (ofVerdict verdict state).behind count = ofVerdict verdict state := by
  cases verdict <;> rfl

theorem finalState?_ofVerdict (verdict : Bool) (state : State) :
    (ofVerdict verdict state).finalState? = some state := by
  cases verdict <;> rfl

theorem finalState?_eq_none_iff {outcome : Outcome} :
    outcome.finalState? = none ↔
      ∃ position symbol state, outcome = .unknownSymbol position symbol state := by
  cases outcome <;> simp [finalState?]

end Outcome

namespace Table

def startingIn (table : Table) (state : State) : Table := { table with start := state.index }

variable {table : Table}

theorem Sound.startingIn {state : State} (sound : table.Sound)
    (within : state.Within table.stateCount) : (table.startingIn state).Sound :=
  { sound with startInside := within.index_lt }

theorem outcomeFrom_startingIn (state : State) (place position : Nat) (word : Text) :
    (table.startingIn state).outcomeFrom place position word =
      table.outcomeFrom place position word := by
  have accepting : (table.startingIn state).accepting = table.accepting := rfl
  have rows (symbol : Char) : (table.startingIn state).row? symbol = table.row? symbol := rfl
  rw [outcomeFrom, outcomeFrom, walk_congr accepting rows]

/-- Positions are carried along, and nothing depends on them. -/
theorem outcomeFrom_behind (place position count : Nat) (word : Text) :
    table.outcomeFrom place (position + count) word =
      (table.outcomeFrom place position word).behind count := by
  induction word generalizing place position with
  | nil => exact (Outcome.behind_ofVerdict count _ _).symm
  | cons symbol rest ih =>
    cases moved : table.successor? place symbol with
    | none =>
      rw [outcomeFrom, outcomeFrom, walk_cons_of_none moved, walk_cons_of_none moved]
      rfl
    | some next =>
      have onward := ih next (position + 1)
      rw [Nat.add_right_comm] at onward
      rw [outcomeFrom, outcomeFrom, walk_cons_of_some moved, walk_cons_of_some moved]
      exact onward

theorem Sound.reach?_lt (sound : table.Sound) {place next : Nat} {word : Text}
    (inside : place < table.stateCount) (reached : table.reach? place word = some next) :
    next < table.stateCount := by
  induction word generalizing place with
  | nil =>
    cases reached
    exact inside
  | cons symbol rest ih =>
    rw [reach?_cons] at reached
    obtain ⟨middle, moved, onward⟩ := Option.bind_eq_some_iff.mp reached
    exact ih (sound.successor_lt moved) onward

/-- Either a word is read to its end, or its run stops in it, and then whatever follows is not
looked at. -/
theorem reached_or_stopped (table : Table) (place position : Nat) (word : Text) :
    (∃ next, table.reach? place word = some next ∧
        (table.outcomeFrom place position word).finalState? = some (.ofIndex next)) ∨
      (table.outcomeFrom place position word).finalState? = none ∧
        ∀ rest, table.outcomeFrom place position (word ++ rest) =
          table.outcomeFrom place position word := by
  induction word generalizing place position with
  | nil => exact .inl ⟨place, rfl, Outcome.finalState?_ofVerdict _ _⟩
  | cons symbol word ih =>
    cases moved : table.successor? place symbol with
    | none =>
      -- The table finds no successor before it looks at what comes after the symbol.
      have stops (later : Text) : table.outcomeFrom place position (symbol :: later) =
          .unknownSymbol position symbol (.ofIndex place) := by
        rw [outcomeFrom, walk_cons_of_none moved]
      refine .inr ⟨?_, ?_⟩
      · rw [stops]
        rfl
      · intro rest
        rw [List.cons_append, stops, stops]
    | some next =>
      have goesOn (later : Text) : table.outcomeFrom place position (symbol :: later) =
          table.outcomeFrom next (position + 1) later := by
        rw [outcomeFrom, walk_cons_of_some moved]
        rfl
      simp only [List.cons_append, goesOn, reach?_cons, moved, Option.bind_some]
      exact ih next (position + 1)

/-- A word that is followed by another is run in two parts. If the first part holds an unknown
symbol, the second makes no difference. Otherwise the first part leads to a state, and the outcome
is the one of the second part, run by the table that starts there, with the length of the first part
added to its position. That table can be built, too. -/
theorem run_in_two_parts (built : table.Built) (word rest : Text) :
    ((∃ position symbol state, table.run word = .unknownSymbol position symbol state) →
        table.run (word ++ rest) = table.run word) ∧
      ((∀ position symbol state, table.run word ≠ .unknownSymbol position symbol state) →
        ∃ state, (table.run word).finalState? = some state ∧
          (table.startingIn state).Built ∧ (table.startingIn state).startState = state ∧
          table.run (word ++ rest) = ((table.startingIn state).run rest).behind word.length) := by
  have sound := built.sound
  rcases table.reached_or_stopped table.start 0 word with
    ⟨next, reached, final⟩ | ⟨stopped, absorbed⟩
  · refine ⟨?_, ?_⟩
    · intro unknown
      rw [run_eq_outcomeFrom] at unknown
      rw [Outcome.finalState?_eq_none_iff.mpr unknown] at final
      cases final
    · intro _
      have within := State.within_ofIndex.mpr (sound.reach?_lt sound.startInside reached)
      refine ⟨_, final, built_iff_sound.mpr (sound.startingIn within), ?_, ?_⟩
      · exact State.ofIndex_index within.1
      · calc
          table.run (word ++ rest) = table.outcomeFrom next (0 + word.length) rest :=
            outcomeFrom_append reached 0 rest
          _ = (table.outcomeFrom next 0 rest).behind word.length := outcomeFrom_behind _ _ _ _
          _ = ((table.startingIn (.ofIndex next)).run rest).behind word.length := by
            rw [run_eq_outcomeFrom, outcomeFrom_startingIn, Table.startingIn, State.index_ofIndex]
  · refine ⟨?_, ?_⟩
    · intro _
      exact absorbed rest
    · intro known
      obtain ⟨position, symbol, state, unknown⟩ := Outcome.finalState?_eq_none_iff.mp stopped
      exact absurd unknown (known position symbol state)

/-- A symbol of three octets counts as one position, and a second unknown symbol is never seen. -/
theorem run_in_two_parts_over_unknown :
    let table : Table := ⟨2, 0, [1], [('a', [1, 0]), ('€', [1, 1])]⟩
    let requests : List Request :=
      [.new 2 ⟨1⟩, .call (.acceptState ⟨2⟩), .call (.addTransition 'a' [⟨2⟩, ⟨1⟩]),
        .call (.addTransition '€' [⟨2⟩, ⟨2⟩]), .build]
    (Session.answers {} requests)[4]? = some (.ok (.table table)) ∧
      table.run (['€', '€', 'a'] ++ ['a', 'x', 'y']) = .unknownSymbol 4 'x' ⟨2⟩ ∧
      table.run (['€', 'x'] ++ ['a', 'y']) = .unknownSymbol 1 'x' ⟨2⟩ := by
  intro table requests
  have handed : (Session.answers {} requests)[4]? = some (.ok (.table table)) := rfl
  have built : table.Built := ⟨requests, List.mem_of_getElem? handed⟩
  refine ⟨handed, ?_, ?_⟩
  · have ran : table.run ['€', '€', 'a'] = .rejected ⟨1⟩ := rfl
    obtain ⟨state, final, _, _, both⟩ :=
      (run_in_two_parts built ['€', '€', 'a'] ['a', 'x', 'y']).2 (by simp [ran])
    cases (congrArg Outcome.finalState? ran).symm.trans final
    exact both
  · exact (run_in_two_parts built ['€', 'x'] ['a', 'y']).1 ⟨1, 'x', ⟨2⟩, rfl⟩

end Table

end Acceptor
