import Acceptor.Proofs.Table.Sound
import Acceptor.Run
/-!
When built tables are the same automaton. They are if they agree on every question that names
states and symbols, in whatever order their rows stand; and then they run alike over every word.
-/
namespace Acceptor.Table

theorem same_eq_true_iff {first second : Table} :
    first.same second = true ↔
      first.stateCount = second.stateCount ∧ first.start = second.start ∧
        first.accepting = second.accepting ∧ first.rows.length = second.rows.length ∧
        ∀ row ∈ first.rows, second.row? row.1 = some row.2 := by
  simp [same, and_assoc]

theorem Sound.rows_nodup {table : Table} (sound : table.Sound) : table.rows.Nodup :=
  List.Nodup.of_map Prod.fst sound.symbolsDistinct

section Pair

variable {first second : Table}

/-- As many rows that are all found in the other table are the rows of the other table. -/
theorem rows_found_iff_perm (one : first.Sound) (two : second.Sound) :
    (first.rows.length = second.rows.length ∧
        ∀ row ∈ first.rows, second.row? row.1 = some row.2) ↔ first.rows.Perm second.rows := by
  constructor
  · intro found
    obtain ⟨length, present⟩ := found
    -- Rows without repeats that are all in a list as long as theirs are all that is in it.
    have contained : first.rows ⊆ second.rows := by
      intro row listed
      exact two.row?_eq_some_iff.mp (present row listed)
    have subperm := List.subperm_of_subset one.rows_nodup contained
    exact subperm.perm_of_length_le (Nat.le_of_eq length.symm)
  · intro perm
    refine ⟨perm.length_eq, ?_⟩
    intro row listed
    exact two.row?_eq_some_iff.mpr (perm.mem_iff.mp listed)

theorem perm_rows_iff (one : first.Sound) (two : second.Sound) :
    first.rows.Perm second.rows ↔ ∀ symbol, first.row? symbol = second.row? symbol := by
  constructor
  · intro perm symbol
    apply Option.ext
    intro row
    rw [one.row?_eq_some_iff, two.row?_eq_some_iff]
    exact perm.mem_iff
  · intro alike
    apply (List.perm_ext_iff_of_nodup one.rows_nodup two.rows_nodup).mpr
    intro row
    rw [← one.row?_eq_some_iff, ← two.row?_eq_some_iff, alike]

theorem ofIndex_injective : Function.Injective State.ofIndex :=
  Function.LeftInverse.injective State.index_ofIndex

theorem successors?_eq_iff (symbol : Char) :
    first.successors? symbol = second.successors? symbol ↔
      first.row? symbol = second.row? symbol := by
  have injective : Function.Injective (List.map State.ofIndex) :=
    List.map_injective_iff.mpr ofIndex_injective
  exact (Option.map_injective injective).eq_iff

theorem acceptStates_alike_iff (one : first.Sound) (two : second.Sound) :
    (∀ state, state ∈ first.acceptStates ↔ state ∈ second.acceptStates) ↔
      first.accepting = second.accepting := by
  constructor
  · intro alike
    apply one.acceptingAscending.eq_of_mem_iff two.acceptingAscending
    intro place
    have named := alike (.ofIndex place)
    unfold acceptStates at named
    rw [List.mem_map_of_injective ofIndex_injective,
      List.mem_map_of_injective ofIndex_injective] at named
    exact named
  · intro equal state
    unfold acceptStates
    rw [equal]

/-- Tables are the same exactly if they have as many states, start alike, accept the same states,
and have the same successors for every symbol. -/
theorem same_iff (one : first.Sound) (two : second.Sound) :
    first.same second = true ↔
      first.stateCount = second.stateCount ∧ first.startState = second.startState ∧
        (∀ state, state ∈ first.acceptStates ↔ state ∈ second.acceptStates) ∧
        ∀ symbol, first.successors? symbol = second.successors? symbol := by
  have start : first.startState = second.startState ↔ first.start = second.start :=
    ofIndex_injective.eq_iff
  simp only [same_eq_true_iff, rows_found_iff_perm one two, perm_rows_iff one two,
    acceptStates_alike_iff one two, successors?_eq_iff, start]

/-- What a run does is decided by the accept states and by the rows that are found. -/
theorem walk_congr (accepting : first.accepting = second.accepting)
    (rows : ∀ symbol, first.row? symbol = second.row? symbol) {σ : Type} (observe : σ → Event → σ)
    (seen : σ) (place position : Nat) (word : Text) :
    first.walk observe seen place position word = second.walk observe seen place position word := by
  induction word generalizing seen place position with
  | nil =>
    rw [walk_nil, walk_nil, acceptsAt, acceptsAt, accepting]
  | cons symbol rest ih =>
    have step : first.successor? place symbol = second.successor? place symbol := by
      rw [successor?, successor?, rows]
    cases moved : second.successor? place symbol with
    | none => rw [walk_cons_of_none moved, walk_cons_of_none (step.trans moved)]
    | some next =>
      rw [walk_cons_of_some moved, walk_cons_of_some (step.trans moved)]
      exact ih _ next _

theorem runWith_eq_of_same (one : first.Sound) (two : second.Sound)
    (same : first.same second = true) {σ : Type} (observe : σ → Event → σ) (seen : σ)
    (word : Text) : first.runWith observe seen word = second.runWith observe seen word := by
  obtain ⟨_, start, accepting, found⟩ := same_eq_true_iff.mp same
  have rows := (perm_rows_iff one two).mp ((rows_found_iff_perm one two).mp found)
  unfold runWith startState
  rw [start]
  exact walk_congr accepting rows observe _ _ _ word

end Pair

end Acceptor.Table
