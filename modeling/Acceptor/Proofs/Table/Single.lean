import Acceptor.Proofs.Table.Events
import Acceptor.Proofs.Table.Reach
/-!
A run is single transitions taken one after the other. The loop of a run has a look-up and a test of
acceptance of its own; on a built table they are the ones that anybody can ask for, state by state.
-/
namespace Acceptor.Table

inductive Progress where
  | reached (place position : Nat)
  | stopped (outcome : Outcome)
deriving DecidableEq, Repr

def advance (table : Table) (progress : Progress) (symbol : Char) : Except OutOfBounds Progress :=
  match progress with
  | .stopped outcome => .ok (.stopped outcome)
  | .reached place position => do
    match ← table.step place symbol with
    | none => return .stopped (.unknownSymbol position symbol (.ofIndex place))
    | some next => return .reached next (position + 1)

def conclude (table : Table) : Progress → Outcome
  | .stopped outcome => outcome
  | .reached place _ =>
    if table.accepts (.ofIndex place) then .accepted (.ofIndex place)
    else .rejected (.ofIndex place)

def fold (table : Table) (word : Text) : Except OutOfBounds Outcome :=
  (word.foldlM table.advance (.reached table.start 0)).map table.conclude

theorem foldlM_advance_stopped (table : Table) (outcome : Outcome) (word : Text) :
    word.foldlM table.advance (.stopped outcome) = .ok (.stopped outcome) := by
  induction word with
  | nil => rfl
  | cons symbol rest ih => exact ih

theorem accepts_ofIndex {table : Table} {place : Nat} (inside : place < table.stateCount) :
    table.accepts (.ofIndex place) = table.acceptsAt place := by
  rw [accepts_of_within (State.within_ofIndex.mpr inside), State.index_ofIndex]

/-- From a place of a state, a run and single transitions come to the same end. -/
theorem Sound.foldlM_advance {table : Table} (sound : table.Sound) {place : Nat}
    (inside : place < table.stateCount) (position : Nat) (word : Text) :
    (word.foldlM table.advance (.reached place position)).map table.conclude =
      .ok (table.outcomeFrom place position word) := by
  induction word generalizing place position with
  | nil =>
    change Except.ok (table.conclude (.reached place position)) = _
    rw [conclude, accepts_ofIndex inside]
    rfl
  | cons symbol rest ih =>
    have taken := sound.step_eq inside symbol
    rw [List.foldlM_cons, advance, outcomeFrom]
    cases moved : table.successor? place symbol with
    | none =>
      rw [taken, moved, walk_cons_of_none moved]
      exact congrArg (Except.map table.conclude) (foldlM_advance_stopped table _ rest)
    | some next =>
      rw [taken, moved, walk_cons_of_some moved]
      exact ih (sound.successor_lt moved) (position + 1)

/-- What a symbol does at a place: by its row, by the list of its successors, by a transition. -/
inductive Consistent (table : Table) (place : Nat) (symbol : Char) : Prop
  | absent (noRow : table.row? symbol = none) (noStates : table.successors? symbol = none)
      (noStep : table.step place symbol = .ok none)
  | present {row : List Nat} {states : List State} {next : Nat}
      (found : table.row? symbol = some row) (entry : row[place]? = some next)
      (listed : table.successors? symbol = some states)
      (item : states[place]? = some (.ofIndex next))
      (step : table.step place symbol = .ok (some next))

theorem Sound.consistent {table : Table} (sound : table.Sound) {place : Nat}
    (inside : place < table.stateCount) (symbol : Char) : table.Consistent place symbol := by
  have taken := sound.step_eq inside symbol
  cases found : table.row? symbol with
  | none =>
    rw [successor?_of_row_none found] at taken
    refine .absent found ?_ taken
    rw [successors?, found]
    rfl
  | some row =>
    obtain ⟨next, moved⟩ := sound.exists_successor inside (found ▸ Option.some_ne_none row)
    have entry : row[place]? = some next := successor?_of_row found place ▸ moved
    have listed : table.successors? symbol = some (row.map .ofIndex) := by
      rw [successors?, found]
      rfl
    have item : (row.map State.ofIndex)[place]? = some (.ofIndex next) := by
      rw [List.getElem?_map, entry]
      rfl
    exact .present found entry listed item (moved ▸ taken)

/-- Running over a word is folding the single transition over its symbols. The first symbol without
a transition ends both, at the same position and in the same state; where there is none, the last
place is accepted as its state is. And a single transition leads where the row of the symbol and the
list of its successors say. -/
theorem run_is_fold_of_steps {table : Table} (built : table.Built) :
    (∀ word, table.fold word = .ok (table.run word)) ∧
      ∀ place < table.stateCount, ∀ symbol, table.Consistent place symbol := by
  have sound := built.sound
  refine ⟨?_, ?_⟩
  · intro word
    exact sound.foldlM_advance sound.startInside 0 word
  · intro place inside symbol
    exact sound.consistent inside symbol

/-- A word that ends in an accept state, and one that has a symbol without a row in it. -/
theorem run_is_fold_of_steps_to_both_ends :
    let table : Table := ⟨2, 0, [1], [('a', [1, 0])]⟩
    let requests : List Request :=
      [.new 2 ⟨1⟩, .call (.addTransition 'a' [⟨2⟩, ⟨1⟩]), .call (.acceptState ⟨2⟩), .build]
    (Session.answers {} requests)[3]? = some (.ok (.table table)) ∧
      table.fold ['a'] = .ok (.accepted ⟨2⟩) ∧
      table.fold ['a', 'b', 'a'] = .ok (.unknownSymbol 1 'b' ⟨2⟩) ∧
      table.Consistent 1 'a' := by
  intro table requests
  have handed : (Session.answers {} requests)[3]? = some (.ok (.table table)) := rfl
  obtain ⟨folds, consistent⟩ := run_is_fold_of_steps ⟨requests, List.mem_of_getElem? handed⟩
  exact ⟨handed, folds ['a'], folds ['a', 'b', 'a'], consistent 1 (by decide) 'a'⟩

end Acceptor.Table
