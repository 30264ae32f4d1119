import Acceptor.Proofs.Table.Sound
import Acceptor.Run
/-!
What observers are told of a run. A run reads symbols as long as they have a row, and it tells its
observer the states that it passes, one transition after the other, until a single last event says
how it ended. The outcome is the one of that event, whoever observes the run.
-/
namespace Acceptor.Table

/-- States chained by the transitions on the symbols of a word: one before each symbol, and one
after the last. -/
structure Path (table : Table) (word : Text) (state : Nat → State) : Prop where
  within : ∀ passed ≤ word.length, (state passed).Within table.stateCount
  moves : ∀ passed symbol, word[passed]? = some symbol →
    table.step (state passed).index symbol = .ok (some (state (passed + 1)).index)

/-- The last event and the outcome of a run that has come to a position and a state, by what is
left of the word. -/
inductive Closes (table : Table) (position : Nat) (state : State) : Text → Event → Outcome → Prop
  | finish : table.Closes position state [] (.finish state (table.accepts state))
      (.ofVerdict (table.accepts state) state)
  | unknown {symbol : Char} {rest : Text} (absent : table.row? symbol = none) :
      table.Closes position state (symbol :: rest) (.unknown position symbol state)
        (.unknownSymbol position symbol state)

def steps (state : Nat → State) (position : Nat) (word : Text) : List Event :=
  word.zipIdx.map fun (symbol, passed) =>
    .step (position + passed) symbol (state passed) (state (passed + 1))

theorem steps_cons (state : Nat → State) (position : Nat) (symbol : Char) (rest : Text) :
    steps state position (symbol :: rest) =
      .step position symbol (state 0) (state 1) ::
        steps (fun passed => state (passed + 1)) (position + 1) rest := by
  unfold steps
  rw [List.zipIdx_cons', List.map_cons, List.map_map]
  congr 2
  funext entry
  have later : position + (entry.2 + 1) = position + 1 + entry.2 := by omega
  simp only [Function.comp_apply, Prod.map_fst, Prod.map_snd, id_eq, later]

theorem steps_zero (state : Nat → State) (word : Text) :
    steps state 0 word =
      word.zipIdx.map fun (symbol, position) =>
        .step position symbol (state position) (state (position + 1)) := by
  unfold steps
  simp only [Nat.zero_add]

theorem step_eq_ok_some_iff {table : Table} {place next : Nat} {symbol : Char} :
    table.step place symbol = .ok (some next) ↔ table.successor? place symbol = some next := by
  cases found : table.row? symbol with
  | none => simp [step_of_row_none found, successor?_of_row_none found]
  | some row =>
    rw [successor?_of_row found]
    cases entry : row[place]? with
    | none => simp [step, found, entry]
    | some other => simp [step, found, entry]

theorem accepts_of_within {table : Table} {state : State} (within : state.Within table.stateCount) :
    table.accepts state = table.acceptsAt state.index := by
  simp [accepts, within]

namespace Path

variable {table : Table} {word : Text} {state : Nat → State}

theorem tail {symbol : Char} (path : table.Path (symbol :: word) state) :
    table.Path word (fun passed => state (passed + 1)) := by
  refine ⟨?_, ?_⟩
  · intro passed bound
    exact path.within (passed + 1) (Nat.succ_le_succ bound)
  · intro passed other found
    exact path.moves (passed + 1) other found

/-- An observer of a path is told its transitions, and the run goes on from its end. -/
theorem walk_append {σ : Type} (path : table.Path word state) (observe : σ → Event → σ) (seen : σ)
    (position : Nat) (rest : Text) :
    table.walk observe seen (state 0).index position (word ++ rest) =
      table.walk observe ((steps state position word).foldl observe seen)
        (state word.length).index (position + word.length) rest := by
  -- The rest of a path is a path from its second state, one position later.
  induction word generalizing state seen position with
  | nil => rfl
  | cons symbol word ih =>
    have moved := step_eq_ok_some_iff.mp (path.moves 0 symbol rfl)
    have source := State.ofIndex_index (path.within 0 (Nat.zero_le _)).1
    have target := State.ofIndex_index (path.within 1 (Nat.succ_le_succ (Nat.zero_le _))).1
    have length : position + 1 + word.length = position + (symbol :: word).length := by
      rw [List.length_cons]
      omega
    rw [List.cons_append, walk_cons_of_some moved, source, target, ih path.tail, steps_cons,
      List.foldl_cons, length]
    rfl

end Path

theorem Sound.exists_path {table : Table} (sound : table.Sound) {place : Nat}
    (inside : place < table.stateCount) {word : Text}
    (known : ∀ symbol ∈ word, table.row? symbol ≠ none) :
    ∃ state, state 0 = .ofIndex place ∧ table.Path word state := by
  induction word generalizing place with
  | nil =>
    refine ⟨fun _ => .ofIndex place, rfl, ?_, ?_⟩
    · intro passed _
      exact State.within_ofIndex.mpr inside
    · intro passed symbol found
      cases found
  | cons symbol rest ih =>
    obtain ⟨here, later⟩ := List.forall_mem_cons.mp known
    obtain ⟨next, moved⟩ := sound.exists_successor inside here
    obtain ⟨state, begun, path⟩ := ih (sound.successor_lt moved) later
    -- The path goes on from the successor, with the state at hand put before it.
    refine ⟨fun passed => Nat.casesOn passed (.ofIndex place) state, rfl, ?_, ?_⟩
    · intro passed bound
      cases passed with
      | zero => exact State.within_ofIndex.mpr inside
      | succ passed => exact path.within passed (Nat.le_of_succ_le_succ bound)
    · intro passed other found
      cases passed with
      | zero =>
        cases found
        change table.step (State.ofIndex place).index symbol = .ok (some (state 0).index)
        rw [begun, State.index_ofIndex, State.index_ofIndex]
        exact step_eq_ok_some_iff.mpr moved
      | succ passed => exact path.moves passed other found

theorem known_or_split (table : Table) (word : Text) :
    (∀ symbol ∈ word, table.row? symbol ≠ none) ∨
      ∃ known symbol rest, word = known ++ symbol :: rest ∧
        (∀ earlier ∈ known, table.row? earlier ≠ none) ∧ table.row? symbol = none := by
  cases first : word.find? (table.row? · = none) with
  | none => exact .inl (by simpa using first)
  | some symbol =>
    obtain ⟨absent, known, rest, split, earlier⟩ := List.find?_eq_some_iff_append.mp first
    exact .inr ⟨known, symbol, rest, split, by simpa using earlier, by simpa using absent⟩

theorem walk_of_closes {table : Table} {position : Nat} {state : State} {rest : Text}
    {closing : Event} {outcome : Outcome} (within : state.Within table.stateCount)
    (closes : table.Closes position state rest closing outcome) {σ : Type}
    (observe : σ → Event → σ) (seen : σ) :
    table.walk observe seen state.index position rest = (outcome, observe seen closing) := by
  have same := State.ofIndex_index within.1
  cases closes with
  | finish => rw [walk_nil, same, accepts_of_within within]
  | unknown absent => rw [walk_cons_of_none (successor?_of_row_none absent _), same]

/-- A run over a word: the part that is read, the states on the way, and how the run closes. It is
the same for all observers. -/
theorem Sound.exists_told {table : Table} (sound : table.Sound) (word : Text) :
    ∃ known rest state closing outcome, word = known ++ rest ∧ state 0 = table.startState ∧
      table.Path known state ∧
      table.Closes known.length (state known.length) rest closing outcome ∧
      ∀ (σ : Type) (observe : σ → Event → σ) (seen : σ),
        table.runWith observe seen word =
          (outcome, (.start (state 0) :: steps state 0 known ++ [closing]).foldl observe seen) := by
  have split : ∃ known rest, word = known ++ rest ∧
      (∀ symbol ∈ known, table.row? symbol ≠ none) ∧
      ∀ state : State, ∃ closing outcome, table.Closes known.length state rest closing outcome := by
    rcases table.known_or_split word with known | ⟨known, symbol, rest, rfl, earlier, absent⟩
    · exact ⟨word, [], (List.append_nil word).symm, known, fun _ => ⟨_, _, .finish⟩⟩
    · exact ⟨known, symbol :: rest, rfl, earlier, fun _ => ⟨_, _, .unknown absent⟩⟩
  obtain ⟨known, rest, rfl, declared, closing⟩ := split
  obtain ⟨state, begun, path⟩ := sound.exists_path sound.startInside declared
  obtain ⟨closing, outcome, closes⟩ := closing (state known.length)
  refine ⟨known, rest, state, closing, outcome, rfl, begun, path, closes, ?_⟩
  intro σ observe seen
  have place : table.start = (state 0).index := by rw [begun, State.index_ofIndex]
  have start : table.startState = state 0 := begun.symm
  rw [runWith, start, place, path.walk_append, Nat.zero_add,
    walk_of_closes (path.within _ (Nat.le_refl _)) closes, List.foldl_append, List.foldl_cons,
    List.foldl_cons, List.foldl_nil]

theorem run_and_events_of_told {table : Table} {word : Text} {outcome : Outcome}
    {told : List Event} (tells : ∀ (σ : Type) (observe : σ → Event → σ) (seen : σ),
      table.runWith observe seen word = (outcome, told.foldl observe seen)) :
    table.run word = outcome ∧ table.events word = told := by
  refine ⟨?_, ?_⟩
  · rw [run, tells]
  · rw [events, tells]
    simp

/-- Every observer is told the events of the run, and none changes the outcome. -/
theorem Sound.runWith_eq {table : Table} (sound : table.Sound) {σ : Type} (observe : σ → Event → σ)
    (seen : σ) (word : Text) :
    table.runWith observe seen word = (table.run word, (table.events word).foldl observe seen) := by
  obtain ⟨known, rest, state, closing, outcome, _, _, _, _, tells⟩ := sound.exists_told word
  obtain ⟨ran, told⟩ := run_and_events_of_told tells
  rw [tells, ran, told]

/-- All observers are told the same story, and none of them changes the outcome. It begins with the
start state; then come the transitions over the part of the word that is read, each from the state
that the one before led to; and it closes with one event, which agrees with the outcome. -/
theorem observers_told_alike {table : Table} (built : table.Built) (word : Text) :
    (∀ (σ : Type) (observe : σ → Event → σ) (seen : σ),
      table.runWith observe seen word =
        (table.run word, (table.events word).foldl observe seen)) ∧
      ∃ known rest state closing, word = known ++ rest ∧ state 0 = table.startState ∧
        table.Path known state ∧
        table.Closes known.length (state known.length) rest closing (table.run word) ∧
        table.events word =
          .start (state 0) ::
            (known.zipIdx.map fun (symbol, position) =>
              .step position symbol (state position) (state (position + 1))) ++
            [closing] := by
  obtain ⟨known, rest, state, closing, outcome, split, begun, path, closes, tells⟩ :=
    built.sound.exists_told word
  obtain ⟨ran, told⟩ := run_and_events_of_told tells
  refine ⟨?_, known, rest, state, closing, split, begun, path, ?_, ?_⟩
  · intro σ observe seen
    exact built.sound.runWith_eq observe seen word
  · rw [ran]
    exact closes
  · rw [told, steps_zero]

/-- An observer that counts what it is told, of a word that is not read to its end. -/
theorem observers_told_alike_up_to_unknown :
    let table : Table := ⟨2, 0, [1], [('a', [1, 0])]⟩
    let requests : List Request :=
      [.new 2 ⟨1⟩, .call (.acceptState ⟨2⟩), .call (.addTransition 'a' [⟨2⟩, ⟨1⟩]), .build]
    (Session.answers {} requests)[3]? = some (.ok (.table table)) ∧
      table.runWith (fun count _ => count + 1) 0 ['a', 'b', 'a'] =
        (.unknownSymbol 1 'b' ⟨2⟩, 3) := by
  intro table requests
  have handed : (Session.answers {} requests)[3]? = some (.ok (.table table)) := rfl
  have alike := observers_told_alike ⟨requests, List.mem_of_getElem? handed⟩ ['a', 'b', 'a']
  refine ⟨handed, ?_⟩
  rw [alike.1]
  rfl

end Acceptor.Table
