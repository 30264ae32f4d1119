import Acceptor.Proofs.Table.Events
import Acceptor.Proofs.Table.Packed
/-!
Runs of built tables stay inside their rows. The runs of this module look at rows with a check on
every place, and stop with a complaint where an entry is missing; on a table that can be built they
never do, and they are the runs without a check. All states that are reported are states of the
table.
-/
namespace Acceptor

def Event.states : Event → List State
  | start state => [state]
  | step _ _ source target => [source, target]
  | unknown _ _ state => [state]
  | finish state _ => [state]

namespace Table

/-- Runs on as `walk` does, but a place beyond the end of a row stops the run with a complaint. -/
def checkedWalk {σ : Type} (table : Table) (observe : σ → Event → σ) :
    σ → Nat → Nat → Text → Except OutOfBounds (Outcome × σ)
  | seen, place, _, [] =>
    let verdict := table.acceptsAt place
    .ok (.ofVerdict verdict (.ofIndex place), observe seen (.finish (.ofIndex place) verdict))
  | seen, place, position, symbol :: rest =>
    match table.step place symbol with
    | .error complaint => .error complaint
    | .ok none =>
      .ok (.unknownSymbol position symbol (.ofIndex place),
        observe seen (.unknown position symbol (.ofIndex place)))
    | .ok (some next) =>
      table.checkedWalk observe
        (observe seen (.step position symbol (.ofIndex place) (.ofIndex next)))
        next (position + 1) rest

def checkedRunWith {σ : Type} (table : Table) (observe : σ → Event → σ) (seen : σ) (word : Text) :
    Except OutOfBounds (Outcome × σ) :=
  table.checkedWalk observe (observe seen (.start table.startState)) table.start 0 word

namespace Sound

variable {table : Table}

/-- The check never complains: a run only comes to places of states, and rows are complete. -/
theorem checkedWalk_eq_ok (sound : table.Sound) {σ : Type} (observe : σ → Event → σ) (seen : σ)
    {place : Nat} (inside : place < table.stateCount) (position : Nat) (word : Text) :
    table.checkedWalk observe seen place position word =
      .ok (table.walk observe seen place position word) := by
  induction word generalizing seen place position with
  | nil => rfl
  | cons symbol rest ih =>
    have looked := sound.step_eq inside symbol
    cases moved : table.successor? place symbol with
    | none =>
      rw [moved] at looked
      rw [walk_cons_of_none moved]
      simp only [checkedWalk, looked]
    | some next =>
      rw [moved] at looked
      rw [walk_cons_of_some moved]
      simp only [checkedWalk, looked]
      exact ih _ (sound.successor_lt moved) _

theorem checkedRunWith_eq_ok (sound : table.Sound) {σ : Type} (observe : σ → Event → σ) (seen : σ)
    (word : Text) :
    table.checkedRunWith observe seen word = .ok (table.runWith observe seen word) :=
  sound.checkedWalk_eq_ok observe _ sound.startInside 0 word

end Sound

theorem Path.within_of_mem_steps {table : Table} {word : Text} {state : Nat → State}
    (path : table.Path word state) (position : Nat) :
    ∀ event ∈ steps state position word, ∀ named ∈ event.states,
      named.Within table.stateCount := by
  intro event told named member
  obtain ⟨⟨symbol, passed⟩, listed, rfl⟩ := List.mem_map.mp told
  obtain ⟨bound, _⟩ := List.getElem?_eq_some_iff.mp (List.mem_zipIdx_iff_getElem?.mp listed)
  have source := path.within passed (Nat.le_of_lt bound)
  have target := path.within (passed + 1) bound
  rcases List.mem_cons.mp member with rfl | member
  · exact source
  · rw [List.mem_singleton.mp member]
    exact target

theorem Closes.states_eq {table : Table} {position : Nat} {state : State} {rest : Text}
    {closing : Event} {outcome : Outcome}
    (closes : table.Closes position state rest closing outcome) :
    closing.states = [state] ∧ outcome.lastState = state := by
  cases closes with
  | finish =>
    refine ⟨rfl, ?_⟩
    cases table.accepts state with
    | true => rfl
    | false => rfl
  | unknown absent => exact ⟨rfl, rfl⟩

theorem Sound.reported_within {table : Table} (sound : table.Sound) (word : Text) :
    (∀ event ∈ table.events word, ∀ state ∈ event.states, state.Within table.stateCount) ∧
      (table.run word).lastState.Within table.stateCount := by
  obtain ⟨known, rest, state, closing, outcome, rfl, _, path, closes, tells⟩ :=
    sound.exists_told word
  obtain ⟨ran, told⟩ := run_and_events_of_told tells
  obtain ⟨named, last⟩ := closes.states_eq
  have begun := path.within 0 (Nat.zero_le _)
  have ended := path.within known.length (Nat.le_refl _)
  rw [ran, told, last]
  refine ⟨?_, ended⟩
  rw [List.forall_mem_append, List.forall_mem_cons, List.forall_mem_singleton]
  refine ⟨⟨List.forall_mem_singleton.mpr begun, path.within_of_mem_steps 0⟩, ?_⟩
  rw [named]
  exact List.forall_mem_singleton.mpr ended

theorem Sound.one_le_of_told {table : Table} (sound : table.Sound) {word : Text} {event : Event}
    (told : event ∈ table.events word) : ∀ state ∈ event.states, 1 ≤ state.number :=
  fun state named => ((sound.reported_within word).1 event told state named).1

/-- Whatever calls a builder was given, and however many of them it refused, a table that comes out
fits its state count, and so do all its runs. A transition from the place of a state never fails, no
run looks beyond the end of a row, and all that is reported to observers and as the outcome are
states of the table. The same calls in machine words are answered alike, refusal by refusal, and the
tables that are handed over in words are those in numbers, from which nothing was cut off. -/
theorem built_stays_in_bounds :
    (∀ requests : List Packed.Request,
        (Packed.answers none requests).map (·.map Packed.told) =
            Session.answers {} (requests.map Packed.Request.named) ∧
          ∀ packed, .ok (some packed) ∈ Packed.answers none requests →
            packed.table.Built ∧ packed.Tells packed.table) ∧
      ∀ table : Table, table.Built →
        table.Sound ∧
          (∃ requests packed, .ok (some packed) ∈ Packed.answers none requests ∧
            packed.Tells table) ∧
          (∀ place < table.stateCount, ∀ symbol, ∃ next, table.step place symbol = .ok next ∧
            ∀ successor, next = some successor → successor < table.stateCount) ∧
          ∀ word,
            (∀ (σ : Type) (observe : σ → Event → σ) (seen : σ),
              table.checkedRunWith observe seen word =
                .ok (table.run word, (table.events word).foldl observe seen)) ∧
            (∀ event ∈ table.events word, ∀ state ∈ event.states,
              state.Within table.stateCount) ∧
            (table.run word).lastState.Within table.stateCount := by
  constructor
  · intro requests
    exact ⟨Packed.answers_from_empty requests, fun packed => Packed.built_of_answers⟩
  · intro table built
    have sound := built.sound
    refine ⟨sound, Packed.exists_answers built, ?_, ?_⟩
    · intro place inside symbol
      refine ⟨_, sound.step_eq inside symbol, ?_⟩
      intro successor moved
      exact sound.successor_lt moved
    · intro word
      refine ⟨?_, sound.reported_within word⟩
      intro σ observe seen
      rw [sound.checkedRunWith_eq_ok, sound.runWith_eq]

/-- A table that was built between refused calls: there is no builder at first, the start state is
negative, another state is one that there is if its lowest bits alone are looked at, a row is too
short, and a symbol is taken. -/
theorem built_stays_in_bounds_after_refusals :
    let table : Table := ⟨2, 0, [1], [('a', [1, 0])]⟩
    let requests : List Packed.Request :=
      [.call (.acceptState 2), .new 2 (-1), .new 2 1, .call (.acceptState 4294967298),
        .call (.addTransition 'a' [2]), .call (.addTransition 'a' [2, 3]),
        .call (.addTransition 'a' [2, 1]), .call (.addTransition 'a' [1, 1]),
        .call (.acceptState 2), .build]
    ((Packed.answers none requests).map (·.map Packed.told))[9]? = some (.ok (.table table)) ∧
      table.checkedRunWith (fun count _ => count + 1) 0 ['a', 'b'] =
        .ok (.unknownSymbol 1 'b' ⟨2⟩, 3) := by
  intro table requests
  obtain ⟨words, bounds⟩ := built_stays_in_bounds
  have handed : (Session.answers {} (requests.map Packed.Request.named))[9]? =
      some (.ok (.table table)) := rfl
  obtain ⟨_, _, _, runs⟩ := bounds table ⟨_, List.mem_of_getElem? handed⟩
  rw [(words requests).1, (runs ['a', 'b']).1]
  exact ⟨handed, rfl⟩

end Table

end Acceptor
