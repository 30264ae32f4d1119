import Mathlib.Data.List.Sort
import Acceptor.Proofs.Lookup
import Acceptor.Proofs.Table.Replay
import Acceptor.Table.Session
/-!
Tables that can be built. Whatever is requested of a workshop, in whatever order, and however many
requests are refused on the way, a table that is built there has only places of its own states in
it, and a complete row for every symbol. Conversely, every such table can be built.
-/
namespace Acceptor.Table

open Fallible

/-- A table that fits its own state count: all its places are places of states, and every symbol
that has a row has one row only, with an entry for each state. -/
structure Sound (table : Table) : Prop where
  countPositive : 1 ≤ table.stateCount
  countBounded : table.stateCount ≤ maxStates
  startInside : table.start < table.stateCount
  acceptingAscending : table.accepting.Pairwise (· < ·)
  acceptingInside : ∀ place ∈ table.accepting, place < table.stateCount
  symbolsDistinct : table.alphabet.Nodup
  rowsComplete : ∀ row ∈ table.rows, row.2.length = table.stateCount
  rowsInside : ∀ row ∈ table.rows, ∀ place ∈ row.2, place < table.stateCount

namespace Sound

variable {table : Table} {place : Nat} {symbol : Char} {row : List Nat}

theorem row?_eq_some_iff (sound : table.Sound) :
    table.row? symbol = some row ↔ (symbol, row) ∈ table.rows :=
  Lookup.lookup_eq_some_iff_mem sound.symbolsDistinct

/-- No place of a state is beyond the end of a row. -/
theorem step_eq (sound : table.Sound) (inside : place < table.stateCount) (symbol : Char) :
    table.step place symbol = .ok (table.successor? place symbol) := by
  cases found : table.row? symbol with
  | none => rw [step_of_row_none found, successor?_of_row_none found]
  | some row =>
    have complete := sound.rowsComplete _ (sound.row?_eq_some_iff.mp found)
    exact step_eq_successor found (complete ▸ inside)

theorem successor_lt (sound : table.Sound) {next : Nat}
    (moved : table.successor? place symbol = some next) : next < table.stateCount := by
  obtain ⟨row, found, entry⟩ := Option.bind_eq_some_iff.mp moved
  exact sound.rowsInside _ (sound.row?_eq_some_iff.mp found) next (List.mem_of_getElem? entry)

theorem exists_successor (sound : table.Sound) (inside : place < table.stateCount)
    (known : table.row? symbol ≠ none) : ∃ next, table.successor? place symbol = some next := by
  obtain ⟨row, found⟩ := Option.ne_none_iff_exists'.mp known
  have complete : row.length = table.stateCount :=
    sound.rowsComplete _ (sound.row?_eq_some_iff.mp found)
  have bound : place < row.length := complete ▸ inside
  refine ⟨row[place], ?_⟩
  rw [successor?_of_row found, List.getElem?_eq_getElem bound]

end Sound

/-- A table that is handed over in some session with a workshop that was empty at first. -/
def Built (table : Table) : Prop :=
  ∃ requests : List Request, .ok (.table table) ∈ Session.answers {} requests

namespace Builder

theorem hasSymbol_eq_false_iff {builder : Builder} {symbol : Char} :
    builder.hasSymbol symbol = false ↔ symbol ∉ builder.build.alphabet := by
  rw [hasSymbol, Option.isSome_eq_false_iff, Option.isNone_iff_eq_none]
  exact Lookup.lookup_eq_none_iff_notMem

theorem sound_new {count : Nat} {start : State} {builder : Builder}
    (taken : new count start = .ok builder) : builder.build.Sound := by
  obtain ⟨bounded, within, rfl⟩ := new_eq_ok_iff.mp taken
  refine ⟨bounded.1, bounded.2, within.index_lt, Ascending.pairwise_ofList _, ?_, ?_, ?_, ?_⟩
  · simp [build, Ascending.ofList]
  · simp [build, alphabet]
  · simp [build]
  · simp [build]

theorem sound_acceptState {builder next : Builder} {state : State} (sound : builder.build.Sound)
    (taken : builder.acceptState state = .ok next) : next.build.Sound := by
  obtain ⟨within, rfl⟩ := acceptState_eq_ok_iff.mp taken
  refine ⟨sound.countPositive, sound.countBounded, sound.startInside,
    Ascending.pairwise_ofList _, ?_, sound.symbolsDistinct, sound.rowsComplete, sound.rowsInside⟩
  intro place listed
  rcases List.mem_append.mp (Ascending.mem_ofList.mp listed) with before | marked
  · exact sound.acceptingInside place (Ascending.mem_ofList.mpr before)
  · rw [List.mem_singleton.mp marked]
    exact within.index_lt

theorem sound_addTransition {builder next : Builder} {symbol : Char} {successors : List State}
    (sound : builder.build.Sound) (taken : builder.addTransition symbol successors = .ok next) :
    next.build.Sound := by
  obtain ⟨fresh, complete, within, rfl⟩ := addTransition_eq_ok_iff.mp taken
  have absent := hasSymbol_eq_false_iff.mp fresh
  refine ⟨sound.countPositive, sound.countBounded, sound.startInside, sound.acceptingAscending,
    sound.acceptingInside, ?_, ?_, ?_⟩
  · simp only [build, alphabet, List.map_append, List.map_singleton]
    apply List.nodup_append.mpr
    refine ⟨sound.symbolsDistinct, List.nodup_singleton symbol, ?_⟩
    intro other listed last member same
    rw [List.mem_singleton.mp member] at same
    exact absent (same ▸ listed)
  · intro row listed
    rcases List.mem_append.mp listed with before | added
    · exact sound.rowsComplete row before
    · rw [List.mem_singleton.mp added]
      exact (List.length_map _).trans complete
  · intro row listed place member
    rcases List.mem_append.mp listed with before | added
    · exact sound.rowsInside row before place member
    · rw [List.mem_singleton.mp added] at member
      obtain ⟨state, declared, rfl⟩ := List.mem_map.mp member
      exact (within state declared).index_lt

theorem sound_apply {builder next : Builder} {call : Call} (sound : builder.build.Sound)
    (taken : builder.apply call = .ok next) : next.build.Sound := by
  cases call with
  | acceptState state => exact sound_acceptState sound taken
  | addTransition symbol successors => exact sound_addTransition sound taken

end Builder

namespace Session

theorem needBuilder_eq_ok_iff {session : Session} {builder : Builder} :
    session.needBuilder = .ok builder ↔ session.builder = some builder := by
  cases held : session.builder with
  | none => simp [needBuilder, held]
  | some other => simp [needBuilder, held]

theorem answer_ne_table (table : Table) (query : Query) (other : Table) :
    query.answer table ≠ .ok (.table other) := by
  cases query with
  | step place symbol =>
    simp only [Query.answer]
    cases table.step place symbol with
    | error complaint =>
      intro same
      cases same
    | ok next =>
      intro same
      cases same
  | _ => simp [Query.answer]

/-- A request that is met brings a new builder, changes the one that is there, turns it into a
table, or only reads. -/
theorem meet_cases {session next : Session} {request : Request} {answer : Answer}
    (met : session.meet request = .ok (next, answer)) :
    (∃ count start builder, Builder.new count start = .ok builder ∧
        next = { session with builder := some builder } ∧ answer = .done) ∨
      (∃ call builder taken, session.builder = some builder ∧ builder.apply call = .ok taken ∧
        next = { session with builder := some taken } ∧ answer = .done) ∨
      (∃ builder, session.builder = some builder ∧ next = ⟨none, some builder.build⟩ ∧
        answer = .table builder.build) ∨
      next = session ∧ ∀ table, answer ≠ .table table := by
  cases request with
  | new count start =>
    obtain ⟨builder, made, same⟩ := bind_eq_ok_iff.mp met
    cases same
    exact .inl ⟨count, start, builder, mapError_eq_ok_iff.mp made, rfl, rfl⟩
  | call call =>
    obtain ⟨builder, held, later⟩ := bind_eq_ok_iff.mp met
    obtain ⟨taken, applied, same⟩ := bind_eq_ok_iff.mp later
    cases same
    exact .inr (.inl ⟨call, builder, taken, needBuilder_eq_ok_iff.mp held,
      mapError_eq_ok_iff.mp applied, rfl, rfl⟩)
  | hasSymbol symbol =>
    obtain ⟨builder, _, same⟩ := bind_eq_ok_iff.mp met
    cases same
    exact .inr (.inr (.inr ⟨rfl, by simp⟩))
  | builderStateCount =>
    obtain ⟨builder, _, same⟩ := bind_eq_ok_iff.mp met
    cases same
    exact .inr (.inr (.inr ⟨rfl, by simp⟩))
  | build =>
    obtain ⟨builder, held, same⟩ := bind_eq_ok_iff.mp met
    cases same
    exact .inr (.inr (.inl ⟨builder, needBuilder_eq_ok_iff.mp held, rfl, rfl⟩))
  | query query =>
    obtain ⟨table, _, later⟩ := bind_eq_ok_iff.mp met
    obtain ⟨answer, answered, same⟩ := bind_eq_ok_iff.mp later
    cases same
    refine .inr (.inr (.inr ⟨rfl, ?_⟩))
    intro other handed
    exact answer_ne_table table query other (handed ▸ answered)

/-- A session whose builder, if there is one, would build a sound table. -/
def Sound (session : Session) : Prop :=
  ∀ builder, session.builder = some builder → builder.build.Sound

theorem meet_sound {session next : Session} {request : Request} {answer : Answer}
    (sound : session.Sound) (met : session.meet request = .ok (next, answer)) :
    next.Sound ∧ ∀ table, answer = .table table → table.Sound := by
  rcases meet_cases met with ⟨count, start, builder, made, rfl, rfl⟩ |
    ⟨call, builder, taken, held, applied, rfl, rfl⟩ | ⟨builder, held, rfl, rfl⟩ | ⟨rfl, other⟩
  · refine ⟨?_, by simp⟩
    intro current same
    cases same
    exact Builder.sound_new made
  · refine ⟨?_, by simp⟩
    intro current same
    cases same
    exact Builder.sound_apply (sound builder held) applied
  · refine ⟨?_, ?_⟩
    · intro other same
      cases same
    · intro table same
      cases same
      exact sound builder held
  · refine ⟨sound, ?_⟩
    intro table same
    exact absurd same (other table)

/-- Refused requests are passed over, so that the invariant is carried along any session. -/
theorem answers_sound {session : Session} (sound : session.Sound) {requests : List Request}
    {table : Table} (handed : .ok (.table table) ∈ session.answers requests) : table.Sound := by
  induction requests generalizing session with
  | nil => cases handed
  | cons request rest ih =>
    rw [answers] at handed
    cases met : session.meet request with
    | error complaint =>
      rw [answer_of_error met] at handed
      rcases List.mem_cons.mp handed with same | later
      · cases same
      · exact ih sound later
    | ok result =>
      obtain ⟨next, given⟩ := result
      obtain ⟨nextSound, handedSound⟩ := meet_sound sound met
      rw [answer_of_ok met] at handed
      rcases List.mem_cons.mp handed with same | later
      · cases same
        exact handedSound table rfl
      · exact ih nextSound later

end Session

theorem Built.sound {table : Table} (built : table.Built) : table.Sound := by
  obtain ⟨requests, handed⟩ := built
  have empty : Session.Sound {} := by
    intro builder held
    cases held
  exact Session.answers_sound empty handed

/-- A builder that takes all calls is built in the session that requests them one by one. -/
theorem Session.handed_of_calls {builder final : Builder} {calls : List Builder.Call}
    (taken : calls.foldlM Builder.apply builder = .ok final) (table : Option Table) :
    .ok (.table final.build) ∈
      Session.answers ⟨some builder, table⟩ (calls.map .call ++ [.build]) := by
  induction calls generalizing builder with
  | nil =>
    cases taken
    exact List.mem_singleton_self _
  | cons call calls ih =>
    obtain ⟨next, applied, later⟩ := bind_eq_ok_iff.mp taken
    have met : Session.meet ⟨some builder, table⟩ (.call call) =
        .ok (⟨some next, table⟩, .done) := by
      rw [meet_call, applied]
      rfl
    rw [List.map_cons, List.cons_append, answers, answer_of_ok met]
    exact List.mem_cons_of_mem _ (ih later)

theorem built_of_replay {count : Nat} {start : State} {calls : List Builder.Call}
    {builder : Builder} (taken : Builder.replay count start calls = .ok builder) :
    builder.build.Built := by
  obtain ⟨fresh, made, later⟩ := bind_eq_ok_iff.mp taken
  have met : Session.meet {} (.new count start) = .ok (⟨some fresh, none⟩, .done) :=
    bind_eq_ok_iff.mpr ⟨fresh, mapError_eq_ok_iff.mpr made, rfl⟩
  refine ⟨.new count start :: (calls.map .call ++ [.build]), ?_⟩
  rw [Session.answers, Session.answer_of_ok met]
  exact List.mem_cons_of_mem _ (Session.handed_of_calls later none)

theorem Ascending.ofList_of_pairwise {items : List Nat} (ascending : items.Pairwise (· < ·)) :
    ofList items = items := by
  apply (pairwise_ofList items).eq_of_mem_iff ascending
  intro item
  exact mem_ofList

def calls (table : Table) : List Builder.Call :=
  table.accepting.map (fun place => .acceptState (.ofIndex place)) ++
    table.rows.map fun (symbol, row) => .addTransition symbol (row.map .ofIndex)

theorem accepted_calls (table : Table) :
    Builder.accepted table.calls = table.accepting.map .ofIndex := by
  simp [Builder.accepted, calls, List.filterMap_map, Function.comp_def, Builder.Call.accepted?]

theorem declared_calls (table : Table) :
    Builder.declared table.calls =
      table.rows.map fun (symbol, row) => (symbol, row.map .ofIndex) := by
  simp [Builder.declared, calls, List.filterMap_map, Function.comp_def, Builder.Call.declared?]

theorem Sound.fits_calls {table : Table} (sound : table.Sound) :
    Builder.Fits table.stateCount table.calls := by
  refine ⟨?_, ?_, ?_, ?_⟩
  · rw [accepted_calls, List.forall_mem_map]
    intro place listed
    exact State.within_ofIndex.mpr (sound.acceptingInside place listed)
  · rw [declared_calls, List.forall_mem_map]
    intro row listed
    exact (List.length_map _).trans (sound.rowsComplete row listed)
  · rw [declared_calls, List.forall_mem_map]
    intro row listed
    rw [List.forall_mem_map]
    intro place member
    exact State.within_ofIndex.mpr (sound.rowsInside row listed place member)
  · rw [declared_calls, List.map_map]
    exact sound.symbolsDistinct

theorem map_index_ofIndex (places : List Nat) :
    (places.map State.ofIndex).map State.index = places := by
  rw [List.map_map]
  exact List.map_id'' State.index_ofIndex places

theorem map_ofIndex_index {count : Nat} {states : List State}
    (within : ∀ state ∈ states, state.Within count) :
    (states.map State.index).map State.ofIndex = states := by
  rw [List.map_map]
  refine (List.map_congr_left ?_).trans (List.map_id _)
  intro state member
  exact State.ofIndex_index (within state member).1

theorem Sound.build_after_calls {table : Table} (sound : table.Sound) :
    ((⟨table.stateCount, table.start, [], []⟩ : Builder).after table.calls).build = table := by
  unfold Builder.after Builder.build
  rw [accepted_calls, declared_calls, List.nil_append, List.nil_append, map_index_ofIndex,
    Ascending.ofList_of_pairwise sound.acceptingAscending, List.map_map]
  apply congrArg (Table.mk table.stateCount table.start table.accepting)
  apply List.map_id''
  intro row
  exact Prod.ext rfl (map_index_ofIndex row.2)

theorem Sound.exists_replay {table : Table} (sound : table.Sound) :
    ∃ builder, Builder.replay table.stateCount (.ofIndex table.start) table.calls = .ok builder ∧
      builder.build = table := by
  refine ⟨_, ?_, sound.build_after_calls⟩
  apply Builder.replay_eq_ok_iff.mpr
  refine ⟨⟨sound.countPositive, sound.countBounded⟩,
    State.within_ofIndex.mpr sound.startInside, sound.fits_calls, ?_⟩
  rw [State.index_ofIndex]

/-- The invariant leaves nothing out: the sound tables are the ones that can be built. -/
theorem built_iff_sound {table : Table} : table.Built ↔ table.Sound := by
  constructor
  · exact Built.sound
  · intro sound
    obtain ⟨builder, replayed, rfl⟩ := sound.exists_replay
    exact built_of_replay replayed

end Acceptor.Table
