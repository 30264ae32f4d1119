import Acceptor.Description.Machine
import Acceptor.Proofs.Compile.Agreement
import Acceptor.Proofs.Table.Reach
/-!
A compiled table does what its description declares. States become places and every symbol a row of
its own; a path through the table is the path through the declared groups, state by state.
-/
namespace Acceptor

open Description (Validated)
open Table (Ascending.mem_ofList)

/-- The row of a symbol is the one of the first group that holds it. -/
theorem lookup_rowsFor (groups : List Group) (symbol : Char) :
    (rowsFor groups).lookup symbol =
      (groups.find? (·.symbols.contains symbol)).map Group.outputs := by
  induction groups with
  | nil => rfl
  | cons group groups ih =>
    rw [rowsFor, List.flatMap_cons, List.lookup_append, Lookup.lookup_map_const,
      List.find?_cons]
    by_cases held : symbol ∈ group.symbols
    · simp [held]
    · simp only [held, if_false, Option.none_or, List.contains_eq_mem, decide_false]
      simpa [rowsFor] using ih

theorem row?_eq_lookup (automaton : Validated) (symbol : Char) :
    (builderOf automaton).build.row? symbol =
      ((rowsFor automaton.groups).lookup symbol).map (·.map State.index) :=
  Lookup.lookup_map_entry _ _ symbol

theorem row?_builderOf (automaton : Validated) (symbol : Char) :
    (builderOf automaton).build.row? symbol =
      (automaton.group? symbol).map (·.outputs.map State.index) := by
  rw [row?_eq_lookup, lookup_rowsFor, Option.map_map, Validated.group?]
  rfl

theorem successor?_builderOf (automaton : Validated) (state : State) (symbol : Char) :
    (builderOf automaton).build.successor? state.index symbol =
      (automaton.move? state symbol).map State.index := by
  rw [Table.successor?, row?_builderOf, Validated.move?]
  cases automaton.group? symbol with
  | none => rfl
  | some group => exact List.getElem?_map

theorem reach?_builderOf (automaton : Validated) (state : State) (word : Text) :
    (builderOf automaton).build.reach? state.index word =
      (automaton.reach? state word).map State.index := by
  induction word generalizing state with
  | nil => rfl
  | cons symbol rest ih =>
    have declared : automaton.reach? state (symbol :: rest) =
        (automaton.move? state symbol).bind (automaton.reach? · rest) := by
      simp [Validated.reach?, List.foldlM_cons]
    rw [Table.reach?_cons, successor?_builderOf, declared]
    cases automaton.move? state symbol with
    | none => rfl
    | some next => exact ih next

section Checked

variable {description : Description} {automaton : Validated}

theorem group?_eq_none_iff (checked : description.check = .ok automaton) {symbol : Char} :
    automaton.group? symbol = none ↔ symbol ∉ description.symbols := by
  obtain ⟨_, _, groups⟩ := Description.check_eq_ok_iff.mp checked
  simp [Validated.group?, Description.symbols, groups]

theorem move?_of_declared (checked : description.check = .ok automaton) {state : State}
    {symbol : Char} (within : state.Within automaton.stateCount)
    (declared : symbol ∈ description.symbols) :
    ∃ next, automaton.move? state symbol = some next ∧ next.Within automaton.stateCount := by
  obtain ⟨formed, _, groups⟩ := Description.check_eq_ok_iff.mp checked
  cases found : automaton.group? symbol with
  | none => exact absurd declared ((group?_eq_none_iff checked).mp found)
  | some group =>
    have member : group ∈ description.groups := groups ▸ List.mem_of_find?_eq_some found
    have bound : state.index < group.outputs.length := by
      rw [formed.outputsComplete group member]
      exact within.index_lt
    have moved : automaton.move? state symbol = some group.outputs[state.index] := by
      simp only [Validated.move?, found, Option.bind_some, List.getElem?_eq_getElem bound]
    exact ⟨_, moved, formed.outputsWithin group member _ (List.getElem_mem bound)⟩

theorem reach?_of_declared (checked : description.check = .ok automaton) {state : State}
    {word : Text} (within : state.Within automaton.stateCount)
    (declared : ∀ symbol ∈ word, symbol ∈ description.symbols) :
    ∃ last, automaton.reach? state word = some last ∧ last.Within automaton.stateCount := by
  induction word generalizing state with
  | nil => exact ⟨state, rfl, within⟩
  | cons symbol rest ih =>
    obtain ⟨here, later⟩ := List.forall_mem_cons.mp declared
    obtain ⟨next, moved, nextWithin⟩ := move?_of_declared checked within here
    obtain ⟨last, reached, lastWithin⟩ := ih nextWithin later
    refine ⟨last, ?_, lastWithin⟩
    rw [Validated.reach?, List.foldlM_cons, moved]
    exact reached

/-- Places tell states in range apart, so the table accepts where the description does. -/
theorem acceptsAt_builderOf (checked : description.check = .ok automaton) {state : State}
    (within : state.Within automaton.stateCount) :
    (builderOf automaton).build.acceptsAt state.index = decide (state ∈ description.accepting) := by
  obtain ⟨formed, accepting, _⟩ := Description.check_eq_ok_iff.mp checked
  rw [Bool.eq_iff_iff, decide_eq_true_iff, Table.acceptsAt, List.contains_iff_mem, ← accepting]
  refine Ascending.mem_ofList.trans ?_
  rw [builderOf, List.mem_map]
  constructor
  · intro listed
    obtain ⟨other, member, same⟩ := listed
    have otherWithin := formed.acceptingWithin other (accepting ▸ member)
    rw [← State.ofIndex_index within.1, ← same, State.ofIndex_index otherWithin.1]
    exact member
  · intro member
    exact ⟨state, member, rfl⟩

theorem path_of_declared (checked : description.check = .ok automaton) {word : Text}
    (declared : ∀ symbol ∈ word, symbol ∈ description.symbols) :
    ∃ last, automaton.reach? automaton.start word = some last ∧
      last.Within automaton.stateCount ∧
      (builderOf automaton).build.reach? (builderOf automaton).build.start word =
        some last.index := by
  have within := (Description.check_eq_ok_iff.mp checked).1.startWithin
  obtain ⟨last, reached, lastWithin⟩ := reach?_of_declared checked within declared
  refine ⟨last, reached, lastWithin, ?_⟩
  calc
    (builderOf automaton).build.reach? automaton.start.index word =
        (automaton.reach? automaton.start word).map State.index :=
      reach?_builderOf automaton automaton.start word
    _ = some last.index := by
      rw [reached]
      rfl

theorem run_of_declared (checked : description.check = .ok automaton) {word : Text}
    (declared : ∀ symbol ∈ word, symbol ∈ description.symbols) :
    ∃ last, automaton.reach? automaton.start word = some last ∧
      (builderOf automaton).build.run word =
        .ofVerdict (decide (last ∈ description.accepting)) last := by
  obtain ⟨last, reached, within, path⟩ := path_of_declared checked declared
  refine ⟨last, reached, ?_⟩
  rw [Table.run_of_reach path, acceptsAt_builderOf checked within, State.ofIndex_index within.1]

theorem run_of_undeclared (checked : description.check = .ok automaton) {known : Text}
    {symbol : Char} (rest : Text) (declared : ∀ earlier ∈ known, earlier ∈ description.symbols)
    (undeclared : symbol ∉ description.symbols) :
    ∃ last, automaton.reach? automaton.start known = some last ∧
      (builderOf automaton).build.run (known ++ symbol :: rest) =
        .unknownSymbol known.length symbol last := by
  obtain ⟨last, reached, within, path⟩ := path_of_declared checked declared
  have absent : (builderOf automaton).build.successor? last.index symbol = none := by
    rw [successor?_builderOf, Validated.move?, (group?_eq_none_iff checked).mpr undeclared]
    rfl
  refine ⟨last, reached, ?_⟩
  rw [Table.run_of_stuck path absent, State.ofIndex_index within.1]

theorem declared_or_split (description : Description) (word : Text) :
    (∀ symbol ∈ word, symbol ∈ description.symbols) ∨
      ∃ known symbol rest, word = known ++ symbol :: rest ∧
        (∀ earlier ∈ known, earlier ∈ description.symbols) ∧ symbol ∉ description.symbols := by
  cases first : word.find? (· ∉ description.symbols) with
  | none => exact .inl (by simpa using first)
  | some symbol =>
    obtain ⟨undeclared, known, rest, split, declared⟩ := List.find?_eq_some_iff_append.mp first
    exact .inr ⟨known, symbol, rest, split, by simpa using declared, by simpa using undeclared⟩

theorem run_eq_unknownSymbol_iff (checked : description.check = .ok automaton) {word : Text}
    {position : Nat} {symbol : Char} {state : State} :
    (builderOf automaton).build.run word = .unknownSymbol position symbol state ↔
      word[position]? = some symbol ∧ symbol ∉ description.symbols ∧
        (∀ earlier ∈ word.take position, earlier ∈ description.symbols) ∧
        automaton.reach? automaton.start (word.take position) = some state := by
  constructor
  · intro outcome
    rcases declared_or_split description word with
      declared | ⟨known, other, rest, rfl, declared, undeclared⟩
    · obtain ⟨last, _, ran⟩ := run_of_declared checked declared
      exact absurd (ran.symm.trans outcome) Outcome.ofVerdict_ne_unknownSymbol
    · obtain ⟨last, reached, ran⟩ := run_of_undeclared checked rest declared undeclared
      rw [ran] at outcome
      cases outcome
      rw [List.take_left]
      exact ⟨by simp, undeclared, declared, reached⟩
  · intro first
    obtain ⟨found, undeclared, declared, reached⟩ := first
    obtain ⟨bound, rfl⟩ := List.getElem?_eq_some_iff.mp found
    obtain ⟨last, again, ran⟩ :=
      run_of_undeclared checked (word.drop (position + 1)) declared undeclared
    have split : word.take position ++ word[position] :: word.drop (position + 1) = word := by
      rw [List.getElem_cons_drop, List.take_append_drop]
    rw [split, List.length_take, Nat.min_eq_left (Nat.le_of_lt bound)] at ran
    rw [ran, Option.some.inj (again.symm.trans reached)]

theorem run_eq_ofVerdict_iff (checked : description.check = .ok automaton) {word : Text}
    {verdict : Bool} {state : State} :
    (builderOf automaton).build.run word = .ofVerdict verdict state ↔
      (∀ symbol ∈ word, symbol ∈ description.symbols) ∧
        automaton.reach? automaton.start word = some state ∧
        verdict = decide (state ∈ description.accepting) := by
  constructor
  · intro outcome
    rcases declared_or_split description word with
      declared | ⟨known, other, rest, rfl, declared, undeclared⟩
    · obtain ⟨last, reached, ran⟩ := run_of_declared checked declared
      rw [ran] at outcome
      obtain ⟨rfl, rfl⟩ := Outcome.ofVerdict_inj.mp outcome
      exact ⟨declared, reached, rfl⟩
    · obtain ⟨last, _, ran⟩ := run_of_undeclared checked rest declared undeclared
      exact absurd (outcome.symm.trans ran) Outcome.ofVerdict_ne_unknownSymbol
  · intro path
    obtain ⟨declared, reached, rfl⟩ := path
    obtain ⟨last, again, ran⟩ := run_of_declared checked declared
    rw [ran, Option.some.inj (again.symm.trans reached)]

/-- The table of a checked description runs over every word as the description declares. It stops
at the first symbol that no group holds, in the state that the symbols before it lead to; without
such a symbol it ends in the state that the whole word leads to, and accepts it if it is listed. -/
theorem run_compiled (checked : description.check = .ok automaton) :
    description.start = some automaton.start ∧ description.groups = automaton.groups ∧
      ∃ table, compile automaton = .ok table ∧ ∀ word,
        (∀ position symbol state,
          table.run word = .unknownSymbol position symbol state ↔
            word[position]? = some symbol ∧ symbol ∉ description.symbols ∧
              (∀ earlier ∈ word.take position, earlier ∈ description.symbols) ∧
              automaton.reach? automaton.start (word.take position) = some state) ∧
        (∀ state, table.run word = .accepted state ↔
          (∀ symbol ∈ word, symbol ∈ description.symbols) ∧
            automaton.reach? automaton.start word = some state ∧
            state ∈ description.accepting) ∧
        ∀ state, table.run word = .rejected state ↔
          (∀ symbol ∈ word, symbol ∈ description.symbols) ∧
            automaton.reach? automaton.start word = some state ∧
            state ∉ description.accepting := by
  obtain ⟨formed, _, groups⟩ := Description.check_eq_ok_iff.mp checked
  refine ⟨formed.startDeclared, groups.symm, _, compile_of_check checked, ?_⟩
  intro word
  refine ⟨?_, ?_, ?_⟩
  · intro position symbol state
    exact run_eq_unknownSymbol_iff checked
  · intro state
    change _ = Outcome.ofVerdict true state ↔ _
    rw [run_eq_ofVerdict_iff checked, true_eq_decide_iff]
  · intro state
    change _ = Outcome.ofVerdict false state ↔ _
    rw [run_eq_ofVerdict_iff checked, false_eq_decide_iff]

/-- One letter moves between two states and the other stays; the accept state is listed twice. -/
theorem run_compiled_two_letters :
    ∃ table,
      compile ⟨2, ⟨1⟩, [⟨2⟩, ⟨2⟩], [⟨['s'], [⟨1⟩, ⟨2⟩]⟩, ⟨['m'], [⟨2⟩, ⟨1⟩]⟩]⟩ = .ok table ∧
        table.run ['m', 's'] = .accepted ⟨2⟩ ∧ table.run ['m', 's', 'm'] = .rejected ⟨1⟩ ∧
        table.run ['m', 's', 'x', 'm'] = .unknownSymbol 2 'x' ⟨2⟩ := by
  have checked :
      Description.check ⟨some 2, some ⟨1⟩, [⟨2⟩, ⟨2⟩],
        [⟨['s'], [⟨1⟩, ⟨2⟩]⟩, ⟨['m'], [⟨2⟩, ⟨1⟩]⟩]⟩ =
      .ok ⟨2, ⟨1⟩, [⟨2⟩, ⟨2⟩], [⟨['s'], [⟨1⟩, ⟨2⟩]⟩, ⟨['m'], [⟨2⟩, ⟨1⟩]⟩]⟩ := rfl
  obtain ⟨_, _, table, compiled, runs⟩ := run_compiled checked
  refine ⟨table, compiled, ?_, ?_, ?_⟩
  · exact ((runs ['m', 's']).2.1 ⟨2⟩).mpr ⟨by simp [Description.symbols], rfl, by simp⟩
  · exact ((runs ['m', 's', 'm']).2.2 ⟨1⟩).mpr ⟨by simp [Description.symbols], rfl, by simp⟩
  · exact ((runs ['m', 's', 'x', 'm']).1 2 'x' ⟨2⟩).mpr
      ⟨rfl, by simp [Description.symbols], by simp [Description.symbols], rfl⟩

end Checked

end Acceptor
