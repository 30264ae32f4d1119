import Acceptor.Proofs.Compile.Equality
/-!
Symbols that may stand for each other. Every symbol of a group gets a full copy of the outputs of
the group, whatever its place there, so that a run cannot tell symbols with equal outputs apart;
and it is in the same state at every position, however many of them are exchanged.
-/
namespace Acceptor

open Description (Validated)

namespace Table

/-- A table takes two symbols for one if they are one, or if their rows are equal. -/
def TakesForOne (table : Table) (symbol other : Char) : Prop :=
  symbol = other ∨ ∃ row, table.row? symbol = some row ∧ table.row? other = some row

variable {table : Table} {place : Nat}

/-- The runs stay at one place. Symbols that differ lead both of them on, and so one that stops the
runs is the same in both. -/
theorem Sound.outcomeFrom_eq_of_taken (sound : table.Sound) (inside : place < table.stateCount)
    {word other : Text} (taken : List.Forall₂ table.TakesForOne word other) (position : Nat) :
    table.outcomeFrom place position word = table.outcomeFrom place position other := by
  induction taken generalizing place position with
  | nil => rfl
  | @cons symbol replaced word other one _ ih =>
    have goOn {next : Nat} (moved : table.successor? place symbol = some next)
        (movedToo : table.successor? place replaced = some next) :
        table.outcomeFrom place position (symbol :: word) =
          table.outcomeFrom place position (replaced :: other) := by
      rw [outcomeFrom, outcomeFrom, walk_cons_of_some moved, walk_cons_of_some movedToo]
      exact ih (sound.successor_lt moved) (position + 1)
    rcases one with rfl | ⟨row, found, foundToo⟩
    · cases moved : table.successor? place symbol with
      | none => rw [outcomeFrom, outcomeFrom, walk_cons_of_none moved, walk_cons_of_none moved]
      | some next => exact goOn moved moved
    · obtain ⟨next, moved⟩ := sound.exists_successor inside (found ▸ Option.some_ne_none row)
      refine goOn moved ?_
      rw [successor?_of_row foundToo, ← successor?_of_row found, moved]

end Table

namespace Description

/-- Symbols may stand for each other if they are one symbol, or if both are declared, with equal
outputs. -/
def Interchangeable (description : Description) (symbol other : Char) : Prop :=
  symbol = other ∨ ∃ outputs, description.Maps symbol outputs ∧ description.Maps other outputs

theorem interchangeable_of_group {description : Description} {group : Group} {symbol other : Char}
    (member : group ∈ description.groups) (held : symbol ∈ group.symbols)
    (heldToo : other ∈ group.symbols) : description.Interchangeable symbol other :=
  .inr ⟨group.outputs, ⟨group, member, held, rfl⟩, ⟨group, member, heldToo, rfl⟩⟩

end Description

section Checked

variable {description : Description} {automaton : Validated}

theorem row?_of_maps (checked : description.check = .ok automaton) {symbol : Char}
    {outputs : List State} (maps : description.Maps symbol outputs) :
    (builderOf automaton).build.row? symbol = some (outputs.map State.index) := by
  obtain ⟨_, _, groups⟩ := Description.check_eq_ok_iff.mp checked
  rw [row?_eq_lookup, groups, (lookup_rowsFor_eq_some_iff checked).mpr maps, Option.map_some]

theorem takesForOne_of_interchangeable (checked : description.check = .ok automaton)
    {symbol other : Char} (alike : description.Interchangeable symbol other) :
    (builderOf automaton).build.TakesForOne symbol other := by
  rcases alike with same | ⟨outputs, maps, mapsToo⟩
  · exact .inl same
  · exact .inr ⟨_, row?_of_maps checked maps, row?_of_maps checked mapsToo⟩

/-- The table of a checked description comes to the same outcome over words that differ in nothing
but symbols with equal outputs, such as the symbols of one group. The words may stop the table at a
symbol that is not declared; then it is the same one. -/
theorem same_outcome_when_interchanged (checked : description.check = .ok automaton) :
    (∀ group ∈ description.groups, ∀ symbol ∈ group.symbols, ∀ other ∈ group.symbols,
        description.Interchangeable symbol other) ∧
      ∃ table, compile automaton = .ok table ∧ ∀ word other,
        List.Forall₂ description.Interchangeable word other → table.run word = table.run other := by
  refine ⟨?_, _, compile_of_check checked, ?_⟩
  · intro group member symbol held other heldToo
    exact Description.interchangeable_of_group member held heldToo
  · intro word other alike
    have sound := sound_of_check checked
    have taken : List.Forall₂ (builderOf automaton).build.TakesForOne word other :=
      alike.imp fun _ _ => takesForOne_of_interchangeable checked
    exact sound.outcomeFrom_eq_of_taken sound.startInside taken 0

/-- Three symbols with equal outputs, two of them in one group; the words agree on the symbol that
is not declared. -/
theorem same_outcome_when_interchanged_of_two_groups :
    let groups : List Group :=
      [⟨['a', 'b'], [⟨2⟩, ⟨1⟩]⟩, ⟨['c'], [⟨2⟩, ⟨1⟩]⟩, ⟨['d'], [⟨2⟩, ⟨2⟩]⟩]
    Description.check ⟨some 2, some ⟨1⟩, [⟨2⟩], groups⟩ = .ok ⟨2, ⟨1⟩, [⟨2⟩], groups⟩ ∧
      ∃ table, compile ⟨2, ⟨1⟩, [⟨2⟩], groups⟩ = .ok table ∧
        table.run ['a', 'd', 'b', 'x', 'a'] = .unknownSymbol 3 'x' ⟨1⟩ ∧
        table.run ['b', 'd', 'c', 'x', 'a'] = .unknownSymbol 3 'x' ⟨1⟩ := by
  intro groups
  have checked : Description.check ⟨some 2, some ⟨1⟩, [⟨2⟩], groups⟩ =
      .ok ⟨2, ⟨1⟩, [⟨2⟩], groups⟩ := rfl
  obtain ⟨grouped, table, compiled, runs⟩ := same_outcome_when_interchanged checked
  have ran : table.run ['a', 'd', 'b', 'x', 'a'] = .unknownSymbol 3 'x' ⟨1⟩ := by
    cases compiled
    rfl
  have ofOneGroup := grouped ⟨['a', 'b'], [⟨2⟩, ⟨1⟩]⟩ (by simp [groups]) 'a' (by simp) 'b' (by simp)
  have ofTwoGroups : Description.Interchangeable ⟨some 2, some ⟨1⟩, [⟨2⟩], groups⟩ 'b' 'c' :=
    .inr ⟨[⟨2⟩, ⟨1⟩], ⟨⟨['a', 'b'], _⟩, by simp [groups], by simp, rfl⟩,
      ⟨⟨['c'], _⟩, by simp [groups], by simp, rfl⟩⟩
  have alike := runs ['a', 'd', 'b', 'x', 'a'] ['b', 'd', 'c', 'x', 'a']
    (.cons ofOneGroup (.cons (.inl rfl) (.cons ofTwoGroups (.cons (.inl rfl)
      (.cons (.inl rfl) .nil)))))
  exact ⟨checked, table, compiled, ran, alike ▸ ran⟩

end Checked

end Acceptor
