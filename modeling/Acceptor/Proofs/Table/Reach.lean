import Acceptor.Run
/-!
Runs as paths through a table. As long as every symbol has a successor, a run only moves from place
to place, and its outcome is decided where the path ends or cannot go on.
-/
namespace Acceptor

theorem Outcome.ofVerdict_inj {verdict other : Bool} {state last : State} :
    Outcome.ofVerdict verdict state = .ofVerdict other last ↔ verdict = other ∧ state = last := by
  cases verdict <;> cases other <;> simp [ofVerdict]

theorem Outcome.ofVerdict_ne_unknownSymbol {verdict : Bool} {state last : State} {position : Nat}
    {symbol : Char} : Outcome.ofVerdict verdict state ≠ .unknownSymbol position symbol last := by
  cases verdict <;> simp [ofVerdict]

namespace Table

def reach? (table : Table) (place : Nat) (word : Text) : Option Nat :=
  word.foldlM table.successor? place

theorem reach?_cons (table : Table) (place : Nat) (symbol : Char) (rest : Text) :
    table.reach? place (symbol :: rest) =
      (table.successor? place symbol).bind (table.reach? · rest) := by
  simp [reach?, List.foldlM_cons]

def outcomeFrom (table : Table) (place position : Nat) (word : Text) : Outcome :=
  (table.walk (fun _ _ => ()) () place position word).1

theorem run_eq_outcomeFrom (table : Table) (word : Text) :
    table.run word = table.outcomeFrom table.start 0 word := rfl

theorem outcomeFrom_append {table : Table} {place next : Nat} {known : Text}
    (reached : table.reach? place known = some next) (position : Nat) (rest : Text) :
    table.outcomeFrom place position (known ++ rest) =
      table.outcomeFrom next (position + known.length) rest := by
  induction known generalizing place position with
  | nil =>
    cases reached
    rfl
  | cons symbol known ih =>
    rw [reach?_cons] at reached
    obtain ⟨middle, found, onward⟩ := Option.bind_eq_some_iff.mp reached
    calc
      table.outcomeFrom place position (symbol :: (known ++ rest)) =
          table.outcomeFrom middle (position + 1) (known ++ rest) := by
        rw [outcomeFrom, walk_cons_of_some found]
        rfl
      _ = table.outcomeFrom next (position + 1 + known.length) rest := ih onward (position + 1)
      _ = table.outcomeFrom next (position + (symbol :: known).length) rest := by
        rw [List.length_cons]
        congr 1
        omega

theorem run_of_reach {table : Table} {place : Nat} {word : Text}
    (reached : table.reach? table.start word = some place) :
    table.run word = .ofVerdict (table.acceptsAt place) (.ofIndex place) := by
  calc
    table.run word = table.outcomeFrom table.start 0 (word ++ []) := by
      rw [run_eq_outcomeFrom, List.append_nil]
    _ = table.outcomeFrom place (0 + word.length) [] := outcomeFrom_append reached 0 []
    _ = .ofVerdict (table.acceptsAt place) (.ofIndex place) := rfl

theorem run_of_stuck {table : Table} {place : Nat} {known rest : Text} {symbol : Char}
    (reached : table.reach? table.start known = some place)
    (absent : table.successor? place symbol = none) :
    table.run (known ++ symbol :: rest) =
      .unknownSymbol known.length symbol (.ofIndex place) := by
  calc
    table.run (known ++ symbol :: rest) =
        table.outcomeFrom place (0 + known.length) (symbol :: rest) := by
      rw [run_eq_outcomeFrom, outcomeFrom_append reached]
    _ = .unknownSymbol known.length symbol (.ofIndex place) := by
      rw [outcomeFrom, walk_cons_of_none absent, Nat.zero_add]

end Table

end Acceptor
