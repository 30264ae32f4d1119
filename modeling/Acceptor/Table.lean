import Acceptor.State
/-!
Run-time tables. Every symbol of the alphabet owns one row, whose entry at a place is the place of
the successor of the state there; a symbol without a row has no transition. Accept states are
listed in ascending order without repeats, so that equal sets have equal lists.
-/
namespace Acceptor

/-- An automaton ready to run. Places count from zero; rows stand in the order of declaration. -/
structure Table where
  stateCount : Nat
  start : Nat
  accepting : List Nat
  rows : List (Char × List Nat)
deriving DecidableEq, Repr

namespace Table

structure OutOfBounds where
  length : Nat
  place : Nat
deriving DecidableEq, Repr

def OutOfBounds.message (complaint : OutOfBounds) : Text :=
  "index out of bounds: the len is ".toList ++ Text.Decimal.ofNat complaint.length ++
    " but the index is ".toList ++ Text.Decimal.ofNat complaint.place

def startState (table : Table) : State := .ofIndex table.start

def acceptsAt (table : Table) (place : Nat) : Bool := table.accepting.contains place

/-- Whether a state accepts. States out of range never do. -/
def accepts (table : Table) (state : State) : Bool :=
  decide (state.Within table.stateCount) && table.acceptsAt state.index

def acceptStates (table : Table) : List State := table.accepting.map .ofIndex

def alphabet (table : Table) : Text := table.rows.map Prod.fst

def row? (table : Table) (symbol : Char) : Option (List Nat) := table.rows.lookup symbol

def successors? (table : Table) (symbol : Char) : Option (List State) :=
  (table.row? symbol).map (·.map .ofIndex)

/-- A single transition. A symbol without a row has none, whatever the place; a place beyond the
end of a row is an error. -/
def step (table : Table) (place : Nat) (symbol : Char) : Except OutOfBounds (Option Nat) :=
  match table.row? symbol with
  | none => .ok none
  | some row =>
    match row[place]? with
    | some next => .ok (some next)
    | none => .error ⟨row.length, place⟩

def successor? (table : Table) (place : Nat) (symbol : Char) : Option Nat :=
  (table.row? symbol).bind (·[place]?)

/-- Tables are the same automaton if they differ in nothing but the order of their rows. -/
def same (first second : Table) : Bool :=
  first.stateCount == second.stateCount && first.start == second.start &&
    first.accepting == second.accepting && first.rows.length == second.rows.length &&
    first.rows.all fun (symbol, row) => second.row? symbol == some row

/-- Each item with the number of items from it to the end, as an iterator counts down. -/
def countedDown {α : Type} (items : List α) : List (Nat × α) :=
  items.zipIdx.map fun (item, place) => (items.length - place, item)

theorem step_of_row_none {table : Table} {symbol : Char} (absent : table.row? symbol = none)
    (place : Nat) : table.step place symbol = .ok none := by
  simp [step, absent]

theorem step_eq_successor {table : Table} {place : Nat} {symbol : Char} {row : List Nat}
    (found : table.row? symbol = some row) (bound : place < row.length) :
    table.step place symbol = .ok (table.successor? place symbol) := by
  simp [step, successor?, found, bound]

theorem successor?_of_row_none {table : Table} {symbol : Char}
    (absent : table.row? symbol = none) (place : Nat) : table.successor? place symbol = none := by
  simp [successor?, absent]

theorem successor?_of_row {table : Table} {symbol : Char} {row : List Nat}
    (found : table.row? symbol = some row) (place : Nat) :
    table.successor? place symbol = row[place]? := by
  simp [successor?, found]

end Table

end Acceptor
