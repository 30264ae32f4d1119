import Acceptor.Proofs.Palette
import Acceptor.Proofs.Table.Sound
import Acceptor.Proofs.Text.Numbers
import Acceptor.Proofs.Text.Quoted
/-!
Listings read back. A listing without colours tells everything about its table: the counts, the
special states, and every row with its symbol, in order. Its lines end where they seem to, because a
quoted symbol breaks no line. On the line of a symbol, the label ends where its quote does, whatever
the symbol is and however the label is padded; and what is behind it is numerals with gaps.
-/
namespace Acceptor.Table

open Text (numbers)
open Palette (plain)

def placesIn (text : Text) : List Nat := (numbers text).map (· - 1)

def readRow? (line : Text) : Option (Char × List Nat) :=
  (Text.Quoted.unquote? line).map fun (symbol, cells) => (symbol, placesIn cells)

/-- Reads a listing without colours. Its headings are passed over, and so is the line in front of
the rows, which names the columns or says that there are none. -/
def readListing? (listing : Text) : Option Table :=
  match Text.Lines.split '\n' listing with
  | _ :: count :: start :: accepting :: _ :: _ :: _ :: rows => do
    return ⟨← (numbers count).head?, ← (placesIn start).head?, placesIn accepting,
      ← rows.mapM readRow?⟩
  | _ => none

theorem numbers_text (place : Nat) : numbers (State.ofIndex place).text = [place + 1] :=
  Text.numbers_ofNat (place + 1)

theorem placesIn_of_numbers {text : Text} {places : List Nat}
    (named : numbers text = places.flatMap fun place => numbers (State.ofIndex place).text) :
    placesIn text = places := by
  simp only [numbers_text, ← List.map_eq_flatMap] at named
  rw [placesIn, named, List.map_map]
  exact List.map_id'' (fun place => Nat.add_sub_cancel place 1) places

theorem placesIn_text (place : Nat) : placesIn (State.ofIndex place).text = [place] := by
  apply placesIn_of_numbers
  rw [List.flatMap_singleton]

theorem placesIn_gap {gap : Text} (blank : Text.Digitless gap) (rest : Text) :
    placesIn (gap ++ rest) = placesIn rest := by
  rw [placesIn, Text.numbers_gap blank, placesIn]

theorem numbers_cell (width : Nat) (state : State) :
    numbers (cell width state) = numbers state.text := by
  have margin : Text.Digitless [' ', ' '] := by decide
  rw [cell, List.leftpad, Text.numbers_gap margin,
    Text.numbers_gap (Text.digitless_replicate _)]

/-- A row is read back from its columns, however wide they are. -/
theorem placesIn_cells (width : Nat) (row : List Nat) :
    placesIn ((row.map State.ofIndex).flatMap (cell width)) = row := by
  have apart : ∀ state ∈ row.map State.ofIndex,
      ∃ c rest, cell width state = c :: rest ∧ c.isDigit = false :=
    fun state _ => ⟨' ', _, rfl, rfl⟩
  apply placesIn_of_numbers
  rw [Text.numbers_flatMap apart, List.flatMap_map]
  simp only [numbers_cell]

theorem placesIn_acceptList (table : Table) :
    placesIn (acceptList plain table) = table.accepting := by
  unfold acceptList
  split
  next empty =>
    rw [List.isEmpty_iff.mp empty]
    decide
  next =>
    have between : Text.Digitless [',', ' '] := by decide
    apply placesIn_of_numbers
    change numbers ([] ++ Text.joined [',', ' '] (table.acceptStates.map State.text) ++ []) = _
    rw [List.nil_append, List.append_nil, Text.numbers_joined between, acceptStates,
      List.flatMap_map, List.flatMap_map]

variable {table : Table}

/-- The label is at the front of its line, and what pads it is in front of the columns. -/
theorem readRow?_rowLine (sound : table.Sound) (labelWidth : Nat) {row : Char × List Nat}
    (listed : row ∈ table.rows) :
    readRow? (rowLine plain labelWidth table row.1) = some row := by
  have successors : table.successors? row.1 = some (row.2.map .ofIndex) := by
    rw [successors?, sound.row?_eq_some_iff.mpr listed]
    rfl
  let padding := List.replicate (labelWidth - (Text.Quoted.quote row.1).length) ' '
  let cells := (row.2.map State.ofIndex).flatMap (cell (Text.Decimal.width table.stateCount))
  have line : rowLine plain labelWidth table row.1 =
      Text.Quoted.quote row.1 ++ (padding ++ cells) := by
    rw [rowLine, successors]
    simp [plain, List.rightpad, padding, cells]
  have places : placesIn (padding ++ cells) = row.2 :=
    (placesIn_gap (Text.digitless_replicate _) cells).trans (placesIn_cells _ row.2)
  rw [readRow?, line, Text.Quoted.unquote?_quote]
  exact congrArg (fun places => some (row.1, places)) places

theorem exists_transitionLines (sound : table.Sound) :
    ∃ names rows,
      transitionLines plain table = heading plain "transitions".toList :: names :: rows ∧
        rows.mapM readRow? = some table.rows := by
  unfold transitionLines
  split
  next empty =>
    rw [List.isEmpty_iff.mp empty]
    exact ⟨_, [], rfl, rfl⟩
  next =>
    refine ⟨_, _, rfl, ?_⟩
    rw [alphabet, List.map_map]
    apply Fallible.mapM_map_eq_some
    intro row listed
    exact readRow?_rowLine sound table.labelWidth listed

/-- No symbol breaks a line. -/
theorem split_dump (table : Table) :
    Text.Lines.split '\n' (table.dump plain) =
      summaryLines plain table ++ [] :: transitionLines plain table := by
  apply Text.Lines.split_unlines
  intro line listed
  exact ((painted_listing table).clear line listed).notMem (by decide)

/-- A listing is read back as the table that it lists. -/
theorem readListing?_dump (sound : table.Sound) :
    readListing? (table.dump plain) = some table := by
  obtain ⟨names, rows, transitions, read⟩ := exists_transitionLines sound
  have lines := split_dump table
  rw [transitions] at lines
  have count : numbers ("states = ".toList ++ Text.Decimal.ofNat table.stateCount) =
      [table.stateCount] := by
    have key : Text.Digitless "states = ".toList := by decide
    rw [Text.numbers_gap key, Text.numbers_ofNat]
  have start : placesIn ("start  = ".toList ++ table.startState.text) = [table.start] := by
    have key : Text.Digitless "start  = ".toList := by decide
    rw [placesIn_gap key, startState, placesIn_text]
  have accepting : placesIn ("accept = ".toList ++ acceptList plain table) = table.accepting := by
    have key : Text.Digitless "accept = ".toList := by decide
    rw [placesIn_gap key, placesIn_acceptList]
  simp only [readListing?, lines, summaryLines, List.cons_append, List.nil_append, count, start,
    accepting, read]
  rfl

/-- A listing without colours loses nothing. A built table is read back from it, and so tables with
one listing are one table: as many states, the same start and accept states, and the same rows for
the same symbols in the same order, whatever characters the symbols are. -/
theorem listing_loses_nothing {first second : Table} (one : first.Built) (two : second.Built) :
    readListing? (first.dump plain) = some first ∧
      (first.dump plain = second.dump plain →
        first.stateCount = second.stateCount ∧ first.startState = second.startState ∧
          first.acceptStates = second.acceptStates ∧ first.rows = second.rows) := by
  refine ⟨readListing?_dump one.sound, ?_⟩
  intro alike
  have read := readListing?_dump one.sound
  rw [alike, readListing?_dump two.sound] at read
  cases read
  exact ⟨rfl, rfl, rfl, rfl⟩

/-- Symbols that look like parts of the layout, in tables that mark their accept states in another
order, and in one that has its rows in another order. -/
theorem listing_loses_nothing_of_layout :
    let rows : List (Char × List Nat) :=
      [(' ', [1, 0]), ('\'', [0, 0]), ('\\', [1, 1]), ('2', [0, 1]), ('\n', [1, 0]),
        ('\u0301', [0, 0])]
    let first := Builder.build ⟨2, 0, [1, 0], rows⟩
    let second := Builder.build ⟨2, 0, [0, 1, 1], rows⟩
    let other := Builder.build ⟨2, 0, [1, 0], rows.reverse⟩
    readListing? (first.dump plain) = some first ∧ first.acceptStates = second.acceptStates ∧
      first.dump plain ≠ other.dump plain := by
  intro rows first second other
  have sound {table : Table} (taken : ∃ builder, Builder.replay 2 ⟨1⟩ table.calls = .ok builder ∧
      builder.build = table) : table.Built := by
    obtain ⟨builder, replayed, rfl⟩ := taken
    exact built_of_replay replayed
  have one : first.Built := sound ⟨_, rfl, rfl⟩
  have two : second.Built := sound ⟨_, rfl, rfl⟩
  have three : other.Built := sound ⟨_, rfl, rfl⟩
  obtain ⟨read, alike⟩ := listing_loses_nothing one two
  have same : first.dump plain = second.dump plain := rfl
  refine ⟨read, (alike same).2.2.1, ?_⟩
  intro equal
  have rowsEqual := ((listing_loses_nothing one three).2 equal).2.2.2
  exact absurd rowsEqual (by decide)

end Acceptor.Table
