import Acceptor.Proofs.Table.Listing
import Acceptor.Proofs.Text.Columns
/-!
Listings in columns. The label of a line stands at its left, in a column that the widest label
fills; behind it every state has a column of its own, with two spaces in front of as many characters
as the greatest state needs. No numeral is wider than that, because a built table names no state
beyond its count, and so all lines of the second part are of one length.
-/
namespace Acceptor.Table

open Palette (plain)

def column (labels digits : Nat) (line : Text) (place : Nat) : Text :=
  (line.drop (labels + place * (2 + digits))).take (2 + digits)

/-- A line in columns: its label is padded on the right, and for every place the numeral of the
state that is shown there stands at the right end of a column, behind two spaces. -/
structure Aligned (labels digits count : Nat) (label : Text) (shown : Nat → Option State)
    (line : Text) : Prop where
  length : line.length = labels + count * (2 + digits)
  label : line.take labels = label ++ List.replicate (labels - label.length) ' '
  columns : ∀ place < count, ∃ state, shown place = some state ∧ state.text.length ≤ digits ∧
    column labels digits line place =
      [' ', ' '] ++ List.replicate (digits - state.text.length) ' ' ++ state.text

theorem length_cell {digits : Nat} {state : State} (fits : state.text.length ≤ digits) :
    (cell digits state).length = 2 + digits := by
  rw [cell, List.length_append, List.length_leftpad, Nat.max_eq_left fits]
  rfl

/-- A label that is no wider than its column does not move the cells behind it. -/
theorem aligned_cells {labels digits : Nat} {label : Text} {states : List State}
    {shown : Nat → Option State} (room : label.length ≤ labels)
    (fits : ∀ state ∈ states, state.text.length ≤ digits)
    (listed : ∀ place < states.length, shown place = states[place]?) :
    Aligned labels digits states.length label shown
      (label.rightpad labels ' ' ++ states.flatMap (cell digits)) := by
  have front : (label.rightpad labels ' ').length = labels := by
    rw [List.length_rightpad, Nat.max_eq_left room]
  have wide : ∀ state ∈ states, (cell digits state).length = 2 + digits :=
    fun state member => length_cell (fits state member)
  refine ⟨?_, ?_, ?_⟩
  · rw [List.length_append, front, Text.length_flatMap_of_width wide]
  · rw [List.take_left' front]
    rfl
  · intro place inside
    have found : states[place]? = some states[place] := List.getElem?_eq_getElem inside
    refine ⟨_, (listed place inside).trans found, fits _ (List.getElem_mem inside), ?_⟩
    rw [column, ← List.drop_drop, List.drop_left' front, Text.take_drop_flatMap wide found, cell,
      List.leftpad, List.append_assoc]

variable {table : Table}

theorem labelWidth_widest (declared : table.alphabet ≠ []) :
    (∀ symbol ∈ table.alphabet, (Text.Quoted.quote symbol).length ≤ table.labelWidth) ∧
      ∃ symbol ∈ table.alphabet, (Text.Quoted.quote symbol).length = table.labelWidth := by
  have some : (table.alphabet.map fun symbol => (Text.Quoted.quote symbol).length) ≠ [] :=
    List.map_eq_nil_iff.not.mpr declared
  have widest : table.labelWidth = List.max _ some := by
    rw [labelWidth, List.foldl_max_eq_max some, Nat.zero_max]
  obtain ⟨listed, greatest⟩ := (List.max_eq_iff some).mp widest.symm
  exact ⟨List.forall_mem_map.mp greatest, List.mem_map.mp listed⟩

theorem text_fits {place : Nat} (inside : place < table.stateCount) :
    (State.ofIndex place).text.length ≤ (Text.Decimal.ofNat table.stateCount).length :=
  Text.Decimal.length_ofNat_le inside

theorem aligned_columnLine (table : Table) :
    Aligned table.labelWidth (Text.Decimal.ofNat table.stateCount).length table.stateCount []
      (fun place => some (.ofIndex place)) (columnLine plain table.labelWidth table) := by
  have count : table.states.length = table.stateCount := by
    rw [states, List.length_map, List.length_range]
  have fits : ∀ state ∈ table.states,
      state.text.length ≤ (Text.Decimal.ofNat table.stateCount).length := by
    refine List.forall_mem_map.mpr ?_
    intro place listed
    exact text_fits (List.mem_range.mp listed)
  have listed : ∀ place < table.states.length,
      some (State.ofIndex place) = table.states[place]? := by
    intro place inside
    rw [states, List.getElem?_map, List.getElem?_range (count ▸ inside), Option.map_some]
  have room : ([] : Text).length ≤ table.labelWidth := Nat.zero_le _
  have aligned := aligned_cells room fits listed
  rw [count] at aligned
  have line : columnLine plain table.labelWidth table =
      List.rightpad table.labelWidth ' ' [] ++
        table.states.flatMap (cell (Text.Decimal.ofNat table.stateCount).length) := by
    rw [columnLine, ← Text.Decimal.length_ofNat]
    simp [plain, List.rightpad]
  rwa [line]

theorem aligned_rowLine (sound : table.Sound) {symbol : Char} (declared : symbol ∈ table.alphabet) :
    Aligned table.labelWidth (Text.Decimal.ofNat table.stateCount).length table.stateCount
      (Text.Quoted.quote symbol) (fun place => (table.successor? place symbol).map .ofIndex)
      (rowLine plain table.labelWidth table symbol) := by
  obtain ⟨⟨other, row⟩, member, same⟩ := List.mem_map.mp declared
  obtain rfl : other = symbol := same
  have found := sound.row?_eq_some_iff.mpr member
  have count : (row.map State.ofIndex).length = table.stateCount :=
    (List.length_map _).trans (sound.rowsComplete _ member)
  have fits : ∀ state ∈ row.map State.ofIndex,
      state.text.length ≤ (Text.Decimal.ofNat table.stateCount).length := by
    refine List.forall_mem_map.mpr ?_
    intro place listed
    exact text_fits (sound.rowsInside _ member place listed)
  have listed : ∀ place < (row.map State.ofIndex).length,
      (table.successor? place other).map State.ofIndex = (row.map State.ofIndex)[place]? := by
    intro place _
    rw [successor?_of_row found, List.getElem?_map]
  have room := (labelWidth_widest (List.ne_nil_of_mem declared)).1 _ declared
  have aligned := aligned_cells room fits listed
  rw [count] at aligned
  have line : rowLine plain table.labelWidth table other =
      (Text.Quoted.quote other).rightpad table.labelWidth ' ' ++
        (row.map State.ofIndex).flatMap (cell (Text.Decimal.ofNat table.stateCount).length) := by
    rw [rowLine, successors?, found, ← Text.Decimal.length_ofNat]
    simp [plain]
  rwa [line]

/-- The lines of a listing stand in columns. Behind the summary come an empty line, the heading, the
line that names the columns, and one line for each symbol in the order of declaration. All of them
are as long as the widest label and, for every state, two spaces and the digits of the state count.
The labels are padded on the right. In its column, a state that names it and a state that is gone to
have their numerals at the right end, and no numeral leaves its column. -/
theorem listing_stands_in_columns {table : Table} (built : table.Built)
    (declared : table.alphabet ≠ []) :
    ∃ labels digits names lines,
      Text.Lines.split '\n' (table.dump plain) =
        summaryLines plain table ++ [[], "[transitions]".toList, names] ++ lines ∧
      (∀ symbol ∈ table.alphabet, (Text.Quoted.quote symbol).length ≤ labels) ∧
      (∃ symbol ∈ table.alphabet, (Text.Quoted.quote symbol).length = labels) ∧
      digits = (Text.Decimal.ofNat table.stateCount).length ∧
      Aligned labels digits table.stateCount [] (fun place => some (.ofIndex place)) names ∧
      List.Forall₂ (fun symbol => Aligned labels digits table.stateCount (Text.Quoted.quote symbol)
        fun place => (table.successor? place symbol).map .ofIndex) table.alphabet lines := by
  obtain ⟨room, widest⟩ := labelWidth_widest declared
  have some : table.rows.isEmpty = false := by
    apply List.isEmpty_eq_false_iff.mpr
    intro empty
    exact declared (List.map_eq_nil_iff.mpr empty)
  refine ⟨table.labelWidth, _, columnLine plain table.labelWidth table,
    table.alphabet.map (rowLine plain table.labelWidth table), ?_, room, widest, rfl,
    aligned_columnLine table, ?_⟩
  · rw [split_dump, transitionLines, some]
    rfl
  · rw [List.forall₂_map_right_iff, List.forall₂_same]
    exact fun symbol listed => aligned_rowLine built.sound listed

/-- Labels of two widths, and numerals of one digit and of two, up to the last state. -/
theorem listing_stands_in_columns_of_ten :
    let rows : List (Char × List Nat) :=
      [('\n', [9, 0, 1, 2, 3, 4, 5, 6, 7, 8]), ('x', [0, 0, 0, 0, 0, 0, 0, 0, 0, 9])]
    let table : Table := ⟨10, 9, [1, 9], rows⟩
    table.Built ∧ table.alphabet ≠ [] ∧
      ∃ names feed x,
        Text.Lines.split '\n' (table.dump plain) =
          summaryLines plain table ++ [[], "[transitions]".toList, names] ++ [feed, x] ∧
        x.length = 44 ∧ x.take 4 = ['\'', 'x', '\'', ' '] ∧
        column 4 2 names 9 = [' ', ' ', '1', '0'] ∧ column 4 2 feed 1 = [' ', ' ', ' ', '1'] := by
  intro rows table
  have built : table.Built := built_iff_sound.mpr (by constructor <;> decide)
  have declared : table.alphabet ≠ [] := by decide
  obtain ⟨labels, digits, names, lines, split, room, ⟨symbol, member, width⟩, written, named,
    listed⟩ := listing_stands_in_columns built declared
  have four : (Text.Quoted.quote '\n').length = 4 := by decide
  have label : Text.Quoted.quote 'x' = ['\'', 'x', '\''] := by decide +kernel
  obtain rfl : labels = 4 := by
    have least := four ▸ room '\n' (by decide)
    rcases List.mem_cons.mp member with rfl | member
    · exact width.symm.trans four
    · obtain rfl := List.mem_singleton.mp member
      have fewer : (Text.Quoted.quote 'x').length = labels := width
      rw [label, List.length_cons, List.length_cons, List.length_singleton] at fewer
      omega
  obtain rfl : digits = 2 := written.trans (by decide)
  cases listed with
  | @cons _ feed _ _ first later =>
    cases later with
    | @cons _ x _ _ second last =>
      cases last
      obtain ⟨_, shown, _, ten⟩ := named.columns 9 (by decide)
      cases shown
      obtain ⟨_, shown, _, one⟩ := first.columns 1 (by decide)
      cases shown
      have last : Aligned 4 2 10 (Text.Quoted.quote 'x') _ x := second
      rw [label] at last
      exact ⟨built, declared, names, feed, x, split, last.length, last.label, ten, one⟩

end Acceptor.Table
