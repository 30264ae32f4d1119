import Acceptor.Yaml.Cursor
/-!
Block scalars: indented lines after a header. A literal scalar keeps its breaks; a folded one joins
lines of text by spaces. The header may give the indentation and says what becomes of the breaks at
the end.
-/
namespace Acceptor.Yaml.Scalar.Block

/-- What becomes of the breaks at the end: all are dropped, one is kept, or all are kept. -/
inductive Chomping where
  | strip
  | clip
  | keep
deriving DecidableEq, Repr

def chomping? : Text → Option (Chomping × Text)
  | '-' :: rest => some (.strip, rest)
  | '+' :: rest => some (.keep, rest)
  | _ => none

def indentation? : Text → Option (Nat × Text)
  | c :: rest => (if c.isDigit then some (c.toNat - '0'.toNat, rest) else none)
  | [] => none

/-- What the indicators of a header say, and what follows them. The two indicators come in either
order; an indentation left out is to be detected, and zero is none. -/
def header? (text : Text) : Option (Chomping × Option Nat × Text) :=
  match chomping? text with
  | some (chomping, rest) =>
    match indentation? rest with
    | some (0, _) => none
    | some (indent, rest) => some (chomping, some indent, rest)
    | none => some (chomping, none, rest)
  | none =>
    match indentation? text with
    | some (0, _) => none
    | some (indent, rest) =>
      match chomping? rest with
      | some (chomping, rest) => some (chomping, some indent, rest)
      | none => some (.clip, some indent, rest)
    | none => some (.clip, none, text)

/-- Moves over the empty lines that come first. Gives the widest column met, the breaks newest
first, and the first line with text. A tab may not stand in the indentation. -/
def leadingLines : Text → Place → Nat → Text → Option (Nat × Text × Cursor)
  | [], place, widest, breaks => some (max widest place.column, breaks, ⟨[], place⟩)
  | c :: rest, place, widest, breaks =>
    if c = ' ' then leadingLines rest (place.after c) widest breaks
    else if c = '\t' then none
    else if isBreak c then
      leadingLines rest place.nextLine (max widest place.column) (c :: breaks)
    else some (max widest place.column, breaks, ⟨c :: rest, place⟩)

/-- The lines read so far: the text newest first, the break that closed the last line, the breaks
of empty lines since newest first, whether the last line began with a blank, and whether a line is
under way. -/
structure Lines where
  text : Text := []
  lastBreak : Option Char := none
  breaks : Text := []
  blankStart : Bool := false
  inside : Bool := false
deriving DecidableEq, Repr

/-- Begins a line. The break before it becomes a space, or nothing after empty lines, if lines are
folded and neither this line nor the one before begins with a blank. -/
def Lines.begin (lines : Lines) (folded : Bool) (c : Char) : Lines :=
  let joint : Text :=
    if folded && lines.lastBreak == some '\n' && !lines.blankStart && !isBlank c then
      if lines.breaks.isEmpty then [' '] else []
    else lines.lastBreak.toList
  { text := c :: lines.breaks ++ joint ++ lines.text, blankStart := isBlank c, inside := true }

def scan (folded : Bool) (indent : Nat) : Text → Place → Lines → Option (Lines × Cursor)
  | [], place, lines => some (lines, ⟨[], place⟩)
  | c :: rest, place, lines =>
    if lines.inside then
      if isBreak c then
        scan folded indent rest place.nextLine { lines with lastBreak := some c, inside := false }
      else scan folded indent rest (place.after c) { lines with text := c :: lines.text }
    else if isBreak c then
      scan folded indent rest place.nextLine { lines with breaks := c :: lines.breaks }
    else if place.column < indent then
      if c = ' ' then scan folded indent rest (place.after c) lines
      else if c = '\t' then none
      else some (lines, ⟨c :: rest, place⟩)
    else if place.column = indent then
      scan folded indent rest (place.after c) (lines.begin folded c)
    else some (lines, ⟨c :: rest, place⟩)

def Lines.chomped (lines : Lines) : Chomping → Text
  | .strip => lines.text.reverse
  | .clip => lines.text.reverse ++ lines.lastBreak.toList
  | .keep => lines.text.reverse ++ lines.lastBreak.toList ++ lines.breaks.reverse

def read? (folded : Bool) (outer : Option Nat) (cursor : Cursor) : Option (Text × Cursor) := do
  let (chomping, increment, rest) ← header? (cursor.rest.drop 1)
  let cursor ← (cursor.upTo rest).pastLineEnd?
  let least := outer.elim 1 (· + 1)
  match increment with
  | some increment =>
    let indent := outer.getD 0 + increment
    let (lines, cursor) ← scan folded indent cursor.rest cursor.place {}
    return (lines.chomped chomping, cursor)
  | none =>
    let (widest, breaks, cursor) ← leadingLines cursor.rest cursor.place 0 []
    let (lines, cursor) ←
      scan folded (max widest least) cursor.rest cursor.place { breaks }
    return (lines.chomped chomping, cursor)

example : header? ['0'] = none := rfl

example : header? ['-', '2'] = some (.strip, some 2, []) := rfl

end Acceptor.Yaml.Scalar.Block
