import Acceptor.Yaml.Scalar.Folding
/-!
Plain scalars: words without quotes, which end at a colon or comment, at an indicator of the
enclosing flow collection, or where the indentation does.
-/
namespace Acceptor.Yaml.Scalar.Plain

/-- Indicators that end a plain scalar inside a flow collection. A question mark is none of them:
it announces a key only where a token begins. -/
def endsInFlow (c : Char) : Bool := ",[]\x7b\x7d".toList.contains c

def refusesColon (c : Char) : Bool := c == '?' || endsInFlow c

/-- Reads on after a gap and a text that is kept newest first, up to the end of the scalar. Gives
the text, where the scalar ends, and whether that is on a line after its last word. -/
def scan (inFlow : Bool) (indent : Nat) : Text → Place → Gap → Text →
    Option (Text × Cursor × Bool)
  | [], place, gap, text => some (text.reverse, ⟨[], place⟩, gap.broken)
  | c :: rest, place, gap, text =>
    let cursor : Cursor := ⟨c :: rest, place⟩
    if isBlank c then
      if c = '\t' && gap.broken && place.column < indent then none
      else scan inFlow indent rest (place.after c) (gap.blank c) text
    else if isBreak c then scan inFlow indent rest place.nextLine (gap.lineBreak c) text
    else if gap.isOpen &&
        (!inFlow && place.column < indent || cursor.atDocumentMark || c = '#') then
      some (text.reverse, cursor, gap.broken)
    else if inFlow && c = ':' && rest.head?.any refusesColon then none
    else if c = ':' && endsWord rest || inFlow && endsInFlow c then
      some (text.reverse, cursor, gap.broken)
    else scan inFlow indent rest (place.after c) .empty (c :: gap.text.reverse ++ text)

def mayBegin (inFlow : Bool) : Text → Bool
  | [] => false
  | c :: rest =>
    !(isBlank c || isBreak c || "-?:,[]\x7b\x7d#&*!|>'\"%@\x60".toList.contains c) ||
      c == '-' && !rest.head?.any isBlank || !inFlow && (c == '?' || c == ':') && !endsWord rest

def read? (inFlow : Bool) (indent : Nat) (cursor : Cursor) : Option (Text × Cursor × Bool) :=
  scan inFlow indent cursor.rest cursor.place .empty []

end Acceptor.Yaml.Scalar.Plain
