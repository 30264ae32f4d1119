import Acceptor.Yaml.Cursor
/-!
Folding: how the blanks and breaks between two words of a scalar are read. Blanks within a line
stand for themselves. Across lines they are dropped, a single line feed becomes a space, and of
several breaks the first is dropped if it is a line feed.
-/
namespace Acceptor.Yaml.Scalar

/-- Blanks and breaks since the last word, the later ones newest first. -/
structure Gap where
  blanks : Text := []
  broken : Bool := false
  firstBreak : Option Char := none
  moreBreaks : Text := []
deriving DecidableEq, Repr

namespace Gap

def empty : Gap := {}

/-- Takes in a blank, which counts only as long as the line goes on. -/
def blank (gap : Gap) (c : Char) : Gap :=
  if gap.broken then gap else { gap with blanks := c :: gap.blanks }

def lineBreak (gap : Gap) (c : Char) : Gap :=
  if gap.broken then { gap with moreBreaks := c :: gap.moreBreaks }
  else { broken := true, firstBreak := some c }

/-- The gap that an escaped break begins: a new line, but no break of its own. -/
def escapedBreak : Gap := { broken := true }

def isOpen (gap : Gap) : Bool := gap.broken || !gap.blanks.isEmpty

def text (gap : Gap) : Text :=
  if gap.broken then
    if gap.firstBreak = some '\n' then
      if gap.moreBreaks.isEmpty then [' '] else gap.moreBreaks.reverse
    else gap.firstBreak.toList ++ gap.moreBreaks.reverse
  else gap.blanks.reverse

example : (empty.lineBreak '\n').text = [' '] := rfl

example : ((empty.lineBreak '\n').lineBreak '\n').text = ['\n'] := rfl

example : (empty.lineBreak '\u2028').text = ['\u2028'] := rfl

end Gap

end Acceptor.Yaml.Scalar
