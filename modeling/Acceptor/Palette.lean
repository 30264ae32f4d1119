import Acceptor.Text
/-!
The colours that listings and traces are shown in. Each colour is the text that switches a terminal
to it; without colours all of them are empty, so that a plain listing is a coloured one less its
colours.
-/
namespace Acceptor

/-- The texts that switch colours: blue for symbols and headings, green for accepted words and
accept states, red for rejected words and failures, dim for structure. -/
structure Palette where
  blue : Text
  green : Text
  red : Text
  dim : Text
  reset : Text
deriving DecidableEq, Repr

namespace Palette

def rendition (parameter : Text) : Text := ['\x1b', '['] ++ parameter ++ ['m']

def colored : Palette where
  blue := rendition ['3', '4']
  green := rendition ['3', '2']
  red := rendition ['3', '1']
  dim := rendition ['2']
  reset := rendition ['0']

def plain : Palette := ⟨[], [], [], [], []⟩

def choose (wanted : Bool) : Palette := if wanted then colored else plain

def shows (palette : Palette) : Bool := !palette.blue.isEmpty

def verdict (palette : Palette) (accepted : Bool) : Text :=
  if accepted then palette.green else palette.red

end Palette

end Acceptor
