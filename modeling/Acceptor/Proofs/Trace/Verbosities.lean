import Acceptor.Proofs.Palette
import Acceptor.Proofs.Table.Bounds
/-!
Verbosities compared. All three tell one story, of which each line has its topic. The highest adds
positions to the lines about symbols, counted from the first of them on, and the lowest leaves out
the lines about transitions; nothing else differs, whatever the colours are. A transition is told
from all other topics by the arrow in its line.
-/
namespace Acceptor.Trace

inductive Topic where
  | start
  | move
  | unknown
  | verdict
deriving DecidableEq, Repr

/-- Whether a line is about a symbol of the word, so that it has a position to tell. -/
def Topic.ofSymbol : Topic → Bool
  | start => false
  | move => true
  | unknown => true
  | verdict => false

/-- Lines with positions: those about symbols are counted on from a first position, and each has its
own at the end. -/
def numbered (palette : Palette) : Nat → List (Topic × Text) → List Text
  | _, [] => []
  | position, (topic, line) :: later =>
    if topic.ofSymbol then
      (line ++ positionMark .veryVerbose palette position) ::
        numbered palette (position + 1) later
    else line :: numbered palette position later

def IsSign (c : Char) : Prop := c = '-' ∨ c = '>'

instance (c : Char) : Decidable (IsSign c) := inferInstanceAs (Decidable (_ ∨ _))

def Signless (text : Text) : Prop := ∀ c ∈ text, ¬ IsSign c

instance (text : Text) : Decidable (Signless text) :=
  List.decidableBAll (fun c : Char => ¬ IsSign c) text

theorem Signless.notMem {text : Text} {sign : Char} (signless : Signless text)
    (isSign : IsSign sign) : sign ∉ text :=
  fun found => signless sign found isSign

variable {wanted : Bool}

end Acceptor.Trace
