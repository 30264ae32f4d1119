import Acceptor.Palette
import Acceptor.Table
import Acceptor.Text.Quoted
/-!
Tables as readable listings. The first part states the counts and special states; the second has
a column for every source state and a row for every symbol, aligned on the widest label and the
widest state:

```text
[automaton]
states = 3
start  = 1
accept = 3

[transitions]
     1  2  3
'a'  2  3  1
'b'  1  2  3
```
-/
namespace Acceptor.Table

def nothingListed (palette : Palette) : Text := palette.dim ++ "(none)".toList ++ palette.reset

def heading (palette : Palette) (title : Text) : Text :=
  palette.blue ++ ['['] ++ title ++ [']'] ++ palette.reset

def acceptList (palette : Palette) (table : Table) : Text :=
  if table.accepting.isEmpty then nothingListed palette
  else palette.green ++ Text.joined [',', ' '] (table.acceptStates.map State.text) ++ palette.reset

def summaryLines (palette : Palette) (table : Table) : List Text :=
  [heading palette "automaton".toList,
   "states = ".toList ++ Text.Decimal.ofNat table.stateCount,
   "start  = ".toList ++ table.startState.text,
   "accept = ".toList ++ acceptList palette table]

/-- A state in its column: two spaces, then the numeral aligned on the right. -/
def cell (width : Nat) (state : State) : Text := [' ', ' '] ++ state.text.leftpad width ' '

def states (table : Table) : List State := (List.range table.stateCount).map .ofIndex

def columnLine (palette : Palette) (labelWidth : Nat) (table : Table) : Text :=
  List.replicate labelWidth ' ' ++ palette.dim ++
    table.states.flatMap (cell (Text.Decimal.width table.stateCount)) ++ palette.reset

def rowLine (palette : Palette) (labelWidth : Nat) (table : Table) (symbol : Char) : Text :=
  palette.green ++ (Text.Quoted.quote symbol).rightpad labelWidth ' ' ++ palette.reset ++
    ((table.successors? symbol).getD []).flatMap (cell (Text.Decimal.width table.stateCount))

def labelWidth (table : Table) : Nat :=
  (table.alphabet.map fun symbol => (Text.Quoted.quote symbol).length).foldl max 0

def transitionLines (palette : Palette) (table : Table) : List Text :=
  heading palette "transitions".toList ::
    if table.rows.isEmpty then [nothingListed palette]
    else
      columnLine palette table.labelWidth table ::
        table.alphabet.map (rowLine palette table.labelWidth table)

def dump (palette : Palette) (table : Table) : Text :=
  Text.unlines (summaryLines palette table ++ [] :: transitionLines palette table)

end Acceptor.Table
