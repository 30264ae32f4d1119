import Acceptor.Description
import Acceptor.Text.Utf8
/-!
Descriptions on a single line, between brackets: a form in which every description can be written,
whatever it declares. Each symbol is given by its code point, so that none can be mistaken for a
mark of the format.
-/
namespace Acceptor.Description.Flow

def digits : Nat → Nat → Text
  | 0, _ => []
  | width + 1, value => digits width (value / 16) ++ [Nat.digitChar (value % 16)]

def symbol (c : Char) : Text := ['\\', 'U'] ++ digits 8 c.toNat

def symbols (text : Text) : Text := '"' :: text.flatMap symbol ++ ['"']

def list (items : List Text) : Text := '[' :: Text.joined [',', ' '] items ++ [']']

def field (key value : Text) : Text := '"' :: key ++ ['"', ':', ' '] ++ value

def record (fields : List Text) : Text := '{' :: Text.joined [',', ' '] fields ++ ['}']

def states (listed : List State) : Text := list (listed.map State.text)

def group (transitions : Group) : Text :=
  record [field inputKey (symbols transitions.symbols),
    field outputsKey (states transitions.outputs)]

/-- A description. What it does not declare is left out. -/
def line (description : Description) : Text :=
  record <|
    (description.stateCount.map fun count => field statesKey (Text.Decimal.ofInt count)).toList ++
    (description.start.map fun start => field initialKey start.text).toList ++
    [field finalStatesKey (states description.accepting),
      field transitionsKey (list (description.groups.map group))]

def octets (description : Description) : List Text.Utf8.Octet := Text.Utf8.encode (line description)

theorem length_digits (width value : Nat) : (digits width value).length = width := by
  induction width generalizing value with
  | zero => rfl
  | succ width ih => simp [digits, ih]

example : symbol 'a' = "\\U00000061".toList := by decide

end Acceptor.Description.Flow
