import Acceptor.Text
/-!
Values in JSON, as far as verdicts need it: strings, truth values, and records and lists in a
compact and in an indented form.
-/
namespace Acceptor.Json

/-- The form of a character in a string. Quotes, backslashes and controls are escaped, the controls
that have one by a letter; all else stands for itself. -/
def escaped (c : Char) : Text :=
  match c with
  | '"' => ['\\', '"']
  | '\\' => ['\\', '\\']
  | '\x08' => ['\\', 'b']
  | '\t' => ['\\', 't']
  | '\n' => ['\\', 'n']
  | '\x0c' => ['\\', 'f']
  | '\r' => ['\\', 'r']
  | c =>
    if c < ' ' then ['\\', 'u'] ++ (Nat.toDigits 16 c.toNat).leftpad 4 '0' else [c]

def string (text : Text) : Text := '"' :: text.flatMap escaped ++ ['"']

def truth (value : Bool) : Text := if value then "true".toList else "false".toList

def compactList (items : List Text) : Text := '[' :: Text.joined [','] items ++ [']']

def compactRecord (fields : List (Text × Text)) : Text :=
  '{' :: Text.joined [','] (fields.map fun (name, value) => string name ++ [':'] ++ value) ++ ['}']

def newLine (levels : Nat) : Text := '\n' :: List.replicate (2 * levels) ' '

def indentedList (levels : Nat) (items : List Text) : Text :=
  if items.isEmpty then ['[', ']']
  else '[' :: newLine (levels + 1) ++ Text.joined (',' :: newLine (levels + 1)) items ++
    newLine levels ++ [']']

def indentedRecord (levels : Nat) (fields : List (Text × Text)) : Text :=
  if fields.isEmpty then ['{', '}']
  else '{' :: newLine (levels + 1) ++
    Text.joined (',' :: newLine (levels + 1))
      (fields.map fun (name, value) => string name ++ [':', ' '] ++ value) ++
    newLine levels ++ ['}']

end Acceptor.Json
