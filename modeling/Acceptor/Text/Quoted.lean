import Acceptor.Text.Extending
import Acceptor.Text.Invisible
import Acceptor.Text
/-!
Symbols as they are shown to a reader: between single quotes, on one line, each character in a
form that cannot be mistaken for another.
-/
namespace Acceptor.Text.Quoted

def shortForm? : Char → Option Char
  | '\x00' => some '0'
  | '\t' => some 't'
  | '\n' => some 'n'
  | '\r' => some 'r'
  | '\'' => some '\''
  | '"' => some '"'
  | '\\' => some '\\'
  | _ => none

def visible (c : Char) : Bool := !Extending.holds c && !Invisible.holds c

def braced (c : Char) : Text := ['\\', 'u', '{'] ++ Nat.toDigits 16 c.toNat ++ ['}']

def escaped (c : Char) : Text :=
  match shortForm? c with
  | some letter => ['\\', letter]
  | none => if visible c then [c] else braced c

def quote (c : Char) : Text := '\'' :: escaped c ++ ['\'']

/-- A symbol between single quotes where a double quote needs no backslash. -/
def literal (c : Char) : Text := if c = '"' then ['\'', '"', '\''] else quote c

/-- The name of a code point: `U+` and at least four upper-case hexadecimal digits. -/
def codePoint (c : Char) : Text :=
  ['U', '+'] ++ ((Nat.toDigits 16 c.toNat).map Char.toUpper).leftpad 4 '0'

example : quote '\n' = "'\\n'".toList := by decide

example : quote '\u0301' = "'\\u\x7b301\x7d'".toList := by decide +kernel

example : codePoint 'a' = "U+0061".toList := by decide

end Acceptor.Text.Quoted
