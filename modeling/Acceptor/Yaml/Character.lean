import Acceptor.Text.Utf8
/-!
The characters of a document: which may occur at all, which break lines, and which stand in names.
A stream is read into a text in which every break that means a line feed is one.
-/
namespace Acceptor.Yaml

def isAllowed (c : Char) : Bool :=
  c == '\t' || c == '\n' || c == '\r' || c == '\u0085' || (' ' ≤ c && c ≤ '~') ||
    ('\u00A0' ≤ c && c ≤ '\uFFFD') || 0x10000 ≤ c.toNat

/-- Line breaks, once those that mean a line feed have been unified. -/
def isBreak (c : Char) : Bool := c == '\n' || c == '\u2028' || c == '\u2029'

def isBlank (c : Char) : Bool := c == ' ' || c == '\t'

def isWord (c : Char) : Bool := c.isAlphanum || c == '_' || c == '-'

def endsWord : Text → Bool
  | [] => true
  | c :: _ => isBlank c || isBreak c

def hexDigit? (c : Char) : Option Nat :=
  if c.isDigit then some (c.toNat - '0'.toNat)
  else if 'a' ≤ c && c ≤ 'f' then some (c.toNat - 'a'.toNat + 10)
  else if 'A' ≤ c && c ≤ 'F' then some (c.toNat - 'A'.toNat + 10)
  else none

def hexadecimal? (digits : Text) : Option Nat :=
  digits.foldlM (fun value c => (hexDigit? c).map (value * 16 + ·)) 0

/-- Breaks with a carriage return and the next-line character all mean a line feed; the line and
paragraph separators stay what they are. -/
def unifyBreaks : Text → Text
  | [] => []
  | c :: rest =>
    if c = '\r' && rest.head? == some '\n' then unifyBreaks rest
    else if c = '\r' || c = '\u0085' then '\n' :: unifyBreaks rest
    else c :: unifyBreaks rest

def stream? (octets : List Text.Utf8.Octet) : Option Text := do
  let text ← Text.Utf8.decode? octets
  if text.all isAllowed then some (unifyBreaks text) else none

theorem unifyBreaks_of_plain {text : Text} (plain : ∀ c ∈ text, c ≠ '\r' ∧ c ≠ '\u0085') :
    unifyBreaks text = text := by
  induction text with
  | nil => rfl
  | cons c rest ih =>
    have here := plain c (by simp)
    simp [unifyBreaks, here.1, here.2, ih fun other member => plain other (by simp [member])]

end Acceptor.Yaml
