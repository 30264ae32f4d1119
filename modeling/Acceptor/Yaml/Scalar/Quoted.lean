import Acceptor.Yaml.Scalar.Folding
/-!
Quoted scalars. Between single quotes only a doubled quote is special. Between double quotes a
backslash begins an escape: a letter for one character, a hexadecimal code point, or a break that
is to leave no trace. In both, lines are folded.
-/
namespace Acceptor.Yaml.Scalar.Quoted

def escape? : Char → Option Char
  | '0' => some '\x00'
  | 'a' => some '\x07'
  | 'b' => some '\x08'
  | 't' => some '\t'
  | '\t' => some '\t'
  | 'n' => some '\n'
  | 'v' => some '\x0b'
  | 'f' => some '\x0c'
  | 'r' => some '\r'
  | 'e' => some '\x1b'
  | ' ' => some ' '
  | '"' => some '"'
  | '/' => some '/'
  | '\\' => some '\\'
  | 'N' => some '\u0085'
  | '_' => some '\u00A0'
  | 'L' => some '\u2028'
  | 'P' => some '\u2029'
  | _ => none

def ofDigits? (digits : Text) : Option Char :=
  (hexadecimal? digits).bind fun value =>
    if value.isValidChar then some (.ofNat value) else none

/-- Reads on after a gap and a text that is kept newest first, up to and past the closing quote. -/
def scan (double : Bool) : Text → Place → Gap → Text → Option (Text × Cursor)
  | [], _, _, _ => none
  | c :: rest, place, gap, text =>
    if isBlank c then scan double rest (place.after c) (gap.blank c) text
    else if isBreak c then scan double rest place.nextLine (gap.lineBreak c) text
    else if gap.isOpen && (Cursor.mk (c :: rest) place).atDocumentMark then none
    else
      let text := gap.text.reverse ++ text
      if double then
        if c = '"' then some (text.reverse, ⟨rest, place.after c⟩)
        else if c = '\\' then
          match rest with
          | [] => none
          | 'x' :: a :: b :: rest =>
            match ofDigits? [a, b] with
            | some read =>
              scan double rest (place.afterAll ['\\', 'x', a, b]) .empty (read :: text)
            | none => none
          | 'u' :: a :: b :: c :: d :: rest =>
            match ofDigits? [a, b, c, d] with
            | some read =>
              scan double rest (place.afterAll ['\\', 'u', a, b, c, d]) .empty (read :: text)
            | none => none
          | 'U' :: a :: b :: c :: d :: e :: f :: g :: h :: rest =>
            match ofDigits? [a, b, c, d, e, f, g, h] with
            | some read =>
              scan double rest (place.afterAll ['\\', 'U', a, b, c, d, e, f, g, h]) .empty
                (read :: text)
            | none => none
          | letter :: rest =>
            if isBreak letter then scan double rest place.nextLine .escapedBreak text
            else match escape? letter with
              | some read =>
                scan double rest (place.afterAll ['\\', letter]) .empty (read :: text)
              | none => none
        else scan double rest (place.after c) .empty (c :: text)
      else if c = '\'' then
        match rest with
        | '\'' :: rest =>
          scan double rest (place.afterAll ['\'', '\'']) .empty ('\'' :: text)
        | rest => some (text.reverse, ⟨rest, place.after c⟩)
      else scan double rest (place.after c) .empty (c :: text)

def read? (double : Bool) (cursor : Cursor) : Option (Text × Cursor) :=
  scan double (cursor.advance 1).rest (cursor.advance 1).place .empty []

example : ofDigits? ['d', '8', '0', '0'] = none := by decide

end Acceptor.Yaml.Scalar.Quoted
