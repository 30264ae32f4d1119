import Acceptor.Yaml.Character
/-!
Cursors: what is left of a text, and the place where it begins.
-/
namespace Acceptor.Yaml

/-- A place in a text: how many lines stand before it, and how many characters of its own line,
which take so many octets. Indentation goes by characters, the length of a key by octets. -/
structure Place where
  line : Nat := 0
  column : Nat := 0
  octets : Nat := 0
deriving DecidableEq, Repr

namespace Place

def after (place : Place) (c : Char) : Place :=
  { place with column := place.column + 1, octets := place.octets + c.utf8Size }

def afterAll (place : Place) (text : Text) : Place := text.foldl after place

def nextLine (place : Place) : Place := { line := place.line + 1 }

theorem octets_afterAll (place : Place) (text : Text) :
    (place.afterAll text).octets = place.octets + (Text.Utf8.encode text).length := by
  induction text generalizing place with
  | nil => rfl
  | cons c rest ih =>
    have behind : (place.afterAll (c :: rest)).octets =
        place.octets + c.utf8Size + (Text.Utf8.encode rest).length := ih (place.after c)
    have spelled : Text.Utf8.encode (c :: rest) =
        String.utf8EncodeChar c ++ Text.Utf8.encode rest := rfl
    rw [behind, spelled, List.length_append, String.length_utf8EncodeChar, Nat.add_assoc]

end Place

structure Cursor where
  rest : Text
  place : Place := {}
deriving DecidableEq, Repr

def startsWithDocumentMark : Text → Bool
  | '-' :: '-' :: '-' :: rest => endsWord rest
  | '.' :: '.' :: '.' :: rest => endsWord rest
  | _ => false

namespace Cursor

def advance (cursor : Cursor) (count : Nat) : Cursor :=
  { rest := cursor.rest.drop count, place := cursor.place.afterAll (cursor.rest.take count) }

def upTo (cursor : Cursor) (rest : Text) : Cursor :=
  { rest, place := cursor.place.afterAll (cursor.rest.take (cursor.rest.length - rest.length)) }

def past (cursor : Cursor) (kind : Char → Bool) : Cursor :=
  cursor.upTo (cursor.rest.dropWhile kind)

def nextLine (cursor : Cursor) : Cursor :=
  { rest := cursor.rest.drop 1, place := cursor.place.nextLine }

def pastLineEnd? (cursor : Cursor) : Option Cursor :=
  let cursor := cursor.past isBlank
  let cursor := if cursor.rest.head? == some '#' then cursor.past (!isBreak ·) else cursor
  match cursor.rest with
  | [] => some cursor
  | c :: _ => if isBreak c then some cursor.nextLine else none

def atDocumentMark (cursor : Cursor) : Bool :=
  cursor.place.column == 0 && startsWithDocumentMark cursor.rest

/-- Moves past everything that may stand between tokens: blanks, comments, breaks, and a byte order
mark at the start of a line. Tabs count as blanks only inside flow collections and where no
implicit key may begin. Outside flow collections a key may begin on every new line; the flag says
whether one may begin at the end of the gap. -/
def pastGap (inFlow : Bool) : Text → Place → Bool → Cursor × Bool
  | [], place, keyAllowed => (⟨[], place⟩, keyAllowed)
  | c :: rest, place, keyAllowed =>
    if c = '\uFEFF' && place.column = 0 then pastGap inFlow rest (place.after c) keyAllowed
    else if c = ' ' || c = '\t' && (inFlow || !keyAllowed) then
      pastGap inFlow rest (place.after c) keyAllowed
    else if isBreak c then pastGap inFlow rest place.nextLine (keyAllowed || !inFlow)
    else if c = '#' then comment rest (place.after c) keyAllowed
    else (⟨c :: rest, place⟩, keyAllowed)
where
  comment : Text → Place → Bool → Cursor × Bool
  | [], place, keyAllowed => (⟨[], place⟩, keyAllowed)
  | c :: rest, place, keyAllowed =>
    if isBreak c then pastGap inFlow rest place.nextLine (keyAllowed || !inFlow)
    else comment rest (place.after c) keyAllowed

theorem pastGap_of_token {inFlow : Bool} {c : Char} (rest : Text) (place : Place)
    (keyAllowed : Bool) (notMark : c ≠ '\uFEFF') (notBlank : isBlank c = false)
    (notBreak : isBreak c = false) (notComment : c ≠ '#') :
    pastGap inFlow (c :: rest) place keyAllowed = (⟨c :: rest, place⟩, keyAllowed) := by
  simp only [isBlank, Bool.or_eq_false_iff, beq_eq_false_iff_ne] at notBlank
  simp [pastGap, notMark, notBlank.1, notBlank.2, notBreak, notComment]

end Cursor

end Acceptor.Yaml
