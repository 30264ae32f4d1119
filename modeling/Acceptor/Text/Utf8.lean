import Acceptor.Text
/-!
UTF-8, read one octet at a time. Between characters any lead octet may come; inside one, each next
octet has bounds that keep out surrogates, numbers beyond the last code point and spellings longer
than needed.
-/
namespace Acceptor.Text.Utf8

abbrev Octet := UInt8

/-- What a character under way still needs: how many octets after the next one, the bounds of the
next one, and the bits read so far. -/
structure Partial where
  after : Nat
  lowest : Nat
  highest : Nat
  bits : Nat
deriving DecidableEq, Repr

def lead? (octet : Nat) : Option Partial :=
  if octet < 0xC2 then none
  else if octet < 0xE0 then some ⟨0, 0x80, 0xBF, octet - 0xC0⟩
  else if octet = 0xE0 then some ⟨1, 0xA0, 0xBF, 0⟩
  else if octet = 0xED then some ⟨1, 0x80, 0x9F, 0xD⟩
  else if octet < 0xF0 then some ⟨1, 0x80, 0xBF, octet - 0xE0⟩
  else if octet = 0xF0 then some ⟨2, 0x90, 0xBF, 0⟩
  else if octet < 0xF4 then some ⟨2, 0x80, 0xBF, octet - 0xF0⟩
  else if octet = 0xF4 then some ⟨2, 0x80, 0x8F, 4⟩
  else none

structure Reading where
  read : Text := []
  underWay : Option Partial := none

def Reading.take? (reading : Reading) (octet : Octet) : Option Reading :=
  match reading.underWay with
  | none =>
    if octet.toNat < 0x80 then some { read := Char.ofNat octet.toNat :: reading.read }
    else (lead? octet.toNat).map fun begun => { reading with underWay := some begun }
  | some begun =>
    if begun.lowest ≤ octet.toNat ∧ octet.toNat ≤ begun.highest then
      let bits := begun.bits * 64 + octet.toNat % 64
      match begun.after with
      | 0 => some { read := Char.ofNat bits :: reading.read }
      | left + 1 => some { reading with underWay := some ⟨left, 0x80, 0xBF, bits⟩ }
    else none

def Reading.text? (reading : Reading) : Option Text :=
  if reading.underWay.isNone then some reading.read.reverse else none

def decode? (octets : List Octet) : Option Text :=
  (octets.foldlM Reading.take? {}).bind Reading.text?

def encode (text : Text) : List Octet := text.flatMap String.utf8EncodeChar

theorem encode_nil : encode [] = [] := rfl

theorem encode_append (text rest : Text) : encode (text ++ rest) = encode text ++ encode rest :=
  List.flatMap_append

example : decode? [0xED, 0xA0, 0x80] = none := by decide

end Acceptor.Text.Utf8
