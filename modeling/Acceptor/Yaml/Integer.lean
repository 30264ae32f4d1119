import Acceptor.Yaml.Character
/-!
Integers of sixty-four bits as scalars give them: decimal digits without leading zeros, or digits of
another base behind its mark, with at most one sign.
-/
namespace Acceptor.Yaml.Integer

/-- Whether an integer has sixty-four bits, one of them for its sign. -/
def InRange (value : Int) : Prop :=
  -0x8000000000000000 ≤ value ∧ value ≤ 0x7FFFFFFFFFFFFFFF

instance (value : Int) : Decidable (InRange value) := inferInstanceAs (Decidable (_ ∧ _))

def magnitude? (base : Nat) (digits : Text) : Option Nat :=
  if digits.isEmpty then none
  else digits.foldlM (fun value c => do
    let digit ← hexDigit? c
    if digit < base then some (value * base + digit) else none) 0

def within? (value : Int) : Option Int := if InRange value then some value else none

def baseOfMark? : Char → Option Nat
  | 'x' => some 16
  | 'o' => some 8
  | 'b' => some 2
  | _ => none

/-- An unsigned numeral: with the mark of its base, or decimal and without a leading zero. -/
def unsigned? : Text → Option Nat
  | '0' :: mark :: digits => (baseOfMark? mark).bind (magnitude? · digits)
  | digits => magnitude? 10 digits

def read? : Text → Option Int
  | '-' :: digits => (unsigned? digits).bind fun value => within? (-value)
  | '+' :: digits => (unsigned? digits).bind fun value => within? value
  | digits => (unsigned? digits).bind fun value => within? value

example : read? "007".toList = none := by decide

example : read? "-0x1F".toList = some (-31) := by decide

end Acceptor.Yaml.Integer
