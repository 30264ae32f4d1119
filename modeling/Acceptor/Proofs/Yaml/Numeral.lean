import Acceptor.Description.Flow
import Acceptor.Yaml.Integer
import Acceptor.Yaml.Scalar.Quoted
/-!
Numerals read back: a number is what its decimal numeral says, and a symbol is what the hexadecimal
digits of its code point say.
-/
namespace Acceptor.Yaml

open Text

/-! Digits -/

theorem hexDigit?_digitChar {digit : Nat} (small : digit < 16) :
    hexDigit? (Nat.digitChar digit) = some digit := by
  have all : ∀ digit, digit < 16 → hexDigit? (Nat.digitChar digit) = some digit := by decide
  exact all digit small

theorem digitChar_ne_zero {digit : Nat} (positive : 0 < digit) (small : digit < 10) :
    Nat.digitChar digit ≠ '0' := by
  have all : ∀ digit, digit < 10 → 0 < digit → Nat.digitChar digit ≠ '0' := by decide
  exact all digit small positive

/-! Decimal numerals -/

theorem isDigit_of_mem_ofNat (n : Nat) : ∀ c ∈ Decimal.ofNat n, c.isDigit = true :=
  fun _ member => Nat.isDigit_of_mem_toDigits (by decide) (by decide) member

theorem foldlM_ofNat (n : Nat) :
    (Decimal.ofNat n).foldlM (fun value c => do
      let digit ← hexDigit? c
      if digit < 10 then some (value * 10 + digit) else none) 0 = some n := by
  induction n using Decimal.digits_induction (by decide : 1 < 10) with
  | one n below =>
    rw [Decimal.ofNat_of_lt below, List.foldlM_cons, hexDigit?_digitChar (by omega)]
    simp [below]
  | more n above ih =>
    have last : n % 10 < 10 := Nat.mod_lt n (by decide)
    have whole : n / 10 * 10 + n % 10 = n := by omega
    rw [Decimal.ofNat_of_le above, List.foldlM_append, ih]
    change (do
      let digit ← hexDigit? (Nat.digitChar (n % 10))
      if digit < 10 then some (n / 10 * 10 + digit) else none).bind _ = _
    rw [hexDigit?_digitChar (by omega)]
    simp [last, whole]

theorem exists_head_ofNat {n : Nat} (positive : 0 < n) :
    ∃ first rest, Decimal.ofNat n = first :: rest ∧ first ≠ '0' := by
  induction n using Decimal.digits_induction (by decide : 1 < 10) with
  | one n below =>
    exact ⟨_, [], Decimal.ofNat_of_lt below, digitChar_ne_zero positive below⟩
  | more n above ih =>
    obtain ⟨first, rest, spelled, differ⟩ := ih (by omega)
    refine ⟨first, rest ++ [(n % 10).digitChar], ?_, differ⟩
    rw [Decimal.ofNat_of_le above, spelled]
    rfl

theorem exists_digit_ofNat (n : Nat) :
    ∃ first rest, Decimal.ofNat n = first :: rest ∧ first.isDigit = true := by
  by_cases zero : n = 0
  · subst zero
    exact ⟨'0', [], rfl, rfl⟩
  · obtain ⟨first, rest, spelled, _⟩ := exists_head_ofNat (Nat.pos_of_ne_zero zero)
    refine ⟨first, rest, spelled, isDigit_of_mem_ofNat n first ?_⟩
    rw [spelled]
    exact List.mem_cons_self

theorem magnitude?_ofNat (n : Nat) : Integer.magnitude? 10 (Decimal.ofNat n) = some n := by
  obtain ⟨first, rest, spelled, _⟩ := exists_digit_ofNat n
  have written : (Decimal.ofNat n).isEmpty = false := by
    rw [spelled]
    rfl
  rw [Integer.magnitude?, written]
  exact foldlM_ofNat n

theorem unsigned?_ofNat (n : Nat) : Integer.unsigned? (Decimal.ofNat n) = some n := by
  by_cases zero : n = 0
  · subst zero
    rfl
  · obtain ⟨first, rest, spelled, differ⟩ := exists_head_ofNat (Nat.pos_of_ne_zero zero)
    have plain : Integer.unsigned? (first :: rest) = Integer.magnitude? 10 (first :: rest) := by
      unfold Integer.unsigned?
      split
      next same =>
        injection same with same _
        exact absurd same differ
      next => rfl
    rw [spelled, plain, ← spelled, magnitude?_ofNat]

/-- A number of sixty-four bits is read back from its numeral. -/
theorem read?_ofInt {n : Int} (fits : Integer.InRange n) :
    Integer.read? (Decimal.ofInt n) = some n := by
  cases n with
  | ofNat n =>
    obtain ⟨first, rest, spelled, digit⟩ := exists_digit_ofNat n
    have unsigned : Integer.read? (first :: rest) =
        (Integer.unsigned? (first :: rest)).bind fun value => Integer.within? value := by
      unfold Integer.read?
      split
      next same =>
        injection same with same _
        subst same
        cases digit
      next same =>
        injection same with same _
        subst same
        cases digit
      next => rfl
    rw [Decimal.ofInt, spelled, unsigned, ← spelled, unsigned?_ofNat]
    exact if_pos fits
  | negSucc n =>
    have negative : -((n + 1 : Nat) : Int) = Int.negSucc n := rfl
    change (Integer.unsigned? (Decimal.ofNat (n + 1))).bind _ = _
    rw [unsigned?_ofNat, Option.bind_some, negative, Integer.within?, if_pos fits]

/-! Code points -/

theorem hexadecimal?_digits (width value : Nat) :
    hexadecimal? (Description.Flow.digits width value) = some (value % Nat.pow 16 width) := by
  induction width generalizing value with
  | zero => exact congrArg some (Nat.mod_one value).symm
  | succ width ih =>
    have last : value % 16 < 16 := Nat.mod_lt value (by decide)
    have whole : value / 16 % Nat.pow 16 width * 16 + value % 16 =
        value % Nat.pow 16 (width + 1) := by
      have power : Nat.pow 16 (width + 1) = 16 * Nat.pow 16 width := Nat.mul_comm _ _
      rw [power, Nat.mod_mul]
      omega
    rw [Description.Flow.digits, hexadecimal?, List.foldlM_append]
    change (hexadecimal? (Description.Flow.digits width (value / 16))).bind _ = _
    rw [ih]
    change ((hexDigit? (Nat.digitChar (value % 16))).map _).bind _ = _
    rw [hexDigit?_digitChar last, ← whole]
    rfl

theorem hexadecimal?_toDigits (n : Nat) : hexadecimal? (Nat.toDigits 16 n) = some n := by
  induction n using Decimal.digits_induction (by decide : 1 < 16) with
  | one n below =>
    rw [Nat.toDigits_of_lt_base below, hexadecimal?, List.foldlM_cons, hexDigit?_digitChar below]
    simp
  | more n above ih =>
    have last : n % 16 < 16 := Nat.mod_lt n (by decide)
    have whole : n / 16 * 16 + n % 16 = n := by omega
    rw [Nat.toDigits_of_base_le (by decide) above, hexadecimal?, List.foldlM_append]
    change (hexadecimal? (Nat.toDigits 16 (n / 16))).bind _ = _
    rw [ih]
    change ((hexDigit? (Nat.digitChar (n % 16))).map _).bind _ = _
    rw [hexDigit?_digitChar last]
    exact congrArg some whole

theorem ofDigits?_of_hexadecimal? {digits : Text} {c : Char}
    (denote : hexadecimal? digits = some c.toNat) :
    Scalar.Quoted.ofDigits? digits = some c := by
  have valid : c.toNat.isValidChar := c.valid
  rw [Scalar.Quoted.ofDigits?, denote, Option.bind_some, if_pos valid, Char.ofNat_toNat]

/-- A symbol is read back from the eight digits of its code point. -/
theorem ofDigits?_digits (c : Char) :
    Scalar.Quoted.ofDigits? (Description.Flow.digits 8 c.toNat) = some c := by
  have valid : c.toNat.isValidChar := c.valid
  have power : Nat.pow 16 8 = 0x100000000 := by decide
  have small : c.toNat < Nat.pow 16 8 := by
    rcases valid with low | high
    · omega
    · omega
  apply ofDigits?_of_hexadecimal?
  rw [hexadecimal?_digits, Nat.mod_eq_of_lt small]

end Acceptor.Yaml
