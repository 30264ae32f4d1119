import Acceptor.Proofs.Text.Columns
import Acceptor.State
import Mathlib.Algebra.Group.Nat.Defs
/-!
How wide a number is, found by dividing it away. One digit is there in any case, and each division
by ten that leaves something adds one. The count comes to an end for every number that is a machine
word, and at every power of ten it gives the length of the numeral exactly.
-/
namespace Acceptor.Text.Decimal

/-- A count of digits under way, in machine words: what was counted, and what the divisions have
left of the number. -/
structure Counting where
  width : UInt64
  rest : UInt64
deriving DecidableEq, Repr

namespace Counting

def start (number : UInt64) : Counting := ⟨1, number / 10⟩

def turn? (counting : Counting) : Option Counting :=
  if 0 < counting.rest then some ⟨counting.width + 1, counting.rest / 10⟩ else none

/-- The turns that are taken from a count on come to an end, with this width. -/
inductive Ends : Counting → UInt64 → Prop
  | stop {counting : Counting} (last : counting.turn? = none) : Ends counting counting.width
  | turn {counting next : Counting} {width : UInt64} (taken : counting.turn? = some next)
      (later : Ends next width) : Ends counting width

theorem Ends.unique {counting : Counting} {first second : UInt64} (one : counting.Ends first)
    (other : counting.Ends second) : first = second := by
  induction one with
  | stop last =>
    cases other with
    | stop => rfl
    | turn taken => cases last.symm.trans taken
  | turn taken later ih =>
    cases other with
    | stop last => cases last.symm.trans taken
    | turn again later =>
      cases taken.symm.trans again
      exact ih later

end Counting

theorem one_le_width (n : Nat) : 1 ≤ width n := by
  rw [← length_ofNat]
  exact Nat.length_toDigits_pos

theorem width_le_iff {n k : Nat} (some : 0 < k) : width n ≤ k ↔ n < 10 ^ k := by
  rw [← length_ofNat]
  exact Nat.length_toDigits_le_iff (by decide) some

theorem width_eq_iff {n k : Nat} (positive : 0 < n) :
    width n = k ↔ 10 ^ (k - 1) ≤ n ∧ n < 10 ^ k := by
  have least := one_le_width n
  cases k with
  | zero =>
    rw [Nat.pow_zero]
    omega
  | succ k =>
    have atMost : width n ≤ k + 1 ↔ n < 10 ^ (k + 1) := width_le_iff (Nat.succ_pos k)
    rw [Nat.add_sub_cancel]
    cases k with
    | zero =>
      rw [Nat.pow_zero]
      omega
    | succ k =>
      have fewer : width n ≤ k + 1 ↔ n < 10 ^ (k + 1) := width_le_iff (Nat.succ_pos k)
      omega

theorem width_le_width {m n : Nat} (atMost : m ≤ n) : width m ≤ width n := by
  rw [← length_ofNat, ← length_ofNat]
  exact length_ofNat_le atMost

/-- A machine word has twenty digits at most, so that counting them never wraps around. -/
theorem width_toNat_le (number : UInt64) : width number.toNat ≤ 20 :=
  (width_le_iff (by decide)).mpr (Nat.lt_of_lt_of_le number.toNat_lt (by decide))

/-- From where a number has been divided once, each turn divides it once more, so there are as many
turns as it has digits behind its first. -/
theorem Counting.exists_ends (n : Nat) (counting : Counting)
    (left : counting.rest.toNat = n / 10)
    (room : counting.width.toNat + Decimal.width n ≤ 2 ^ 64) :
    ∃ result, counting.Ends result ∧
      result.toNat + 1 = counting.width.toNat + Decimal.width n := by
  induction n using digits_induction (by decide : 1 < 10) generalizing counting with
  | one n below =>
    have nothing : counting.turn? = none := by
      rw [turn?, if_neg]
      rw [UInt64.lt_iff_toNat_lt, left, Nat.div_eq_of_lt below]
      exact Nat.lt_irrefl 0
    exact ⟨counting.width, .stop nothing, by rw [width_of_lt below]⟩
  | more n large ih =>
    rw [width_of_le large] at room ⊢
    have least := one_le_width (n / 10)
    have something : counting.turn? = some ⟨counting.width + 1, counting.rest / 10⟩ := by
      rw [turn?, if_pos]
      rw [UInt64.lt_iff_toNat_lt, left]
      exact Nat.div_pos large (by decide)
    -- There is room for the whole width, so this addition stays below the end of the words.
    have inside : counting.width.toNat + 1 < 2 ^ 64 := by omega
    have counted : (counting.width + 1).toNat = counting.width.toNat + 1 :=
      (UInt64.toNat_add counting.width 1).trans (Nat.mod_eq_of_lt inside)
    have divided : (counting.rest / 10).toNat = n / 10 / 10 := by
      rw [UInt64.toNat_div, left]
      rfl
    have further : (counting.width + 1).toNat + Decimal.width (n / 10) ≤ 2 ^ 64 := by omega
    obtain ⟨result, ends, same⟩ := ih ⟨counting.width + 1, counting.rest / 10⟩ divided further
    refine ⟨result, .turn something ends, ?_⟩
    rw [same, counted]
    omega

/-- The width of a number is the length of its numeral. Dividing the number away comes to an end,
and what it has counted by then is that length. It is one for zero, and for any other number the
exponent of the least power of ten above it. So a wider number is a greater one, and there is room
for every state in as many characters as the number of states needs. -/
theorem width_is_length_of_numeral :
    (∀ number : UInt64, (∃ result, (Counting.start number).Ends result) ∧
        ∀ result, (Counting.start number).Ends result → result.toNat = width number.toNat) ∧
      (∀ n, width n = (ofNat n).length) ∧
      width 0 = 1 ∧
      (∀ n k, 0 < n → (width n = k ↔ 10 ^ (k - 1) ≤ n ∧ n < 10 ^ k)) ∧
      (∀ m n, m ≤ n → width m ≤ width n) ∧
      ∀ (n : Nat) (state : State), state.Within n → state.text.length ≤ width n := by
  refine ⟨?_, fun n => (length_ofNat n).symm, width_of_lt (by decide),
    fun n k => width_eq_iff, fun m n => width_le_width, ?_⟩
  · intro number
    have divided : (number / 10).toNat = number.toNat / 10 := UInt64.toNat_div number 10
    have room : (1 : UInt64).toNat + width number.toNat ≤ 2 ^ 64 :=
      Nat.le_trans (Nat.add_le_add_left (width_toNat_le number) 1) (by decide)
    obtain ⟨result, ends, same⟩ := Counting.exists_ends number.toNat (.start number) divided room
    refine ⟨⟨result, ends⟩, ?_⟩
    intro other again
    rw [again.unique ends]
    exact Nat.add_right_cancel (same.trans (Nat.add_comm 1 _))
  · intro n state within
    obtain ⟨place, rfl⟩ : ∃ place, state = .ofIndex place :=
      ⟨state.index, (State.ofIndex_index within.1).symm⟩
    rw [← length_ofNat]
    exact length_ofNat_le (State.within_ofIndex.mp within)

/-- On both sides of a power of ten, and for a state with as many digits as there is room for. -/
theorem width_is_length_of_numeral_at_thousand :
    (∃ result, (Counting.start 999).Ends result ∧ result.toNat = 3) ∧ width 1000 = 4 ∧
      width 999 ≤ width 1000 ∧ (State.mk 1000).Within 1000 ∧
      (State.mk 1000).text.length ≤ width 1000 := by
  obtain ⟨counted, _, _, exact, wider, fits⟩ := width_is_length_of_numeral
  have below : width 999 = 3 := (exact 999 3 (by decide)).mpr ⟨by decide, by decide⟩
  have above : width 1000 = 4 := (exact 1000 4 (by decide)).mpr ⟨by decide, by decide⟩
  obtain ⟨⟨result, ends⟩, same⟩ := counted 999
  have within : (State.mk 1000).Within 1000 := by decide
  exact ⟨⟨result, ends, (same result ends).trans below⟩, above, wider 999 1000 (by decide), within,
    fits 1000 ⟨1000⟩ within⟩

end Acceptor.Text.Decimal
