import Acceptor.Text
/-!
Decimal numerals, and how wide a number is when it is written as one.
-/
namespace Acceptor.Text.Decimal

def ofNat (n : Nat) : Text := Nat.toDigits 10 n

def ofInt : Int → Text
  | .ofNat n => ofNat n
  | .negSucc n => '-' :: ofNat (n + 1)

def width (n : Nat) : Nat :=
  if n < 10 then 1 else width (n / 10) + 1

/-- In every base, a number below the base has one digit, and every other number has a last one. -/
theorem digits_induction {base : Nat} (several : 1 < base) {motive : Nat → Prop}
    (one : ∀ n, n < base → motive n) (more : ∀ n, base ≤ n → motive (n / base) → motive n)
    (n : Nat) : motive n := by
  induction n using Nat.strongRecOn with
  | ind n ih =>
    by_cases below : n < base
    · exact one n below
    · have large : base ≤ n := Nat.le_of_not_lt below
      exact more n large (ih (n / base) (Nat.div_lt_self (by omega) several))

theorem exists_digit_of_mem_toDigits {base n : Nat} (several : 1 < base) {c : Char}
    (member : c ∈ Nat.toDigits base n) : ∃ digit, digit < base ∧ c = Nat.digitChar digit := by
  induction n using digits_induction several with
  | one n below =>
    rw [Nat.toDigits_of_lt_base below] at member
    exact ⟨n, below, List.mem_singleton.mp member⟩
  | more n large ih =>
    rw [Nat.toDigits_of_base_le several large] at member
    rcases List.mem_append.mp member with earlier | last
    · exact ih earlier
    · exact ⟨n % base, Nat.mod_lt n (by omega), List.mem_singleton.mp last⟩

theorem width_of_lt {n : Nat} (small : n < 10) : width n = 1 := by
  rw [width, if_pos small]

theorem width_of_le {n : Nat} (large : 10 ≤ n) : width n = width (n / 10) + 1 := by
  rw [width, if_neg (Nat.not_lt.mpr large)]

theorem ofNat_of_lt {n : Nat} (small : n < 10) : ofNat n = [n.digitChar] :=
  Nat.toDigits_of_lt_base small

theorem ofNat_of_le {n : Nat} (large : 10 ≤ n) :
    ofNat n = ofNat (n / 10) ++ [(n % 10).digitChar] :=
  Nat.toDigits_of_base_le (by decide) large

end Acceptor.Text.Decimal
