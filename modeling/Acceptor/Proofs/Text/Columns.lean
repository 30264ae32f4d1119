import Acceptor.Text.Decimal
/-!
Columns of a text. Pieces of one width stand one after the other, so that each of them is found at
a multiple of the width; and a column that is as wide as the numeral of a number has room for the
numeral of every smaller one.
-/
namespace Acceptor.Text

namespace Decimal

theorem length_ofNat (n : Nat) : (ofNat n).length = width n := by
  induction n using digits_induction (by decide : 1 < 10) with
  | one n below =>
    rw [ofNat_of_lt below, width_of_lt below]
    rfl
  | more n large ih =>
    rw [ofNat_of_le large, width_of_le large, List.length_append, ih]
    rfl

theorem length_ofNat_le {m n : Nat} (atMost : m ≤ n) : (ofNat m).length ≤ (ofNat n).length := by
  have written : 0 < (ofNat n).length := Nat.length_toDigits_pos
  have bound := (Nat.length_toDigits_le_iff (b := 10) (by decide) written).mp (Nat.le_refl _)
  exact (Nat.length_toDigits_le_iff (by decide) written).mpr (Nat.lt_of_le_of_lt atMost bound)

end Decimal

section
variable {α β : Type} {items : List α} {shown : α → List β} {width : Nat}

theorem length_flatMap_of_width (wide : ∀ item ∈ items, (shown item).length = width) :
    (items.flatMap shown).length = items.length * width := by
  induction items with
  | nil => rw [List.flatMap_nil, List.length_nil, List.length_nil, Nat.zero_mul]
  | cons item items ih =>
    obtain ⟨here, later⟩ := List.forall_mem_cons.mp wide
    rw [List.flatMap_cons, List.length_append, here, ih later, List.length_cons, Nat.succ_mul,
      Nat.add_comm]

/-- Each piece stands where the pieces of one width in front of it end. -/
theorem take_drop_flatMap (wide : ∀ item ∈ items, (shown item).length = width) {place : Nat}
    {item : α} (listed : items[place]? = some item) :
    ((items.flatMap shown).drop (place * width)).take width = shown item := by
  induction items generalizing place with
  | nil => cases listed
  | cons first items ih =>
    obtain ⟨here, later⟩ := List.forall_mem_cons.mp wide
    cases place with
    | zero =>
      cases listed
      rw [List.flatMap_cons, Nat.zero_mul, List.drop_zero, List.take_left' here]
    | succ place =>
      have passed : (place + 1) * width = (shown first).length + place * width := by
        rw [here, Nat.succ_mul, Nat.add_comm]
      rw [List.flatMap_cons, passed, List.drop_length_add_append, ih later listed]

end

end Acceptor.Text
