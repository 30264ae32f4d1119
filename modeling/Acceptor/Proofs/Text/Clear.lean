import Acceptor.State
import Acceptor.Text.Quoted
/-!
Texts that show no control character, so that no line break and no escape sequence can hide in
them. Numerals are such texts, and a symbol is one once it is quoted, whatever the symbol is.
-/
namespace Acceptor.Text

/-- Whether a text is free of the control characters that stand before the space. -/
def Clear (text : Text) : Prop := ∀ c ∈ text, ' ' ≤ c

instance (text : Text) : Decidable (Clear text) := List.decidableBAll (' ' ≤ ·) text

namespace Clear

variable {text rest : Text} {c : Char}

theorem nil : Clear [] := fun _ member => nomatch member

theorem append_iff : Clear (text ++ rest) ↔ Clear text ∧ Clear rest := List.forall_mem_append

theorem cons_iff : Clear (c :: text) ↔ ' ' ≤ c ∧ Clear text := List.forall_mem_cons

theorem append (clear : Clear text) (later : Clear rest) : Clear (text ++ rest) :=
  append_iff.mpr ⟨clear, later⟩

theorem notMem (clear : Clear text) (control : c < ' ') : c ∉ text :=
  fun member => Char.not_le.mpr control (clear c member)

theorem replicate (count : Nat) : Clear (List.replicate count ' ') := by
  intro c member
  obtain rfl := List.eq_of_mem_replicate member
  exact Char.le_refl ' '

theorem leftpad (clear : Clear text) (width : Nat) : Clear (text.leftpad width ' ') :=
  (replicate _).append clear

theorem rightpad (clear : Clear text) (width : Nat) : Clear (text.rightpad width ' ') :=
  clear.append (replicate _)

theorem flatMap {α : Type} {items : List α} {shown : α → Text}
    (clear : ∀ item ∈ items, Clear (shown item)) : Clear (items.flatMap shown) := by
  intro c member
  obtain ⟨item, listed, found⟩ := List.mem_flatMap.mp member
  exact clear item listed c found

theorem joined {separator : Text} {pieces : List Text} (between : Clear separator)
    (clear : ∀ piece ∈ pieces, Clear piece) : Clear (Text.joined separator pieces) := by
  intro c member
  rcases mem_joined member with found | ⟨piece, listed, found⟩
  · exact between c found
  · exact clear piece listed c found

end Clear

/-! Numerals -/

theorem space_le_digitChar {digit : Nat} (small : digit < 16) : ' ' ≤ Nat.digitChar digit := by
  have all : ∀ digit, digit < 16 → ' ' ≤ Nat.digitChar digit := by decide
  exact all digit small

theorem clear_toDigits {base : Nat} (several : 1 < base) (few : base ≤ 16) (n : Nat) :
    Clear (Nat.toDigits base n) := by
  intro c member
  obtain ⟨digit, small, rfl⟩ := Decimal.exists_digit_of_mem_toDigits several member
  exact space_le_digitChar (by omega)

theorem clear_ofNat (n : Nat) : Clear (Decimal.ofNat n) := clear_toDigits (by decide) (by decide) n

theorem clear_ofInt (n : Int) : Clear (Decimal.ofInt n) := by
  cases n with
  | ofNat n => exact clear_ofNat n
  | negSucc n => exact Clear.cons_iff.mpr ⟨by decide, clear_ofNat _⟩

/-! Symbols between quotes -/

theorem Quoted.shortForm?_clear {c letter : Char} (short : shortForm? c = some letter) :
    ' ' ≤ letter := by
  unfold shortForm? at short
  split at short
  all_goals cases short
  all_goals decide

theorem Quoted.not_visible_of_control {c : Char} (control : c < ' ') : visible c = false := by
  have invisible : Invisible.holds c = true := by
    apply List.any_eq_true.mpr
    refine ⟨(0x0000, 0x001F), List.mem_cons_self, ?_⟩
    have bound : c.toNat < 0x20 := control
    simp only [Bool.and_eq_true, decide_eq_true_eq]
    omega
  rw [visible, invisible, Bool.not_true, Bool.and_false]

theorem Quoted.clear_escaped (c : Char) : Clear (escaped c) := by
  unfold escaped
  split
  next letter short =>
    exact Clear.cons_iff.mpr ⟨by decide, Clear.cons_iff.mpr ⟨shortForm?_clear short, .nil⟩⟩
  next =>
    split
    next shown =>
      refine Clear.cons_iff.mpr ⟨?_, .nil⟩
      apply Char.not_lt.mp
      intro control
      rw [not_visible_of_control control] at shown
      cases shown
    next =>
      have digits : Clear (Nat.toDigits 16 c.toNat) := clear_toDigits (by decide) (by decide) _
      exact (Clear.append (by decide) digits).append (by decide)

/-- A symbol between quotes, whatever it is, stays on its line and hides nothing. -/
theorem Quoted.clear_quote (c : Char) : Clear (quote c) := by
  have opened : Clear ('\'' :: escaped c) := Clear.cons_iff.mpr ⟨by decide, clear_escaped c⟩
  exact opened.append (by decide)

end Acceptor.Text

namespace Acceptor.State

theorem clear_text (state : State) : Text.Clear state.text := Text.clear_ofInt _

end Acceptor.State
