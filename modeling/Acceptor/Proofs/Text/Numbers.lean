import Acceptor.Text.Decimal
/-!
The numbers that stand in a text. However they are padded or aligned, and whatever stands between
them, numerals are read back as long as no two of them touch.
-/
namespace Acceptor.Text

/-- The numbers in a text, in order: what the longest runs of digits in it denote. -/
def numbers (text : Text) : List Nat :=
  ((text.splitOnP (!·.isDigit)).filter (!·.isEmpty)).map (Nat.ofDigitChars 10 · 0)

example : numbers "(1, 20)  007".toList = [1, 20, 7] := by decide

def Digitless (text : Text) : Prop := ∀ c ∈ text, c.isDigit = false

instance (text : Text) : Decidable (Digitless text) :=
  List.decidableBAll (fun c : Char => c.isDigit = false) text

theorem digitless_replicate (count : Nat) : Digitless (List.replicate count ' ') := by
  intro c member
  exact List.eq_of_mem_replicate member ▸ rfl

variable {text rest : Text} {c : Char}

theorem numbers_nil : numbers [] = [] := rfl

/-- Two numbers are apart as soon as there is one character between them that is no digit. -/
theorem numbers_append_cons (between : c.isDigit = false) :
    numbers (text ++ c :: rest) = numbers text ++ numbers rest := by
  have cut : (!c.isDigit) = true := by rw [between, Bool.not_false]
  rw [numbers, List.splitOnP_append_cons text rest cut, List.filter_append, List.map_append]
  rfl

theorem numbers_cons (before : c.isDigit = false) : numbers (c :: rest) = numbers rest := by
  rw [← List.nil_append (c :: rest), numbers_append_cons before, numbers_nil, List.nil_append]

theorem numbers_append (cut : ∀ c ∈ rest.head?, c.isDigit = false) :
    numbers (text ++ rest) = numbers text ++ numbers rest := by
  cases rest with
  | nil => rw [List.append_nil, numbers_nil, List.append_nil]
  | cons c rest => rw [numbers_append_cons (cut c rfl), numbers_cons (cut c rfl)]

theorem numbers_gap {gap : Text} (blank : Digitless gap) (rest : Text) :
    numbers (gap ++ rest) = numbers rest := by
  induction gap with
  | nil => rfl
  | cons c gap ih =>
    obtain ⟨first, later⟩ := List.forall_mem_cons.mp blank
    rw [List.cons_append, numbers_cons first, ih later]

theorem numbers_ofNat (n : Nat) : numbers (Decimal.ofNat n) = [n] := by
  have digits : ∀ c ∈ Decimal.ofNat n, (!c.isDigit) = false := by
    intro c member
    rw [Nat.isDigit_of_mem_toDigits (by decide) (by decide) member, Bool.not_true]
  have written : (Decimal.ofNat n).isEmpty = false :=
    List.isEmpty_eq_false_iff.mpr Nat.toDigits_ne_nil
  have kept : [Decimal.ofNat n].filter (!·.isEmpty) = [Decimal.ofNat n] := by
    simp only [List.filter_cons, written, Bool.not_false, if_true, List.filter_nil]
  rw [numbers, List.splitOnP_eq_singleton digits, kept, List.map_singleton]
  exact congrArg (· :: []) Nat.ofDigitChars_ten_toDigits

theorem numbers_flatMap {α : Type} {items : List α} {shown : α → Text}
    (apart : ∀ item ∈ items, ∃ c rest, shown item = c :: rest ∧ c.isDigit = false) :
    numbers (items.flatMap shown) = items.flatMap fun item => numbers (shown item) := by
  induction items with
  | nil => rfl
  | cons item items ih =>
    obtain ⟨_, later⟩ := List.forall_mem_cons.mp apart
    have cut : ∀ c ∈ (items.flatMap shown).head?, c.isDigit = false := by
      cases items with
      | nil => exact fun _ member => nomatch member
      | cons next items =>
        obtain ⟨c, rest, begins, noDigit⟩ := later next List.mem_cons_self
        rw [List.flatMap_cons, begins]
        intro first head
        cases head
        exact noDigit
    rw [List.flatMap_cons, numbers_append cut, ih later, List.flatMap_cons]

theorem numbers_joined {first : Char} {more : Text}
    (blank : Digitless (first :: more)) (pieces : List Text) :
    numbers (joined (first :: more) pieces) = pieces.flatMap numbers := by
  induction pieces with
  | nil => rfl
  | cons piece pieces ih =>
    cases pieces with
    | nil => rw [joined, List.flatMap_cons, List.flatMap_nil, List.append_nil]
    | cons next pieces =>
      have cut : ∀ c ∈ (first :: more ++ joined (first :: more) (next :: pieces)).head?,
          c.isDigit = false := by
        intro c head
        cases head
        exact blank first List.mem_cons_self
      rw [joined, List.append_assoc, numbers_append cut, numbers_gap blank, ih]
      rfl

end Acceptor.Text
