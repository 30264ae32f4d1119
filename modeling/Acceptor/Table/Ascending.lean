/-!
Ascending lists of numbers without repeats, as the one form of a finite set of numbers.
-/
namespace Acceptor.Table.Ascending

def insert (item : Nat) : List Nat → List Nat
  | [] => [item]
  | first :: rest =>
    if item < first then item :: first :: rest
    else if item = first then first :: rest
    else first :: insert item rest

def ofList (items : List Nat) : List Nat := items.foldr insert []

theorem mem_insert {item other : Nat} {items : List Nat} :
    other ∈ insert item items ↔ other = item ∨ other ∈ items := by
  induction items with
  | nil => simp [insert]
  | cons first rest ih =>
    rw [insert]
    split
    next => simp
    next =>
      split
      next same => simp [same]
      next => simp only [List.mem_cons, ih]; exact or_left_comm

theorem mem_ofList {item : Nat} {items : List Nat} : item ∈ ofList items ↔ item ∈ items := by
  induction items with
  | nil => simp [ofList]
  | cons first rest ih => simpa [ofList, mem_insert] using or_congr_right ih

theorem pairwise_insert {item : Nat} {items : List Nat} (ascending : items.Pairwise (· < ·)) :
    (insert item items).Pairwise (· < ·) := by
  induction items with
  | nil => simp [insert]
  | cons first rest ih =>
    have below := List.pairwise_cons.mp ascending
    rw [insert]
    split
    next less =>
      refine List.pairwise_cons.mpr ⟨fun other member => ?_, ascending⟩
      rcases List.mem_cons.mp member with rfl | later
      · exact less
      · exact Nat.lt_trans less (below.1 other later)
    next =>
      split
      next => exact ascending
      next =>
        refine List.pairwise_cons.mpr ⟨fun other member => ?_, ih below.2⟩
        rcases mem_insert.mp member with rfl | later
        · omega
        · exact below.1 other later

theorem pairwise_ofList (items : List Nat) : (ofList items).Pairwise (· < ·) := by
  induction items with
  | nil => simp [ofList]
  | cons first rest ih => exact pairwise_insert ih

end Acceptor.Table.Ascending
