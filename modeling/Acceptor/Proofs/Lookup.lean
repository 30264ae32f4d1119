import Acceptor.Text
/-!
Looking symbols up in lists of pairs, where the first pair of a symbol counts.
-/
namespace Acceptor.Lookup

variable {α β : Type}

theorem lookup_map_const (entry : α) (text : Text) (symbol : Char) :
    (text.map (·, entry)).lookup symbol = if symbol ∈ text then some entry else none := by
  induction text with
  | nil => rfl
  | cons first rest ih =>
    rw [List.map_cons, List.lookup_cons, ih]
    by_cases same : symbol = first
    · simp [same]
    · rw [beq_false_of_ne same]
      simp [same]

theorem lookup_map_entry (change : α → β) (entries : List (Char × α)) (symbol : Char) :
    (entries.map fun (key, entry) => (key, change entry)).lookup symbol =
      (entries.lookup symbol).map change := by
  induction entries with
  | nil => rfl
  | cons first rest ih =>
    rw [List.map_cons, List.lookup_cons, List.lookup_cons, ih]
    cases symbol == first.1 with
    | true => rfl
    | false => rfl

theorem lookup_eq_none_iff_notMem {entries : List (Char × α)} {symbol : Char} :
    entries.lookup symbol = none ↔ symbol ∉ entries.map Prod.fst := by
  rw [List.lookup_eq_none_iff, List.mem_map]
  constructor
  · intro apart listed
    obtain ⟨entry, member, same⟩ := listed
    exact bne_iff_ne.mp (apart entry member) same.symm
  · intro absent entry member
    apply bne_iff_ne.mpr
    intro same
    exact absent ⟨entry, member, same.symm⟩

/-- Where no symbol has two pairs, looking up finds whatever is there. -/
theorem lookup_eq_some_iff_mem {entries : List (Char × α)} {symbol : Char} {entry : α}
    (distinct : (entries.map Prod.fst).Nodup) :
    entries.lookup symbol = some entry ↔ (symbol, entry) ∈ entries := by
  constructor
  · intro found
    obtain ⟨before, after, rfl, _⟩ := List.lookup_eq_some_iff.mp found
    simp
  · intro member
    obtain ⟨before, after, rfl⟩ := List.append_of_mem member
    apply List.lookup_eq_some_iff.mpr
    refine ⟨before, after, rfl, ?_⟩
    intro earlier listed
    apply bne_iff_ne.mpr
    intro same
    rw [List.map_append, List.map_cons, List.nodup_append] at distinct
    exact distinct.2.2 earlier.1 (List.mem_map_of_mem listed) symbol (by simp) same.symm

end Acceptor.Lookup
