import Acceptor.Text.Utf8
/-!
What octets are read as text: exactly those that spell one, each character in its only spelling.
-/
namespace Acceptor.Text.Utf8

theorem lead?_of_two (octet : Nat) (low : 0xC2 ≤ octet) (high : octet < 0xE0) :
    lead? octet = some ⟨0, 0x80, 0xBF, octet - 0xC0⟩ := by
  rw [lead?, if_neg (by omega), if_pos high]

theorem lead?_of_three (octet : Nat) (low : 0xE0 ≤ octet) (high : octet < 0xF0) :
    lead? octet = some ⟨1, if octet = 0xE0 then 0xA0 else 0x80,
      if octet = 0xED then 0x9F else 0xBF, octet - 0xE0⟩ := by
  rw [lead?, if_neg (by omega), if_neg (by omega)]
  by_cases first : octet = 0xE0
  · simp [first]
  · by_cases surrogate : octet = 0xED
    · simp [surrogate]
    · rw [if_neg first, if_neg surrogate, if_pos high, if_neg first, if_neg surrogate]

theorem lead?_of_four (octet : Nat) (low : 0xF0 ≤ octet) (high : octet ≤ 0xF4) :
    lead? octet = some ⟨2, if octet = 0xF0 then 0x90 else 0x80,
      if octet = 0xF4 then 0x8F else 0xBF, octet - 0xF0⟩ := by
  rw [lead?, if_neg (by omega), if_neg (by omega), if_neg (by omega), if_neg (by omega),
    if_neg (by omega)]
  by_cases first : octet = 0xF0
  · simp [first]
  · by_cases last : octet = 0xF4
    · simp [last]
    · rw [if_neg first, if_pos (by omega), if_neg first, if_neg last]

theorem bounds_of_lead? {octet : Nat} {begun : Partial} (found : lead? octet = some begun) :
    0xC2 ≤ octet ∧ octet ≤ 0xF4 := by
  refine ⟨?_, ?_⟩
  · apply Nat.le_of_not_lt
    intro small
    rw [lead?, if_pos small] at found
    cases found
  · apply Nat.le_of_not_lt
    intro large
    rw [lead?, if_neg (by omega), if_neg (by omega), if_neg (by omega), if_neg (by omega),
      if_neg (by omega), if_neg (by omega), if_neg (by omega), if_neg (by omega)] at found
    cases found

theorem toNat_octet {value : Nat} (small : value < 256) : (UInt8.ofNat value).toNat = value :=
  UInt8.toNat_ofNat_of_lt small

namespace Reading

variable {read : Text} {octet : Octet}

theorem take?_ascii (small : octet.toNat < 0x80) :
    take? ⟨read, none⟩ octet = some ⟨Char.ofNat octet.toNat :: read, none⟩ := by
  simp only [take?, if_pos small]

theorem take?_lead {begun : Partial} (found : lead? octet.toNat = some begun) :
    take? ⟨read, none⟩ octet = some ⟨read, some begun⟩ := by
  have large : ¬ octet.toNat < 0x80 := by
    have bounds := bounds_of_lead? found
    omega
  simp only [take?, if_neg large, found, Option.map_some]

theorem take?_last {lowest highest bits : Nat} (low : lowest ≤ octet.toNat)
    (high : octet.toNat ≤ highest) :
    take? ⟨read, some ⟨0, lowest, highest, bits⟩⟩ octet =
      some ⟨Char.ofNat (bits * 64 + octet.toNat % 64) :: read, none⟩ := by
  simp only [take?, if_pos (And.intro low high)]

theorem take?_next {left lowest highest bits : Nat} (low : lowest ≤ octet.toNat)
    (high : octet.toNat ≤ highest) :
    take? ⟨read, some ⟨left + 1, lowest, highest, bits⟩⟩ octet =
      some ⟨read, some ⟨left, 0x80, 0xBF, bits * 64 + octet.toNat % 64⟩⟩ := by
  simp only [take?, if_pos (And.intro low high)]

theorem within_of_take? {begun : Partial} {next : Reading}
    (taken : take? ⟨read, some begun⟩ octet = some next) :
    begun.lowest ≤ octet.toNat ∧ octet.toNat ≤ begun.highest := by
  apply Decidable.byContradiction
  intro outside
  simp only [take?, if_neg outside] at taken
  cases taken

theorem foldlM_take?_cons {reading next : Reading} (taken : reading.take? octet = some next)
    (octets : List Octet) :
    (octet :: octets).foldlM take? reading = octets.foldlM take? next := by
  rw [List.foldlM_cons, taken]
  rfl

theorem foldlM_take?_encodeChar (read : Text) (c : Char) (octets : List Octet) :
    (String.utf8EncodeChar c ++ octets).foldlM take? ⟨read, none⟩ =
      octets.foldlM take? ⟨c :: read, none⟩ := by
  have valid : c.val.toNat.isValidChar := c.valid
  simp only [Nat.isValidChar] at valid
  have same : Char.ofNat c.val.toNat = c := Char.ofNat_toNat c
  rw [String.utf8EncodeChar]
  -- Only the code point matters from here on, and the cases are those of its length in octets.
  generalize c.val.toNat = value at valid same
  split
  next one =>
    have first := @toNat_octet value (by omega)
    have small : (UInt8.ofNat value).toNat < 0x80 := by omega
    rw [List.cons_append, List.nil_append, foldlM_take?_cons (take?_ascii small), first, same]
  next =>
    split
    next two =>
      have first := @toNat_octet (value / 64 % 32 + 192) (by omega)
      have second := @toNat_octet (value % 64 + 128) (by omega)
      have whole : (value / 64 % 32 + 192 - 0xC0) * 64 + (value % 64 + 128) % 64 = value := by omega
      have lead := lead?_of_two (value / 64 % 32 + 192) (by omega) (by omega)
      rw [← first] at lead
      rw [List.cons_append, foldlM_take?_cons (take?_lead lead), List.cons_append,
        foldlM_take?_cons (take?_last (by omega) (by omega)), first, second, whole, same,
        List.nil_append]
    next =>
      split
      next three =>
        have first := @toNat_octet (value / 4096 % 16 + 224) (by omega)
        have second := @toNat_octet (value / 64 % 64 + 128) (by omega)
        have third := @toNat_octet (value % 64 + 128) (by omega)
        have whole : ((value / 4096 % 16 + 224 - 0xE0) * 64 + (value / 64 % 64 + 128) % 64) * 64 +
            (value % 64 + 128) % 64 = value := by omega
        have lead := lead?_of_three (value / 4096 % 16 + 224) (by omega) (by omega)
        rw [← first] at lead
        rw [List.cons_append, foldlM_take?_cons (take?_lead lead), List.cons_append,
          foldlM_take?_cons (take?_next (by split <;> omega) (by split <;> omega)),
          List.cons_append, foldlM_take?_cons (take?_last (by omega) (by omega)),
          first, second, third, whole, same, List.nil_append]
      next =>
        have first := @toNat_octet (value / 262144 % 8 + 240) (by omega)
        have second := @toNat_octet (value / 4096 % 64 + 128) (by omega)
        have third := @toNat_octet (value / 64 % 64 + 128) (by omega)
        have fourth := @toNat_octet (value % 64 + 128) (by omega)
        have whole : (((value / 262144 % 8 + 240 - 0xF0) * 64 +
            (value / 4096 % 64 + 128) % 64) * 64 + (value / 64 % 64 + 128) % 64) * 64 +
            (value % 64 + 128) % 64 = value := by omega
        have lead := lead?_of_four (value / 262144 % 8 + 240) (by omega) (by omega)
        rw [← first] at lead
        rw [List.cons_append, foldlM_take?_cons (take?_lead lead), List.cons_append,
          foldlM_take?_cons (take?_next (by split <;> omega) (by split <;> omega)),
          List.cons_append, foldlM_take?_cons (take?_next (by omega) (by omega)),
          List.cons_append, foldlM_take?_cons (take?_last (by omega) (by omega)),
          first, second, third, fourth, whole, same, List.nil_append]

theorem exists_last {lowest highest bits : Nat} {octets : List Octet} {final : Reading}
    (settled : final.underWay = none)
    (taken : octets.foldlM take? ⟨read, some ⟨0, lowest, highest, bits⟩⟩ = some final) :
    ∃ octet rest, octets = octet :: rest ∧ lowest ≤ octet.toNat ∧ octet.toNat ≤ highest ∧
      rest.foldlM take? ⟨Char.ofNat (bits * 64 + octet.toNat % 64) :: read, none⟩ = some final := by
  cases octets with
  | nil =>
    rw [List.foldlM_nil] at taken
    cases taken
    cases settled
  | cons octet rest =>
    rw [List.foldlM_cons] at taken
    obtain ⟨next, first, later⟩ := Option.bind_eq_some_iff.mp taken
    obtain ⟨low, high⟩ := within_of_take? first
    rw [take?_last low high] at first
    cases first
    exact ⟨octet, rest, rfl, low, high, later⟩

theorem exists_next {left lowest highest bits : Nat} {octets : List Octet} {final : Reading}
    (settled : final.underWay = none)
    (taken : octets.foldlM take? ⟨read, some ⟨left + 1, lowest, highest, bits⟩⟩ = some final) :
    ∃ octet rest, octets = octet :: rest ∧ lowest ≤ octet.toNat ∧ octet.toNat ≤ highest ∧
      rest.foldlM take? ⟨read, some ⟨left, 0x80, 0xBF, bits * 64 + octet.toNat % 64⟩⟩ =
        some final := by
  cases octets with
  | nil =>
    rw [List.foldlM_nil] at taken
    cases taken
    cases settled
  | cons octet rest =>
    rw [List.foldlM_cons] at taken
    obtain ⟨next, first, later⟩ := Option.bind_eq_some_iff.mp taken
    obtain ⟨low, high⟩ := within_of_take? first
    rw [take?_next low high] at first
    cases first
    exact ⟨octet, rest, rfl, low, high, later⟩

end Reading

theorem toNat_ofNat {value : Nat} (valid : value.isValidChar) :
    (Char.ofNat value).toNat = value := by
  rw [Char.ofNat, dif_pos valid]
  rfl

theorem octet_eq (octet : Octet) {value : Nat} (same : value = octet.toNat) :
    UInt8.ofNat value = octet := by
  rw [same, UInt8.ofNat_toNat]

variable {first second third fourth : Octet}

theorem encodeChar_of_one (small : first.toNat < 0x80) :
    String.utf8EncodeChar (Char.ofNat first.toNat) = [first] := by
  have valid : first.toNat.isValidChar := .inl (by omega)
  have value : (Char.ofNat first.toNat).val.toNat = first.toNat := toNat_ofNat valid
  rw [String.utf8EncodeChar, value, if_pos (by omega), UInt8.ofNat_toNat]

theorem encodeChar_of_two (low : 0xC2 ≤ first.toNat) (high : first.toNat < 0xE0)
    (low₂ : 0x80 ≤ second.toNat) (high₂ : second.toNat ≤ 0xBF) :
    String.utf8EncodeChar (Char.ofNat ((first.toNat - 0xC0) * 64 + second.toNat % 64)) =
      [first, second] := by
  generalize whole : (first.toNat - 0xC0) * 64 + second.toNat % 64 = bits
  have valid : bits.isValidChar := .inl (by omega)
  have value : (Char.ofNat bits).val.toNat = bits := toNat_ofNat valid
  rw [String.utf8EncodeChar, value, if_neg (by omega), if_pos (by omega),
    octet_eq first (by omega), octet_eq second (by omega)]

/-- The lead octet bounds the second so that the character is neither short nor a surrogate. -/
theorem encodeChar_of_three (low : 0xE0 ≤ first.toNat) (high : first.toNat < 0xF0)
    (low₂ : 0x80 ≤ second.toNat) (high₂ : second.toNat ≤ 0xBF)
    (wide : first.toNat = 0xE0 → 0xA0 ≤ second.toNat)
    (noSurrogate : first.toNat = 0xED → second.toNat ≤ 0x9F)
    (low₃ : 0x80 ≤ third.toNat) (high₃ : third.toNat ≤ 0xBF) :
    String.utf8EncodeChar (Char.ofNat
        (((first.toNat - 0xE0) * 64 + second.toNat % 64) * 64 + third.toNat % 64)) =
      [first, second, third] := by
  generalize whole :
    ((first.toNat - 0xE0) * 64 + second.toNat % 64) * 64 + third.toNat % 64 = bits
  have long : 0x800 ≤ bits := by
    by_cases shortest : first.toNat = 0xE0
    · have more := wide shortest
      omega
    · omega
  have valid : bits.isValidChar := by
    rcases Nat.lt_trichotomy first.toNat 0xED with below | surrogate | above
    · exact .inl (by omega)
    · have less := noSurrogate surrogate
      exact .inl (by omega)
    · exact .inr ⟨by omega, by omega⟩
  have value : (Char.ofNat bits).val.toNat = bits := toNat_ofNat valid
  rw [String.utf8EncodeChar, value, if_neg (by omega), if_neg (by omega), if_pos (by omega),
    octet_eq first (by omega), octet_eq second (by omega), octet_eq third (by omega)]

theorem encodeChar_of_four (low : 0xF0 ≤ first.toNat) (high : first.toNat ≤ 0xF4)
    (low₂ : 0x80 ≤ second.toNat) (high₂ : second.toNat ≤ 0xBF)
    (wide : first.toNat = 0xF0 → 0x90 ≤ second.toNat)
    (bounded : first.toNat = 0xF4 → second.toNat ≤ 0x8F)
    (low₃ : 0x80 ≤ third.toNat) (high₃ : third.toNat ≤ 0xBF)
    (low₄ : 0x80 ≤ fourth.toNat) (high₄ : fourth.toNat ≤ 0xBF) :
    String.utf8EncodeChar (Char.ofNat ((((first.toNat - 0xF0) * 64 + second.toNat % 64) * 64 +
        third.toNat % 64) * 64 + fourth.toNat % 64)) =
      [first, second, third, fourth] := by
  generalize whole : (((first.toNat - 0xF0) * 64 + second.toNat % 64) * 64 +
    third.toNat % 64) * 64 + fourth.toNat % 64 = bits
  have long : 0x10000 ≤ bits := by
    by_cases shortest : first.toNat = 0xF0
    · have more := wide shortest
      omega
    · omega
  have last : bits < 0x110000 := by
    by_cases longest : first.toNat = 0xF4
    · have less := bounded longest
      omega
    · omega
  have value : (Char.ofNat bits).val.toNat = bits := toNat_ofNat (.inr ⟨by omega, last⟩)
  rw [String.utf8EncodeChar, value, if_neg (by omega), if_neg (by omega), if_neg (by omega),
    octet_eq first (by omega), octet_eq second (by omega), octet_eq third (by omega),
    octet_eq fourth (by omega)]

theorem exists_encodeChar {read : Text} {octets : List Octet} {final : Reading}
    (settled : final.underWay = none)
    (taken : (first :: octets).foldlM Reading.take? ⟨read, none⟩ = some final) :
    ∃ c rest, first :: octets = String.utf8EncodeChar c ++ rest ∧
      rest.foldlM Reading.take? ⟨c :: read, none⟩ = some final := by
  by_cases small : first.toNat < 0x80
  · rw [Reading.foldlM_take?_cons (Reading.take?_ascii small)] at taken
    exact ⟨_, octets, by rw [encodeChar_of_one small]; rfl, taken⟩
  · rw [List.foldlM_cons] at taken
    obtain ⟨next, begins, later⟩ := Option.bind_eq_some_iff.mp taken
    simp only [Reading.take?, if_neg small, Option.map_eq_some_iff] at begins
    obtain ⟨begun, lead, rfl⟩ := begins
    obtain ⟨low, high⟩ := bounds_of_lead? lead
    -- The lead octet settles how many octets follow, and each of them has to be there, since the
    -- reading does not end within a character.
    by_cases two : first.toNat < 0xE0
    · rw [lead?_of_two _ low two] at lead
      cases lead
      obtain ⟨second, rest, rfl, low₂, high₂, last⟩ := Reading.exists_last settled later
      exact ⟨_, rest, by rw [encodeChar_of_two low two low₂ high₂]; rfl, last⟩
    · have low : 0xE0 ≤ first.toNat := Nat.le_of_not_lt two
      by_cases three : first.toNat < 0xF0
      · rw [lead?_of_three _ low three] at lead
        cases lead
        obtain ⟨second, octets, rfl, low₂, high₂, tail⟩ := Reading.exists_next settled later
        obtain ⟨third, rest, rfl, low₃, high₃, last⟩ := Reading.exists_last settled tail
        have least : 0x80 ≤ second.toNat := by split at low₂ <;> omega
        have most : second.toNat ≤ 0xBF := by split at high₂ <;> omega
        have wide : first.toNat = 0xE0 → 0xA0 ≤ second.toNat := by
          intro shortest
          rwa [if_pos shortest] at low₂
        have noSurrogate : first.toNat = 0xED → second.toNat ≤ 0x9F := by
          intro surrogate
          rwa [if_pos surrogate] at high₂
        have spelled := encodeChar_of_three low three least most wide noSurrogate low₃ high₃
        exact ⟨_, rest, by rw [spelled]; rfl, last⟩
      · have low : 0xF0 ≤ first.toNat := Nat.le_of_not_lt three
        rw [lead?_of_four _ low high] at lead
        cases lead
        obtain ⟨second, octets, rfl, low₂, high₂, tail⟩ := Reading.exists_next settled later
        obtain ⟨third, octets, rfl, low₃, high₃, tail⟩ := Reading.exists_next settled tail
        obtain ⟨fourth, rest, rfl, low₄, high₄, last⟩ := Reading.exists_last settled tail
        have least : 0x80 ≤ second.toNat := by split at low₂ <;> omega
        have most : second.toNat ≤ 0xBF := by split at high₂ <;> omega
        have wide : first.toNat = 0xF0 → 0x90 ≤ second.toNat := by
          intro shortest
          rwa [if_pos shortest] at low₂
        have bounded : first.toNat = 0xF4 → second.toNat ≤ 0x8F := by
          intro longest
          rwa [if_pos longest] at high₂
        have spelled := encodeChar_of_four low high least most wide bounded low₃ high₃ low₄ high₄
        exact ⟨_, rest, by rw [spelled]; rfl, last⟩

theorem toNat_eq_of_mem_encodeChar {c : Char} {octet : Octet}
    (member : octet ∈ String.utf8EncodeChar c) (small : octet.toNat < 0x80) :
    c.toNat = octet.toNat := by
  have beyond {value : Nat} (low : 0x80 ≤ value) (high : value < 256) :
      octet ≠ UInt8.ofNat value := by
    intro same
    rw [same, toNat_octet high] at small
    omega
  have valid : c.val.toNat.isValidChar := c.valid
  simp only [Nat.isValidChar] at valid
  rw [String.utf8EncodeChar] at member
  generalize same : c.val.toNat = value at member valid
  split at member
  next one =>
    rw [List.mem_singleton.mp member, toNat_octet (by omega)]
    exact same
  next =>
    exfalso
    split at member
    next two =>
      simp only [List.mem_cons, List.not_mem_nil, or_false] at member
      rcases member with lead | last
      · exact beyond (by omega) (by omega) lead
      · exact beyond (by omega) (by omega) last
    next =>
      split at member
      next three =>
        simp only [List.mem_cons, List.not_mem_nil, or_false] at member
        rcases member with lead | second | last
        · exact beyond (by omega) (by omega) lead
        · exact beyond (by omega) (by omega) second
        · exact beyond (by omega) (by omega) last
      next =>
        simp only [List.mem_cons, List.not_mem_nil, or_false] at member
        rcases member with lead | second | third | last
        · exact beyond (by omega) (by omega) lead
        · exact beyond (by omega) (by omega) second
        · exact beyond (by omega) (by omega) third
        · exact beyond (by omega) (by omega) last

theorem foldlM_take?_encode (read text : Text) :
    (encode text).foldlM Reading.take? ⟨read, none⟩ = some ⟨text.reverse ++ read, none⟩ := by
  induction text generalizing read with
  | nil => rfl
  | cons c text ih =>
    have spelled : encode (c :: text) = String.utf8EncodeChar c ++ encode text := rfl
    rw [spelled, Reading.foldlM_take?_encodeChar, ih, List.reverse_cons, List.append_assoc]
    rfl

/-- What a text is spelled by is read as that text. -/
theorem decode?_encode (text : Text) : decode? (encode text) = some text := by
  have taken := foldlM_take?_encode [] text
  rw [decode?, taken]
  simp [Reading.text?]

theorem exists_encode {read : Text} {octets : List Octet} {final : Reading}
    (settled : final.underWay = none)
    (taken : octets.foldlM Reading.take? ⟨read, none⟩ = some final) :
    ∃ text, octets = encode text := by
  -- Each character takes at least one octet, so that the induction is on how many are left.
  generalize length : octets.length = left
  induction left using Nat.strongRecOn generalizing read octets with
  | ind left ih =>
    cases octets with
    | nil => exact ⟨[], rfl⟩
    | cons octet octets =>
      obtain ⟨c, rest, split, later⟩ := exists_encodeChar settled taken
      have shorter : rest.length < left := by
        have size := congrArg List.length split
        have width : 0 < (String.utf8EncodeChar c).length :=
          List.length_pos_iff.mpr String.utf8EncodeChar_ne_nil
        rw [List.length_append, length] at size
        omega
      obtain ⟨text, spelled⟩ := ih rest.length shorter later rfl
      exact ⟨c :: text, by rw [split, spelled]; rfl⟩

/-- Octets are read as a text exactly when they are what spells it. -/
theorem decode?_eq_some_iff {octets : List Octet} {text : Text} :
    decode? octets = some text ↔ octets = encode text := by
  constructor
  · intro read
    obtain ⟨final, taken, given⟩ := Option.bind_eq_some_iff.mp read
    have settled : final.underWay = none := by
      cases underWay : final.underWay with
      | none => rfl
      | some begun => simp [Reading.text?, underWay] at given
    obtain ⟨other, rfl⟩ := exists_encode settled taken
    rw [decode?_encode] at read
    rw [Option.some.inj read]
  · rintro rfl
    exact decode?_encode text

theorem decode?_eq_none_iff {octets : List Octet} :
    decode? octets = none ↔ ∀ text, octets ≠ encode text := by
  simp only [Option.eq_none_iff_forall_ne_some, ne_eq, decode?_eq_some_iff]

end Acceptor.Text.Utf8
