import Acceptor.Proofs.Text.Utf8
import Acceptor.Proofs.Yaml.Composing
import Acceptor.Proofs.Yaml.Scalars
/-!
Phrases: texts on one line between brackets, each with the tokens that a lexer finds in it and the
node that these make up. Numerals and texts by code points are phrases, and so are lists and records
of phrases, however deep; a record is read as a whole document.
-/
namespace Acceptor.Yaml

open Text Lexer Composer
open Description (Flow.list Flow.record Flow.field Flow.symbol)

def Reads (depth : Nat) (allowed : Bool) (text : Text) (tokens : List Token) : Prop :=
  ∀ (gap rest : Text) (before : List Token), (∀ c ∈ gap, c = ' ') → Closes rest →
    Reaches ⟨gap ++ (text ++ rest), before, depth, allowed⟩
      ⟨rest, tokens.reverse ++ before, depth, false⟩

/-! Parts with commas between them -/

theorem reads_joined {depth : Nat} {parts : List (Text × List Token)} (nonempty : parts ≠ [])
    (reads : ∀ part ∈ parts, Reads depth true part.1 part.2) :
    Reads depth true (joined [',', ' '] (parts.map Prod.fst))
      (separated (parts.map Prod.snd)) := by
  induction parts with
  | nil => exact absurd rfl nonempty
  | cons first rest ih =>
    obtain ⟨here, later⟩ := List.forall_mem_cons.mp reads
    cases rest with
    | nil => exact here
    | cons second rest =>
      -- What follows a comma is read over the one space behind it, as over any gap.
      intro gap after before spaces closes
      let text := joined [',', ' '] ((second :: rest).map Prod.fst)
      let tokens := separated ((second :: rest).map Prod.snd)
      have one : Reaches ⟨gap ++ (first.1 ++ ',' :: ' ' :: (text ++ after)), before, depth, true⟩
          ⟨',' :: ' ' :: (text ++ after), first.2.reverse ++ before, depth, false⟩ :=
        here gap _ before spaces fun c front => by cases front; rfl
      have comma := Reaches.of_comma (' ' :: (text ++ after)) (first.2.reverse ++ before) depth
        false
      have others : Reaches
          ⟨[' '] ++ (text ++ after), .comma :: (first.2.reverse ++ before), depth, true⟩
          ⟨after, tokens.reverse ++ .comma :: (first.2.reverse ++ before), depth, false⟩ :=
        ih (List.cons_ne_nil _ _) later [' '] after _ (fun c => List.mem_singleton.mp) closes
      have spelled : joined [',', ' '] ((first :: second :: rest).map Prod.fst) ++ after =
          first.1 ++ ',' :: ' ' :: (text ++ after) := by
        simp [joined, text]
      have taken : (separated ((first :: second :: rest).map Prod.snd)).reverse ++ before =
          tokens.reverse ++ .comma :: (first.2.reverse ++ before) := by
        simp [separated, tokens]
      rw [spelled, taken]
      exact one.trans (comma.trans others)

theorem reads_collection {opening closing : Char} {start stop : Token}
    (opens : indicated? opening = some (openFlow? · start)) (begins : Begins opening)
    (closes : indicated? closing = some (closeFlow? · stop)) (begins' : Begins closing)
    (ends : Scalar.Plain.endsInFlow closing = true) {depth : Nat}
    {parts : List (Text × List Token)}
    (reads : ∀ part ∈ parts, Reads (depth + 1) true part.1 part.2) (allowed : Bool) :
    Reads depth allowed (opening :: joined [',', ' '] (parts.map Prod.fst) ++ [closing])
      (start :: separated (parts.map Prod.snd) ++ [stop]) := by
  intro gap rest before spaces _
  let text := joined [',', ' '] (parts.map Prod.fst)
  let tokens := separated (parts.map Prod.snd)
  have first := Reaches.of_openFlow spaces opens begins (text ++ closing :: rest) before depth
    allowed
  have body : ∃ between, Reaches ⟨text ++ closing :: rest, start :: before, depth + 1, true⟩
      ⟨closing :: rest, tokens.reverse ++ start :: before, depth + 1, between⟩ := by
    by_cases none : parts = []
    · subst none
      exact ⟨true, Reaches.refl _⟩
    · exact ⟨false, reads_joined none reads [] _ _ nofun fun c front => by cases front; exact ends⟩
  obtain ⟨between, body⟩ := body
  have last := Reaches.of_closeFlow closes begins' rest (tokens.reverse ++ start :: before) depth
    between
  have spelled : opening :: text ++ [closing] ++ rest = opening :: (text ++ closing :: rest) := by
    simp
  have taken : (start :: tokens ++ [stop]).reverse ++ before =
      stop :: (tokens.reverse ++ start :: before) := by
    simp
  rw [spelled, taken]
  exact first.trans (body.trans last)

/-! Characters and tokens of phrases -/

def isPrintable (c : Char) : Bool := ' ' ≤ c && c ≤ '~'

theorem printable_numeralChar {c : Char} (numeral : isNumeralChar c = true) :
    isPrintable c = true := by
  rcases Bool.or_eq_true_iff.mp numeral with digit | minus
  · exact of_digits isPrintable (by decide) digit
  · rw [eq_of_beq minus]
    decide

theorem printable_digits (width value : Nat) :
    ∀ c ∈ Description.Flow.digits width value, isPrintable c = true := by
  induction width generalizing value with
  | zero => exact fun c member => nomatch member
  | succ width ih =>
    intro c member
    rcases List.mem_append.mp member with earlier | last
    · exact ih (value / 16) c earlier
    · have all : ∀ digit, digit < 16 → isPrintable (Nat.digitChar digit) = true := by decide
      rw [List.mem_singleton.mp last]
      exact all _ (Nat.mod_lt value (by decide))

theorem printable_symbol (symbol : Char) : ∀ c ∈ Flow.symbol symbol, isPrintable c = true := by
  intro c member
  rcases List.mem_append.mp member with escape | digit
  · have marks : ['\\', 'U'].all isPrintable = true := by decide
    exact List.all_eq_true.mp marks c escape
  · exact printable_digits 8 symbol.toNat c digit

theorem printable_joined {pieces : List Text}
    (printable : ∀ piece ∈ pieces, ∀ c ∈ piece, isPrintable c = true) :
    ∀ c ∈ joined [',', ' '] pieces, isPrintable c = true := by
  intro c member
  rcases mem_joined member with between | ⟨piece, listed, found⟩
  · have marks : [',', ' '].all isPrintable = true := by decide
    exact List.all_eq_true.mp marks c between
  · exact printable piece listed c found

theorem mem_separated {parts : List (List Token)} {token : Token}
    (member : token ∈ separated parts) : token = .comma ∨ ∃ part ∈ parts, token ∈ part := by
  induction parts with
  | nil => cases member
  | cons first rest ih =>
    cases rest with
    | nil => exact .inr ⟨first, List.mem_cons_self, member⟩
    | cons second rest =>
      rcases List.mem_append.mp member with here | late
      · exact .inr ⟨first, List.mem_cons_self, here⟩
      · rcases List.mem_cons.mp late with comma | late
        · exact .inl comma
        · rcases ih late with comma | ⟨part, listed, found⟩
          · exact .inl comma
          · exact .inr ⟨part, List.mem_cons_of_mem _ listed, found⟩

theorem unmarked_separated {parts : List (List Token)}
    (unmarked : ∀ part ∈ parts, ∀ token ∈ part, token ≠ .documentEnd) :
    ∀ token ∈ separated parts, token ≠ .documentEnd := by
  intro token member
  rcases mem_separated member with comma | ⟨part, listed, found⟩
  · rw [comma]
    decide
  · exact unmarked part listed token found

theorem forall_mem_enclosed {α : Type} {holds : α → Prop} {first last : α} {inner : List α}
    (before : holds first) (between : ∀ item ∈ inner, holds item) (behind : holds last) :
    ∀ item ∈ first :: inner ++ [last], holds item := by
  intro item member
  rcases List.mem_append.mp member with early | late
  · rcases List.mem_cons.mp early with rfl | within
    · exact before
    · exact between item within
  · rw [List.mem_singleton.mp late]
    exact behind

/-! Names -/

/-- Names that stand for themselves between double quotes and are short enough for keys. -/
structure IsName (name : Text) : Prop where
  bare : name.all isBare = true
  short : (Utf8.encode (quoted ([·]) name)).length ≤ 1024
  printable : name.all isPrintable = true

theorem printable_field {name text : Text} (isName : IsName name)
    (printable : ∀ c ∈ text, isPrintable c = true) :
    ∀ c ∈ Flow.field name text, isPrintable c = true := by
  have marks : ['"', ':', ' '].all isPrintable = true := by decide
  intro c member
  rcases List.mem_append.mp member with key | value
  · rcases List.mem_append.mp key with named | mark
    · rcases List.mem_cons.mp named with rfl | letter
      · decide
      · exact List.all_eq_true.mp isName.printable c letter
    · exact List.all_eq_true.mp marks c mark
  · exact printable c value

theorem reads_field {depth : Nat} (inside : 0 < depth) {name : Text} (isName : IsName name)
    {text : Text} {tokens : List Token} (reads : Reads depth false text tokens) :
    Reads depth true (Flow.field name text) (.key :: .scalar .quoted name :: .value :: tokens) := by
  intro gap rest before spaces closes
  have key := Reaches.of_key spaces (fun c member =>
      spells_bare (List.all_eq_true.mp isName.bare c member))
    isName.short (' ' :: (text ++ rest)) before inside
  have value := reads [' '] rest (.value :: .scalar .quoted name :: .key :: before)
    (fun c => List.mem_singleton.mp) closes
  have spelled : Flow.field name text ++ rest =
      quoted ([·]) name ++ ':' :: ' ' :: (text ++ rest) := by
    simp [Flow.field, quoted]
  have taken : (Token.key :: .scalar .quoted name :: .value :: tokens).reverse ++ before =
      tokens.reverse ++ .value :: .scalar .quoted name :: .key :: before := by
    simp
  rw [spelled, taken]
  exact key.trans value

/-! Phrases -/

structure Phrase where
  text : Text
  tokens : List Token
  node : Node

namespace Phrase

structure Sound (phrase : Phrase) : Prop where
  reads : ∀ depth, 0 < depth → ∀ allowed, Reads depth allowed phrase.text phrase.tokens
  composes : Composes phrase.tokens phrase.node
  unmarked : ∀ token ∈ phrase.tokens, token ≠ .documentEnd
  printable : ∀ c ∈ phrase.text, isPrintable c = true

def number (n : Int) : Phrase where
  text := Decimal.ofInt n
  tokens := [.scalar .plain (Decimal.ofInt n)]
  node := .scalar none none .plain (Decimal.ofInt n)

def spelled (text : Text) : Phrase where
  text := quoted Flow.symbol text
  tokens := [.scalar .quoted text]
  node := .scalar none none .quoted text

def list (items : List Phrase) : Phrase where
  text := Flow.list (items.map text)
  tokens := .flowSequenceStart :: separated (items.map tokens) ++ [.flowSequenceEnd]
  node := .sequence none (items.map node)

def record (fields : List (Text × Phrase)) : Phrase where
  text := Flow.record (fields.map fun (name, value) => Flow.field name value.text)
  tokens := .flowMappingStart :: separated (fields.map fun (name, value) =>
    .key :: .scalar .quoted name :: .value :: value.tokens) ++ [.flowMappingEnd]
  node := .mapping none (fields.map fun (name, value) =>
    (.scalar none none .quoted name, value.node))

theorem sound_number (n : Int) : (number n).Sound where
  reads := fun _ inside allowed _ _ before spaces closes =>
    Reaches.of_numeral spaces (numeral_ofInt n) closes before inside allowed
  composes := composes_scalar .plain (Decimal.ofInt n)
  unmarked := by simp [number]
  printable := fun c member => printable_numeralChar ((numeral_ofInt n).chars c member)

theorem sound_spelled (text : Text) : (spelled text).Sound where
  reads := fun depth _ allowed _ rest before spaces _ =>
    Reaches.of_quoted spaces (fun c _ => spells_symbol c) rest before depth allowed
  composes := composes_scalar .quoted text
  unmarked := by simp [spelled]
  printable := by
    refine forall_mem_enclosed (by decide) ?_ (by decide)
    intro c member
    obtain ⟨symbol, _, member⟩ := List.mem_flatMap.mp member
    exact printable_symbol symbol c member

theorem sound_list {items : List Phrase} (sound : ∀ item ∈ items, item.Sound) :
    (list items).Sound where
  reads := by
    intro depth inside allowed
    have parts := @reads_collection '[' ']' .flowSequenceStart .flowSequenceEnd rfl (by decide) rfl
      (by decide) (by decide) depth (items.map fun item => (item.text, item.tokens))
      (by
        intro part member
        obtain ⟨item, listed, rfl⟩ := List.mem_map.mp member
        exact (sound item listed).reads (depth + 1) (Nat.succ_pos depth) true) allowed
    rw [List.map_map, List.map_map] at parts
    exact parts
  composes := by
    have parts := @composes_list (items.map fun item => (item.tokens, item.node))
      (by
        intro part member
        obtain ⟨item, listed, rfl⟩ := List.mem_map.mp member
        exact (sound item listed).composes)
    rw [List.map_map, List.map_map] at parts
    exact parts
  unmarked := by
    refine forall_mem_enclosed (by decide) (unmarked_separated ?_) (by decide)
    intro part member
    obtain ⟨item, listed, rfl⟩ := List.mem_map.mp member
    exact (sound item listed).unmarked
  printable := by
    refine forall_mem_enclosed (by decide) (printable_joined ?_) (by decide)
    intro piece member
    obtain ⟨item, listed, rfl⟩ := List.mem_map.mp member
    exact (sound item listed).printable

def SoundFields (fields : List (Text × Phrase)) : Prop :=
  ∀ field ∈ fields, IsName field.1 ∧ field.2.Sound

/-- A record may stand anywhere, even outside of all collections. -/
theorem reads_record {fields : List (Text × Phrase)} (sound : SoundFields fields) (depth : Nat)
    (allowed : Bool) : Reads depth allowed (record fields).text (record fields).tokens := by
  have parts := @reads_collection '\x7b' '\x7d' .flowMappingStart .flowMappingEnd rfl (by decide)
    rfl (by decide) (by decide) depth
    (fields.map fun (name, value) => (Flow.field name value.text,
      .key :: .scalar .quoted name :: .value :: value.tokens))
    (by
      intro part member
      obtain ⟨field, listed, rfl⟩ := List.mem_map.mp member
      obtain ⟨name, value⟩ := sound field listed
      exact reads_field (Nat.succ_pos depth) name
        (value.reads (depth + 1) (Nat.succ_pos depth) false)) allowed
  rw [List.map_map, List.map_map] at parts
  exact parts

theorem sound_record {fields : List (Text × Phrase)} (sound : SoundFields fields) :
    (record fields).Sound where
  reads := fun depth _ => reads_record sound depth
  composes := by
    have parts := @composes_record (fields.map fun (name, value) =>
      (.key :: .scalar .quoted name :: .value :: value.tokens,
        (.scalar none none .quoted name, value.node)))
      (by
        intro part member
        obtain ⟨field, listed, rfl⟩ := List.mem_map.mp member
        exact composesEntry_field field.1 (sound field listed).2.composes)
    rw [List.map_map, List.map_map] at parts
    exact parts
  unmarked := by
    refine forall_mem_enclosed (by decide) (unmarked_separated ?_) (by decide)
    intro part member
    obtain ⟨field, listed, rfl⟩ := List.mem_map.mp member
    have value := (sound field listed).2.unmarked
    simpa using value
  printable := by
    refine forall_mem_enclosed (by decide) (printable_joined ?_) (by decide)
    intro piece member
    obtain ⟨field, listed, rfl⟩ := List.mem_map.mp member
    obtain ⟨name, value⟩ := sound field listed
    exact printable_field name value.printable

/-- **A record of phrases is a document**, and it is read to the tree that it stands for. -/
theorem parse?_record {fields : List (Text × Phrase)} (sound : SoundFields fields) :
    Document.parse? (record fields).text = some ⟨some (record fields).node⟩ := by
  have whole : Reaches ⟨(record fields).text, [], 0, true⟩
      ⟨[], (record fields).tokens.reverse, 0, false⟩ := by
    have reached := reads_record sound 0 true [] [] [] nofun nofun
    rwa [List.append_nil, List.append_nil] at reached
  have lexed : tokens? (record fields).text = some (record fields).tokens := by
    rw [tokens?_of_reaches whole, List.reverse_reverse]
  rw [Document.parse?, lexed]
  exact Document.ofTokens?_record (sound_record sound).composes (sound_record sound).unmarked

/-- Printable characters are allowed, and none of them is a break that would have to be unified. -/
theorem stream?_encode {text : Text} (printable : ∀ c ∈ text, isPrintable c = true) :
    stream? (Utf8.encode text) = some text := by
  have allowed : text.all isAllowed = true := by
    apply List.all_eq_true.mpr
    intro c member
    have within := printable c member
    rw [isPrintable] at within
    rw [isAllowed, within, Bool.or_true, Bool.true_or, Bool.true_or]
  have plain : ∀ c ∈ text, c ≠ '\r' ∧ c ≠ '\u0085' := by
    intro c member
    constructor
    · rintro rfl
      exact absurd (printable _ member) (by decide)
    · rintro rfl
      exact absurd (printable _ member) (by decide)
  rw [stream?, Utf8.decode?_encode]
  change (if text.all isAllowed = true then some (unifyBreaks text) else none) = _
  rw [if_pos allowed, unifyBreaks_of_plain plain]

end Phrase

end Acceptor.Yaml
