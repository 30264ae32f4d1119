import Acceptor.Proofs.Fallible
import Acceptor.Proofs.Text.Utf8
import Acceptor.Text.Lines
/-!
Lines of text and lines of octets. Octets are text as a whole exactly when each of their lines is,
since a line feed is an octet of no other character. A reader that takes its input line by line,
with the line feed still on it, finds the same words as one that decodes all of it at once.
-/
namespace Acceptor.Text.Lines

variable {α : Type} [DecidableEq α]

/-- The pieces that end with a line feed, which is kept. What follows the last line feed is a piece
of its own unless it is empty. -/
def pieces (feed : α) : List α → List (List α)
  | [] => []
  | item :: rest =>
    if item = feed then [item] :: pieces feed rest
    else match pieces feed rest with
      | [] => [[item]]
      | piece :: more => (item :: piece) :: more

def unfed (feed : α) (piece : List α) : List α := piece.takeWhile (· ≠ feed)

def prolong (start : List α) : List (List α) → List (List α)
  | [] => [start]
  | first :: later => (start ++ first) :: later

omit [DecidableEq α] in
theorem prolong_cons (item : α) (start : List α) (lists : List (List α)) :
    prolong (item :: start) lists = prolong [item] (prolong start lists) := by
  cases lists with
  | nil => rfl
  | cons first later => rfl

theorem pieces_feed (feed : α) (rest : List α) :
    pieces feed (feed :: rest) = [feed] :: pieces feed rest := by
  rw [pieces, if_pos rfl]

theorem pieces_cons_of_ne {feed item : α} (differ : item ≠ feed) (rest : List α) :
    pieces feed (item :: rest) = prolong [item] (pieces feed rest) := by
  rw [pieces, if_neg differ]
  cases pieces feed rest with
  | nil => rfl
  | cons piece more => rfl

theorem split_cons_of_ne {feed item : α} (differ : item ≠ feed) (rest : List α) :
    split feed (item :: rest) = prolong [item] (split feed rest) := by
  rw [split, if_neg differ]
  cases split feed rest with
  | nil => rfl
  | cons line lines => rfl

theorem flatten_pieces (feed : α) (items : List α) : (pieces feed items).flatten = items := by
  induction items with
  | nil => rfl
  | cons item rest ih =>
    by_cases same : item = feed
    · rw [same, pieces_feed, List.flatten_cons, ih, List.singleton_append]
    · rw [pieces_cons_of_ne same]
      cases found : pieces feed rest with
      | nil =>
        rw [found] at ih
        rw [← ih]
        rfl
      | cons piece more =>
        rw [found] at ih
        rw [← ih]
        rfl

theorem map_unfed_pieces (feed : α) (items : List α) :
    (pieces feed items).map (unfed feed) = split feed items := by
  induction items with
  | nil => rfl
  | cons item rest ih =>
    by_cases same : item = feed
    · rw [same, pieces_feed, split_feed, List.map_cons, ih]
      simp [unfed]
    · rw [pieces_cons_of_ne same, split_cons_of_ne same, ← ih]
      have kept (piece : List α) : unfed feed (item :: piece) = item :: unfed feed piece := by
        simp [unfed, same]
      cases pieces feed rest with
      | nil => exact congrArg (·  :: []) (kept [])
      | cons piece more => exact congrArg (· :: _) (kept piece)

theorem piece_cases {feed : α} {items piece : List α} (member : piece ∈ pieces feed items) :
    piece = unfed feed piece ++ [feed] ∨ piece = unfed feed piece := by
  induction items generalizing piece with
  | nil => cases member
  | cons item rest ih =>
    by_cases same : item = feed
    · rw [same, pieces_feed] at member
      rcases List.mem_cons.mp member with rfl | later
      · left
        simp [unfed]
      · exact ih later
    · have kept (other : List α) : unfed feed (item :: other) = item :: unfed feed other := by
        simp [unfed, same]
      rw [pieces_cons_of_ne same] at member
      cases found : pieces feed rest with
      | nil =>
        rw [found] at member
        obtain rfl := List.mem_singleton.mp member
        right
        rw [kept]
        rfl
      | cons first more =>
        rw [found] at member ih
        rcases List.mem_cons.mp member with rfl | later
        · rw [List.singleton_append, kept, List.cons_append]
          rcases ih (List.mem_cons_self ..) with ended | «open»
          · exact .inl (congrArg _ ended)
          · exact .inr (congrArg _ «open»)
        · exact ih (List.mem_cons_of_mem _ later)

omit [DecidableEq α] in
/-- Where one item in front makes the first line longer, so do several. -/
theorem cut_append {cut : List α → List (List α)} {feed : α}
    (cons : ∀ item, item ≠ feed → ∀ rest, cut (item :: rest) = prolong [item] (cut rest))
    {start : List α} (apart : feed ∉ start) (some : start ≠ []) (rest : List α) :
    cut (start ++ rest) = prolong start (cut rest) := by
  induction start with
  | nil => exact absurd rfl some
  | cons item start ih =>
    have differ : item ≠ feed := fun same => apart (by simp [same])
    rw [List.cons_append, cons item differ]
    by_cases last : start = []
    · rw [last, List.nil_append]
    · rw [ih (fun member => apart (List.mem_cons_of_mem _ member)) last, ← prolong_cons]

theorem pieces_append {feed : α} {start : List α} (apart : feed ∉ start) (some : start ≠ [])
    (rest : List α) : pieces feed (start ++ rest) = prolong start (pieces feed rest) :=
  cut_append (fun _ => pieces_cons_of_ne) apart some rest

theorem split_append {feed : α} {start : List α} (apart : feed ∉ start) (some : start ≠ [])
    (rest : List α) : split feed (start ++ rest) = prolong start (split feed rest) :=
  cut_append (fun _ => split_cons_of_ne) apart some rest

theorem split_line {feed : α} {line : List α} (apart : feed ∉ line) (rest : List α) :
    split feed (line ++ feed :: rest) = line :: split feed rest := by
  by_cases blank : line = []
  · rw [blank, List.nil_append, split_feed]
  · rw [split_append apart blank, split_feed, prolong, List.append_nil]

/-- Lines that are closed by line feeds are found in front of everything else. -/
theorem split_closed {feed : α} {lines : List (List α)} (apart : ∀ line ∈ lines, feed ∉ line)
    (rest : List α) :
    split feed (lines.flatMap (· ++ [feed]) ++ rest) = lines ++ split feed rest := by
  induction lines with
  | nil => rfl
  | cons line later ih =>
    obtain ⟨here, behind⟩ := List.forall_mem_cons.mp apart
    rw [List.flatMap_cons, List.append_assoc, List.append_assoc, List.singleton_append,
      split_line here, ih behind, List.cons_append]

theorem split_unlines {lines : List Text} (apart : ∀ line ∈ lines, '\n' ∉ line) :
    split '\n' (unlines lines) = lines := by
  have closed := split_closed apart []
  rwa [List.append_nil, split_nil, List.append_nil] at closed

theorem word_eq_self {line : Text} (kept : line.getLast? ≠ some '\r') : word line = line := by
  rcases List.eq_nil_or_concat line with rfl | ⟨start, last, rfl⟩
  · rfl
  · rw [List.concat_eq_append] at kept ⊢
    have differ : last ≠ '\r' := by
      rintro rfl
      exact kept List.getLast?_concat
    exact trimRight_of_last_ne '\r' last start differ

open Utf8 (Octet encode decode?)

theorem feed_notMem_encodeChar {c : Char} (differ : c ≠ '\n') :
    (0x0A : Octet) ∉ String.utf8EncodeChar c := by
  intro member
  have value : c.toNat = 0x0A := Utf8.toNat_eq_of_mem_encodeChar member (by decide)
  exact differ (Char.toNat_inj.mp value)

theorem encode_cons (c : Char) (text : Text) :
    encode (c :: text) = String.utf8EncodeChar c ++ encode text := rfl

theorem encode_feed : encode ['\n'] = [0x0A] := by decide

theorem map_encode_prolong (c : Char) (lines : List Text) :
    (prolong [c] lines).map encode = prolong (String.utf8EncodeChar c) (lines.map encode) := by
  cases lines with
  | nil => simp [prolong, encode_cons, Utf8.encode_nil]
  | cons first later => rfl

/-- Octets are cut where their text is, since a line feed is cut at in both and other characters
make the line at the front longer. -/
theorem cut_encode {octets : List Octet → List (List Octet)} {chars : Text → List Text}
    (nil : octets [] = (chars []).map encode)
    (feed : ∀ rest, octets (encode rest) = (chars rest).map encode →
      octets (0x0A :: encode rest) = (chars ('\n' :: rest)).map encode)
    (append : ∀ start, 0x0A ∉ start → start ≠ [] → ∀ rest,
      octets (start ++ rest) = prolong start (octets rest))
    (cons : ∀ c, c ≠ '\n' → ∀ rest, chars (c :: rest) = prolong [c] (chars rest))
    (text : Text) : octets (encode text) = (chars text).map encode := by
  induction text with
  | nil => exact nil
  | cons c rest ih =>
    by_cases ended : c = '\n'
    · subst ended
      exact feed rest ih
    · rw [encode_cons, append _ (feed_notMem_encodeChar ended) String.utf8EncodeChar_ne_nil,
        cons c ended, ih, map_encode_prolong]

theorem split_encode (text : Text) :
    split 0x0A (encode text) = (split '\n' text).map encode := by
  refine cut_encode rfl ?_ (fun _ => split_append) (fun _ => split_cons_of_ne) text
  intro rest same
  rw [split_feed, split_feed, List.map_cons, same]
  rfl

theorem pieces_encode (text : Text) :
    pieces 0x0A (encode text) = (pieces '\n' text).map encode := by
  refine cut_encode rfl ?_ (fun _ => pieces_append) (fun _ => pieces_cons_of_ne) text
  intro rest same
  rw [pieces_feed, pieces_feed, List.map_cons, same, encode_feed.symm]

theorem texts_or_broken (lists : List (List Octet)) :
    (∃ texts : List Text, lists = texts.map encode) ∨
      ∃ (known : List Text) (broken : List Octet) (later : List (List Octet)),
        lists = known.map encode ++ broken :: later ∧ decode? broken = none := by
  induction lists with
  | nil => exact .inl ⟨[], rfl⟩
  | cons first later ih =>
    cases read : decode? first with
    | none => exact .inr ⟨[], first, later, rfl, read⟩
    | some text =>
      obtain rfl := Utf8.decode?_eq_some_iff.mp read
      rcases ih with ⟨texts, rfl⟩ | ⟨known, broken, rest, rfl, fails⟩
      · exact .inl ⟨text :: texts, rfl⟩
      · exact .inr ⟨text :: known, broken, rest, rfl, fails⟩

theorem exists_encode_of_split {input : List Octet} {texts : List Text}
    (lines : split 0x0A input = texts.map encode) : ∃ text, input = encode text := by
  have piece_encode : ∀ piece ∈ pieces 0x0A input, ∃ text, piece = encode text := by
    intro piece member
    have line : unfed 0x0A piece ∈ texts.map encode := by
      rw [← lines, ← map_unfed_pieces]
      exact List.mem_map_of_mem member
    obtain ⟨text, _, spelled⟩ := List.mem_map.mp line
    rcases piece_cases member with ended | «open»
    · exact ⟨text ++ ['\n'], by rw [ended, Utf8.encode_append, spelled, encode_feed]⟩
    · exact ⟨text, by rw [«open», spelled]⟩
  rw [← flatten_pieces 0x0A input]
  generalize pieces 0x0A input = parts at piece_encode
  induction parts with
  | nil => exact ⟨[], rfl⟩
  | cons piece more ih =>
    obtain ⟨here, later⟩ := List.forall_mem_cons.mp piece_encode
    obtain ⟨text, rfl⟩ := here
    obtain ⟨rest, spelled⟩ := ih later
    exact ⟨text ++ rest, by rw [List.flatten_cons, spelled, Utf8.encode_append]⟩

theorem exists_broken_line {input : List Octet} (broken : decode? input = none) :
    ∃ (known : List Text) (line : List Octet) (later : List (List Octet)),
      split 0x0A input = known.map encode ++ line :: later ∧ decode? line = none := by
  rcases texts_or_broken (split 0x0A input) with ⟨texts, lines⟩ | found
  · obtain ⟨text, spelled⟩ := exists_encode_of_split lines
    exact absurd spelled (Utf8.decode?_eq_none_iff.mp broken text)
  · exact found

/-- A line feed behind a line ends it and belongs to no character of it. -/
theorem decode?_snoc_feed {line : List Octet} (apart : 0x0A ∉ line) :
    decode? (line ++ [0x0A]) = (decode? line).map (· ++ ['\n']) := by
  cases read : decode? line with
  | some text =>
    rw [Utf8.decode?_eq_some_iff.mp read, ← encode_feed, ← Utf8.encode_append, Utf8.decode?_encode]
    rfl
  | none =>
    apply Utf8.decode?_eq_none_iff.mpr
    intro text spelled
    have lines := split_encode text
    by_cases blank : line = []
    · rw [blank] at read
      cases read
    · rw [← spelled, split_append apart blank] at lines
      -- The line alone is a line of the text, and so it is what spells that line.
      have member : line ∈ (split '\n' text).map encode := by
        rw [← lines]
        simp [prolong, split]
      obtain ⟨first, _, rfl⟩ := List.mem_map.mp member
      exact Utf8.decode?_eq_none_iff.mp read first rfl

/-- A line less the line feed at its end, and less one carriage return in front of it. -/
def chomp (line : Text) : Text :=
  match line.reverse with
  | '\n' :: '\r' :: rest => rest.reverse
  | '\n' :: rest => rest.reverse
  | _ => line

/-- The words of an input that is taken in piece by piece, unless one of the pieces is no text. -/
def readWords? (input : List Octet) : Option (List Text) :=
  (pieces 0x0A input).mapM fun piece => (decode? piece).map fun line => word (chomp line)

theorem notMem_unfed (feed : α) (piece : List α) : feed ∉ unfed feed piece := by
  induction piece with
  | nil => exact List.not_mem_nil
  | cons item rest ih =>
    by_cases same : item = feed
    · simp [unfed, same]
    · intro member
      have kept : unfed feed (item :: rest) = item :: unfed feed rest := by simp [unfed, same]
      rw [kept] at member
      rcases List.mem_cons.mp member with found | later
      · exact same found.symm
      · exact ih later

theorem chomp_of_notMem {line : Text} (apart : '\n' ∉ line) : chomp line = line := by
  rw [chomp]
  split
  next found => exact absurd (List.mem_reverse.mp (found ▸ List.mem_cons_self ..)) apart
  next found => exact absurd (List.mem_reverse.mp (found ▸ List.mem_cons_self ..)) apart
  next => rfl

/-- The carriage return that goes with the line feed would go with those of the word, too. -/
theorem word_chomp_snoc (line : Text) : word (chomp (line ++ ['\n'])) = word line := by
  rw [chomp, List.reverse_append, List.reverse_singleton, List.singleton_append]
  split
  next rest found =>
    have returned : line = rest.reverse ++ ['\r'] := by
      rw [← List.reverse_cons, ← (List.cons.inj found).2, List.reverse_reverse]
    rw [returned, word, word, trimRight_snoc]
  next rest _ found =>
    rw [← (List.cons.inj found).2, List.reverse_reverse]
  next _ other => exact absurd rfl (other line.reverse)

theorem word_chomp_of_mem_pieces {text piece : Text} (member : piece ∈ pieces '\n' text) :
    word (chomp piece) = word (unfed '\n' piece) := by
  rcases piece_cases member with ended | «open»
  · generalize unfed '\n' piece = line at ended
    rw [ended, word_chomp_snoc]
  · have apart := notMem_unfed '\n' piece
    rw [← «open»] at apart
    rw [chomp_of_notMem apart, ← «open»]

/-- Reading piece by piece finds the words of the whole. -/
theorem readWords?_eq_words? (input : List Octet) : readWords? input = words? input := by
  rw [words?, readWords?]
  cases read : decode? input with
  | some text =>
    rw [Utf8.decode?_eq_some_iff.mp read, pieces_encode, List.mapM_map]
    have found : ∀ piece ∈ pieces '\n' text,
        ((fun piece => (decode? piece).map fun line => word (chomp line)) ∘ encode) piece =
          some (word (unfed '\n' piece)) := by
      intro piece member
      rw [Function.comp_apply, Utf8.decode?_encode, Option.map_some,
        word_chomp_of_mem_pieces member]
    rw [Fallible.mapM_eq_some_map found, Option.map_some, ← map_unfed_pieces, List.map_map]
    rfl
  | none =>
    obtain ⟨known, line, later, lines, broken⟩ := exists_broken_line read
    have member : line ∈ (pieces 0x0A input).map (unfed 0x0A) := by
      rw [map_unfed_pieces, lines]
      simp
    obtain ⟨piece, listed, rfl⟩ := List.mem_map.mp member
    have fails : decode? piece = none := by
      rcases piece_cases listed with ended | «open»
      · rw [ended, decode?_snoc_feed (notMem_unfed _ _), broken]
        rfl
      · rw [«open», broken]
    exact Fallible.mapM_eq_none listed (by rw [fails]; rfl)

end Acceptor.Text.Lines
