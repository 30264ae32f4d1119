import Acceptor.Proofs.Text.Lines
import Mathlib.Data.List.DropRight
/-!
Words on lines of their own. Whatever number of carriage returns stands behind each word, and
whether or not a line feed closes the last line, the words are read back; and every text is such
lines, so that no word is dropped, invented or shortened by anything but the carriage returns at the
end of its line.
-/
namespace Acceptor.Text.Lines

open Utf8 (Octet encode decode?)

/-- A line that holds a word, with so many carriage returns behind it. They are not part of the
word, which ends with none of its own. -/
structure Holder where
  word : Text
  returns : Nat
  unbroken : '\n' ∉ word
  whole : word.getLast? ≠ some '\r'

namespace Holder

def line (holder : Holder) : Text := holder.word ++ List.replicate holder.returns '\r'

theorem feed_notMem_line (holder : Holder) : '\n' ∉ holder.line := by
  intro member
  rcases List.mem_append.mp member with early | late
  · exact holder.unbroken early
  · exact absurd (List.eq_of_mem_replicate late) (by decide)

theorem word_line (holder : Holder) : Lines.word holder.line = holder.word := by
  have trimmed (count : Nat) :
      Lines.word (holder.word ++ List.replicate count '\r') = holder.word := by
    induction count with
    | zero => rw [List.replicate_zero, List.append_nil, word_eq_self holder.whole]
    | succ count ih =>
      rw [List.replicate_succ', ← List.append_assoc, Lines.word, trimRight_snoc]
      exact ih
  exact trimmed holder.returns

end Holder

theorem word_and_returns (line : Text) :
    (word line).getLast? ≠ some '\r' ∧
      ∃ returns, line = word line ++ List.replicate returns '\r' := by
  induction line using List.reverseRecOn with
  | nil => exact ⟨fun same => (nomatch same), 0, rfl⟩
  | append_singleton start last ih =>
    by_cases returned : last = '\r'
    · obtain ⟨whole, returns, same⟩ := ih
      rw [returned, word, trimRight_snoc]
      refine ⟨whole, returns + 1, ?_⟩
      rw [List.replicate_succ', ← List.append_assoc]
      exact congrArg (· ++ ['\r']) same
    · rw [word, trimRight_of_last_ne '\r' last start returned, List.getLast?_concat]
      exact ⟨fun same => returned (Option.some.inj same), 0, (List.append_nil _).symm⟩

theorem exists_holder {line : Text} (apart : '\n' ∉ line) :
    ∃ holder : Holder, holder.line = line := by
  obtain ⟨whole, returns, same⟩ := word_and_returns line
  have unbroken : '\n' ∉ word line := by
    intro member
    exact apart (same ▸ List.mem_append_left _ member)
  exact ⟨⟨word line, returns, unbroken, whole⟩, same.symm⟩

theorem exists_holders {lines : List Text} (apart : ∀ line ∈ lines, '\n' ∉ line) :
    ∃ holders : List Holder, holders.map Holder.line = lines := by
  induction lines with
  | nil => exact ⟨[], rfl⟩
  | cons line lines ih =>
    obtain ⟨here, later⟩ := List.forall_mem_cons.mp apart
    obtain ⟨holder, rfl⟩ := exists_holder here
    obtain ⟨holders, rfl⟩ := ih later
    exact ⟨holder :: holders, rfl⟩

section
variable {α : Type} [DecidableEq α]

theorem split_alone {feed : α} {line : List α} (apart : feed ∉ line) (some : line ≠ []) :
    split feed line = [line] := by
  have alone := split_append apart some []
  rwa [List.append_nil, split_nil, prolong] at alone

/-- Every sequence is lines closed by line feeds, and what follows the last of these. -/
theorem exists_closed (feed : α) (items : List α) :
    ∃ (lines : List (List α)) (rest : List α), items = lines.flatMap (· ++ [feed]) ++ rest ∧
      (∀ line ∈ lines, feed ∉ line) ∧ feed ∉ rest := by
  induction items with
  | nil => exact ⟨[], [], rfl, fun _ member => (nomatch member), List.not_mem_nil⟩
  | cons item items ih =>
    obtain ⟨lines, rest, rfl, apart, unbroken⟩ := ih
    by_cases ended : item = feed
    · refine ⟨[] :: lines, rest, ?_, List.forall_mem_cons.mpr ⟨List.not_mem_nil, apart⟩, unbroken⟩
      rw [ended]
      rfl
    · have longer {line : List α} (free : feed ∉ line) : feed ∉ item :: line :=
        List.not_mem_cons_of_ne_of_not_mem (Ne.symm ended) free
      cases lines with
      | nil => exact ⟨[], item :: rest, rfl, apart, longer unbroken⟩
      | cons line lines =>
        obtain ⟨here, later⟩ := List.forall_mem_cons.mp apart
        exact ⟨(item :: line) :: lines, rest, rfl,
          List.forall_mem_cons.mpr ⟨longer here, later⟩, unbroken⟩

theorem rtakeWhile_closed {feed : α} {lines : List (List α)} {rest : List α}
    (unbroken : feed ∉ rest) :
    (lines.flatMap (· ++ [feed]) ++ rest).rtakeWhile (· ≠ feed) = rest := by
  have passed : ∀ item ∈ rest.reverse, decide (item ≠ feed) = true := by
    intro item member
    apply decide_eq_true
    rintro rfl
    exact unbroken (List.mem_reverse.mp member)
  have stopped : (lines.flatMap (· ++ [feed])).reverse.takeWhile (· ≠ feed) = [] := by
    rcases List.eq_nil_or_concat lines with rfl | ⟨earlier, last, rfl⟩
    · rfl
    · simp
  rw [List.rtakeWhile, List.reverse_append, List.takeWhile_append_of_pos passed, stopped,
    List.append_nil, List.reverse_reverse]

theorem count_closed {feed : α} {lines : List (List α)} (apart : ∀ line ∈ lines, feed ∉ line) :
    (lines.flatMap (· ++ [feed])).count feed = lines.length := by
  induction lines with
  | nil => rfl
  | cons line lines ih =>
    obtain ⟨here, later⟩ := List.forall_mem_cons.mp apart
    rw [List.flatMap_cons, List.count_append, List.count_append, List.count_eq_zero.mpr here,
      ih later, List.count_singleton_self, List.length_cons]
    omega

/-- There are as many lines as line feeds, and one more if anything follows the last of these. -/
theorem length_split (feed : α) (items : List α) :
    (split feed items).length =
      items.count feed + if items.rtakeWhile (· ≠ feed) = [] then 0 else 1 := by
  obtain ⟨lines, rest, rfl, apart, unbroken⟩ := exists_closed feed items
  rw [split_closed apart, rtakeWhile_closed unbroken, List.count_append, count_closed apart,
    List.count_eq_zero.mpr unbroken, List.length_append, Nat.add_zero]
  by_cases blank : rest = []
  · rw [if_pos blank, blank]
    rfl
  · rw [if_neg blank, split_alone unbroken blank]
    rfl

end

/-- Lines that hold words, each closed by a line feed but for a last one that may be left open. -/
def spelled (closed : List Holder) (left : Option Holder) : Text :=
  unlines (closed.map Holder.line) ++ left.elim [] Holder.line

theorem split_spelled {closed : List Holder} {left : Option Holder}
    (some : ∀ holder ∈ left, holder.line ≠ []) :
    split '\n' (spelled closed left) = (closed ++ left.toList).map Holder.line := by
  have apart : ∀ line ∈ closed.map Holder.line, '\n' ∉ line :=
    List.forall_mem_map.mpr fun holder _ => holder.feed_notMem_line
  have last : split '\n' (left.elim [] Holder.line) = left.toList.map Holder.line := by
    cases left with
    | none => rfl
    | some holder => exact split_alone holder.feed_notMem_line (some holder rfl)
  rw [spelled, unlines, split_closed apart, last, List.map_append]

theorem words?_spelled {closed : List Holder} {left : Option Holder}
    (some : ∀ holder ∈ left, holder.line ≠ []) :
    words? (encode (spelled closed left)) = .some ((closed ++ left.toList).map Holder.word) := by
  have read : Lines.word ∘ Holder.line = Holder.word := funext Holder.word_line
  rw [words?, Utf8.decode?_encode, Option.map_some, split_spelled some, List.map_map, read]

theorem exists_spelled (text : Text) :
    ∃ closed left, text = spelled closed left ∧ ∀ holder ∈ left, holder.line ≠ [] := by
  obtain ⟨lines, rest, rfl, apart, unbroken⟩ := exists_closed '\n' text
  obtain ⟨closed, rfl⟩ := exists_holders apart
  by_cases blank : rest = []
  · rw [blank]
    exact ⟨closed, none, rfl, fun _ member => (nomatch member)⟩
  · obtain ⟨holder, rfl⟩ := exists_holder unbroken
    refine ⟨closed, some holder, rfl, ?_⟩
    intro other same
    cases same
    exact blank

/-- Reading words undoes writing them, one a line. Words come back from their lines whatever number
of carriage returns stands behind each of them, and also if the last line is left open, unless
nothing stands on it. Conversely, an input that is text is such lines, and its words are those that
the lines hold: as many as there are line feeds, and one more if anything follows the last of these.
None of them has a line feed in it or a carriage return at its end, and all other characters are
kept. It is all the same whether the input is read at once or piece by piece. -/
theorem words_undo_lines :
    (∀ input, readWords? input = words? input) ∧
      (∀ (closed : List Holder) (left : Option Holder), (∀ holder ∈ left, holder.line ≠ []) →
        words? (encode (spelled closed left)) = some ((closed ++ left.toList).map Holder.word)) ∧
      ∀ input text, decode? input = some text →
        ∃ closed left words, text = spelled closed left ∧ (∀ holder ∈ left, holder.line ≠ []) ∧
          words = (closed ++ left.toList).map Holder.word ∧ words? input = some words ∧
          words.length =
            input.count 0x0A + (if input.rtakeWhile (· ≠ 0x0A) = [] then 0 else 1) ∧
          ∀ word ∈ words, '\n' ∉ word ∧ word.getLast? ≠ some '\r' := by
  refine ⟨readWords?_eq_words?, fun closed left some => words?_spelled some, ?_⟩
  intro input text read
  obtain rfl := Utf8.decode?_eq_some_iff.mp read
  obtain ⟨closed, left, rfl, some⟩ := exists_spelled text
  refine ⟨closed, left, _, rfl, some, rfl, words?_spelled some, ?_, ?_⟩
  · rw [← length_split, split_encode, split_spelled some, List.length_map, List.length_map,
      List.length_map]
  · exact List.forall_mem_map.mpr fun holder _ => ⟨holder.unbroken, holder.whole⟩

/-- A return inside a word, an empty line, an open line with a return and nothing else; and an input
of two lines, of which the last is open and not of ASCII. -/
theorem words_undo_lines_with_returns :
    let closed : List Holder :=
      [⟨['a', '\r', 'b'], 2, by decide, by decide⟩, ⟨[], 0, by decide, by decide⟩]
    let left : Option Holder := some ⟨[], 1, by decide, by decide⟩
    let input : List Octet := [0x0D, 0x0D, 0x0A, 0xC3, 0xA9]
    (∀ holder ∈ left, holder.line ≠ []) ∧
      words? (encode (spelled closed left)) = some [['a', '\r', 'b'], [], []] ∧
      decode? input = some ['\r', '\r', '\n', 'é'] ∧
      ∃ words, words? input = some words ∧ words.length = 2 := by
  intro closed left input
  obtain ⟨_, back, forth⟩ := words_undo_lines
  have written : ∀ holder ∈ left, holder.line ≠ [] := by
    intro holder same
    obtain rfl := Option.some.inj same
    exact List.cons_ne_nil _ _
  have text : decode? input = some ['\r', '\r', '\n', 'é'] := by decide
  obtain ⟨_, _, words, _, _, _, read, length, _⟩ := forth input _ text
  exact ⟨written, back closed left written, text, words, read, length⟩

end Acceptor.Text.Lines
