import Acceptor.Proofs.Text.Clear
import Acceptor.Proofs.Text.Lines
import Acceptor.Proofs.Trace
import Acceptor.Table.Dump
import Mathlib.Data.List.Forall2
/-!
Colours add nothing but themselves. What a coloured listing or trace shows is a plain line painted
in colours, and the plain line has no character in it that could begin a sequence of its own: when
the sequences are deleted, the plain text is left.
-/
namespace Acceptor

namespace Palette

def sequences (palette : Palette) : List Text :=
  [palette.blue, palette.green, palette.red, palette.dim, palette.reset]

/-- A text less the given sequences, where so many characters of one are still to be passed over. -/
def passing (sequences : List Text) : Nat → Text → Text
  | _, [] => []
  | left + 1, _ :: rest => passing sequences left rest
  | 0, c :: rest =>
    match sequences.find? (·.isPrefixOf (c :: rest)) with
    | some sequence => passing sequences (sequence.length - 1) rest
    | none => c :: passing sequences 0 rest

/-- A text less the sequences of the coloured palette, and of no other. -/
def erased (text : Text) : Text := passing colored.sequences 0 text

/-- A text less everything that could switch colours: an escape character opens a sequence, which
ends with the next letter m. -/
def uncolored : Text → Text
  | [] => []
  | c :: rest => if c = '\x1b' then inside rest else c :: uncolored rest
where
  inside : Text → Text
  | [] => []
  | c :: rest => if c = 'm' then uncolored rest else inside rest

/-- A line painted in colours, and the line itself, which shows no control character. -/
inductive Painted : Text → Text → Prop
  | nil : Painted [] []
  | char {c : Char} {painted line : Text} (clear : ' ' ≤ c) (later : Painted painted line) :
      Painted (c :: painted) (c :: line)
  | color {sequence painted line : Text} (listed : sequence ∈ colored.sequences)
      (later : Painted painted line) : Painted (sequence ++ painted) line

theorem erased_color {sequence : Text} (listed : sequence ∈ colored.sequences) (rest : Text) :
    erased (sequence ++ rest) = erased rest := by
  simp only [sequences, List.mem_cons, List.not_mem_nil, or_false] at listed
  rcases listed with rfl | rfl | rfl | rfl | rfl
  all_goals rfl

theorem uncolored_color {sequence : Text} (listed : sequence ∈ colored.sequences) (rest : Text) :
    uncolored (sequence ++ rest) = uncolored rest := by
  simp only [sequences, List.mem_cons, List.not_mem_nil, or_false] at listed
  rcases listed with rfl | rfl | rfl | rfl | rfl
  all_goals rfl

theorem erased_char {c : Char} (differ : c ≠ '\x1b') (rest : Text) :
    erased (c :: rest) = c :: erased rest := by
  have absent : colored.sequences.find? (·.isPrefixOf (c :: rest)) = none := by
    simp [sequences, colored, rendition, List.isPrefixOf, Ne.symm differ]
  rw [erased, passing, absent]
  rfl

theorem uncolored_char {c : Char} (differ : c ≠ '\x1b') (rest : Text) :
    uncolored (c :: rest) = c :: uncolored rest := by
  rw [uncolored, if_neg differ]

namespace Painted

variable {painted line : Text}

theorem append {painted' line' : Text} (first : Painted painted line)
    (second : Painted painted' line') : Painted (painted ++ painted') (line ++ line') := by
  induction first with
  | nil => exact second
  | char clear _ ih => exact .char clear ih
  | color listed _ ih =>
    rw [List.append_assoc]
    exact .color listed ih

theorem of_clear {line : Text} (clear : Text.Clear line) : Painted line line := by
  induction line with
  | nil => exact .nil
  | cons c line ih =>
    obtain ⟨first, later⟩ := Text.Clear.cons_iff.mp clear
    exact .char first (ih later)

theorem switch {sequence : Text} (listed : sequence ∈ colored.sequences) :
    Painted sequence [] := by
  have alone := Painted.color listed .nil
  rwa [List.append_nil] at alone

theorem clear (shown : Painted painted line) : Text.Clear line := by
  induction shown with
  | nil => exact .nil
  | char clear _ ih => exact Text.Clear.cons_iff.mpr ⟨clear, ih⟩
  | color _ _ ih => exact ih

/-- What is deleted from a painted line is the paint. -/
theorem erased_append (shown : Painted painted line) (rest : Text) :
    erased (painted ++ rest) = line ++ erased rest ∧
      uncolored (painted ++ rest) = line ++ uncolored rest := by
  induction shown with
  | nil => exact ⟨rfl, rfl⟩
  | @char c painted line clear _ ih =>
    have differ : c ≠ '\x1b' := by
      rintro rfl
      exact absurd clear (by decide)
    rw [List.cons_append, erased_char differ, uncolored_char differ, ih.1, ih.2]
    exact ⟨rfl, rfl⟩
  | color listed _ ih =>
    rw [List.append_assoc, erased_color listed, uncolored_color listed]
    exact ih

theorem erased_eq (shown : Painted painted line) :
    erased painted = line ∧ uncolored painted = line := by
  have alone := shown.erased_append []
  simpa only [List.append_nil, erased, passing, uncolored] using alone

end Painted

abbrev PaintedLines : List Text → List Text → Prop := List.Forall₂ Painted

namespace PaintedLines

variable {painted lines : List Text}

theorem map_erased (shown : PaintedLines painted lines) :
    painted.map erased = lines ∧ painted.map uncolored = lines := by
  induction shown with
  | nil => exact ⟨rfl, rfl⟩
  | cons first _ ih =>
    rw [List.map_cons, List.map_cons, first.erased_eq.1, first.erased_eq.2, ih.1, ih.2]
    exact ⟨rfl, rfl⟩

theorem erased_unlines (shown : PaintedLines painted lines) :
    erased (Text.unlines painted) = Text.unlines lines ∧
      uncolored (Text.unlines painted) = Text.unlines lines := by
  induction shown with
  | nil => exact ⟨rfl, rfl⟩
  | @cons head line painted lines first _ ih =>
    have feed : '\n' ≠ '\x1b' := by decide
    have written := first.erased_append ('\n' :: Text.unlines painted)
    rw [erased_char feed, uncolored_char feed, ih.1, ih.2] at written
    rw [Text.unlines_cons, Text.unlines_cons, List.append_assoc, List.append_assoc]
    exact written

theorem clear (shown : PaintedLines painted lines) : ∀ line ∈ lines, Text.Clear line := by
  induction shown with
  | nil => exact fun _ member => nomatch member
  | cons first _ ih => exact List.forall_mem_cons.mpr ⟨first.clear, ih⟩

theorem map {α : Type} {items : List α} {shown plain : α → Text}
    (each : ∀ item ∈ items, Painted (shown item) (plain item)) :
    PaintedLines (items.map shown) (items.map plain) := by
  rw [PaintedLines, List.forall₂_map_left_iff, List.forall₂_map_right_iff]
  exact List.forall₂_same.mpr each

theorem flatMap {α : Type} {shown plain : α → List Text} (items : List α)
    (each : ∀ item, PaintedLines (shown item) (plain item)) :
    PaintedLines (items.flatMap shown) (items.flatMap plain) := by
  induction items with
  | nil => exact .nil
  | cons item rest ih => exact List.rel_append (each item) ih

end PaintedLines

end Palette

open Palette (Painted PaintedLines colored plain)

namespace Table

/-! Listings -/

theorem painted_nothingListed : Painted (nothingListed colored) (nothingListed plain) :=
  ((Painted.switch (by decide)).append (.of_clear (by decide))).append (.switch (by decide))

theorem painted_heading {title : Text} (clear : Text.Clear title) :
    Painted (heading colored title) (heading plain title) :=
  ((((Painted.switch (by decide)).append (.of_clear (by decide))).append
    (.of_clear clear)).append (.of_clear (by decide))).append (.switch (by decide))

theorem painted_acceptList (table : Table) :
    Painted (acceptList colored table) (acceptList plain table) := by
  unfold acceptList
  split
  next => exact painted_nothingListed
  next =>
    have listed : Text.Clear (Text.joined [',', ' '] (table.acceptStates.map State.text)) := by
      refine .joined (by decide) ?_
      rw [List.forall_mem_map]
      exact fun state _ => state.clear_text
    exact ((Painted.switch (by decide)).append (.of_clear listed)).append (.switch (by decide))

theorem painted_summaryLines (table : Table) :
    PaintedLines (summaryLines colored table) (summaryLines plain table) := by
  have count : Text.Clear ("states = ".toList ++ Text.Decimal.ofNat table.stateCount) :=
    .append (by decide) (Text.clear_ofNat _)
  have start : Text.Clear ("start  = ".toList ++ table.startState.text) :=
    .append (by decide) (State.clear_text _)
  have accept : Text.Clear "accept = ".toList := by decide
  exact .cons (painted_heading (by decide)) (.cons (.of_clear count) (.cons (.of_clear start)
    (.cons ((Painted.of_clear accept).append (painted_acceptList table)) .nil)))

theorem clear_cells (width : Nat) (states : List State) :
    Text.Clear (states.flatMap (cell width)) :=
  .flatMap fun state _ => .append (by decide) (state.clear_text.leftpad width)

theorem painted_columnLine (labelWidth : Nat) (table : Table) :
    Painted (columnLine colored labelWidth table) (columnLine plain labelWidth table) :=
  (((Painted.of_clear (.replicate labelWidth)).append (.switch (by decide))).append
    (.of_clear (clear_cells _ _))).append (.switch (by decide))

/-- The label is padded before it is painted, so that its column is as wide in colours as it is
without them. -/
theorem painted_rowLine (labelWidth : Nat) (table : Table) (symbol : Char) :
    Painted (rowLine colored labelWidth table symbol) (rowLine plain labelWidth table symbol) := by
  have label : Text.Clear ((Text.Quoted.quote symbol).rightpad labelWidth ' ') :=
    (Text.Quoted.clear_quote symbol).rightpad labelWidth
  exact (((Painted.switch (by decide)).append (.of_clear label)).append
    (.switch (by decide))).append (.of_clear (clear_cells _ _))

theorem painted_transitionLines (table : Table) :
    PaintedLines (transitionLines colored table) (transitionLines plain table) := by
  refine .cons (painted_heading (by decide)) ?_
  split
  next => exact .cons painted_nothingListed .nil
  next =>
    exact .cons (painted_columnLine _ table)
      (PaintedLines.map fun symbol _ => painted_rowLine _ table symbol)

theorem painted_listing (table : Table) :
    PaintedLines (summaryLines colored table ++ [] :: transitionLines colored table)
      (summaryLines plain table ++ [] :: transitionLines plain table) :=
  List.rel_append (painted_summaryLines table) (.cons .nil (painted_transitionLines table))

theorem painted_dump (table : Table) :
    ∃ painted lines, table.dump colored = Text.unlines painted ∧
      table.dump plain = Text.unlines lines ∧ PaintedLines painted lines :=
  ⟨_, _, rfl, rfl, painted_listing table⟩

end Table

namespace Trace

/-! Traces -/

theorem painted_line {color label content painted : Text} (switch : color ∈ colored.sequences)
    (clear : Text.Clear label) (shown : Painted painted content) :
    Painted (line colored color label painted) (line plain [] label content) := by
  have padded : Text.Clear (label.rightpad labelWidth ' ') := clear.rightpad labelWidth
  exact ((((((Painted.of_clear (by decide)).append (.switch switch)).append
    (.of_clear padded)).append (.switch (by decide))).append (.of_clear (by decide))).append shown)

theorem painted_positionMark (verbosity : Verbosity) (position : Nat) :
    Painted (positionMark verbosity colored position) (positionMark verbosity plain position) := by
  cases verbosity with
  | brief => exact .nil
  | verbose => exact .nil
  | veryVerbose =>
    exact ((((Painted.of_clear (by decide)).append (.switch (by decide))).append
      (.of_clear (by decide))).append (.of_clear (Text.clear_ofNat position))).append
      (.switch (by decide))

theorem painted_arrow (source target : State) :
    Painted (arrow colored source target) (arrow plain source target) :=
  (((((Painted.of_clear (source.clear_text.append (by decide))).append
    (.switch (by decide))).append (.of_clear (by decide))).append (.switch (by decide))).append
    (.of_clear (by decide))).append (.of_clear target.clear_text)

theorem painted_eventLines (verbosity : Verbosity) (event : Event) :
    PaintedLines (eventLines verbosity colored event) (eventLines verbosity plain event) := by
  cases event with
  | start state =>
    exact .cons (painted_line (by decide) (by decide) (.of_clear state.clear_text)) .nil
  | step position symbol source target =>
    have shown := painted_line (by decide : colored.blue ∈ colored.sequences)
      (Text.Quoted.clear_quote symbol)
      ((painted_arrow source target).append (painted_positionMark verbosity position))
    cases verbosity with
    | brief => exact .nil
    | verbose => exact .cons shown .nil
    | veryVerbose => exact .cons shown .nil
  | unknown position symbol state =>
    have reason : Painted
        (colored.red ++ "no transition from".toList ++ colored.reset ++ [' '] ++ state.text)
        (plain.red ++ "no transition from".toList ++ plain.reset ++ [' '] ++ state.text) :=
      ((((Painted.switch (by decide)).append (.of_clear (by decide))).append
        (.switch (by decide))).append (.of_clear (by decide))).append (.of_clear state.clear_text)
    exact .cons
      (painted_line (by decide) (Text.Quoted.clear_quote symbol)
        (reason.append (painted_positionMark verbosity position)))
      (.cons (painted_line (by decide) (by decide) (.of_clear state.clear_text)) .nil)
  | finish state accepted =>
    cases accepted with
    | false => exact .cons (painted_line (by decide) (by decide) (.of_clear state.clear_text)) .nil
    | true => exact .cons (painted_line (by decide) (by decide) (.of_clear state.clear_text)) .nil

theorem painted_lines (verbosity : Verbosity) (table : Table) (word : Text) :
    PaintedLines (lines verbosity colored table word) (lines verbosity plain table word) :=
  .flatMap _ (painted_eventLines verbosity)

end Trace

/-- Listings and traces in colours are the plain ones with the sequences of the palette put in, and
so the plain ones come back when these are deleted; a reader that passes over every sequence finds
them, too. A trace is of the same run, in whatever palette it is collected. No symbol of the table
or the word brings an escape character into what is shown. -/
theorem Palette.plain_comes_back {table : Table} (built : table.Built) (word : Text)
    (verbosity : Verbosity) :
    (erased (table.dump colored) = table.dump plain ∧
        uncolored (table.dump colored) = table.dump plain ∧ '\x1b' ∉ table.dump plain) ∧
      (∀ palette, table.runWith (Trace.collect verbosity palette) [] word =
        (table.run word, Trace.lines verbosity palette table word)) ∧
      (Trace.lines verbosity colored table word).map erased =
        Trace.lines verbosity plain table word ∧
      (Trace.lines verbosity colored table word).map uncolored =
        Trace.lines verbosity plain table word ∧
      ∀ line ∈ Trace.lines verbosity plain table word, '\x1b' ∉ line := by
  refine ⟨?_, fun palette => Trace.runWith_collect built.sound verbosity palette word, ?_⟩
  · obtain ⟨painted, lines, inColors, inPlain, shown⟩ := table.painted_dump
    obtain ⟨erasing, uncoloring⟩ := shown.erased_unlines
    rw [inColors, inPlain]
    refine ⟨erasing, uncoloring, ?_⟩
    intro member
    obtain ⟨line, listed, found⟩ := List.mem_flatMap.mp member
    rcases List.mem_append.mp found with here | feed
    · exact (shown.clear line listed).notMem (by decide) here
    · exact absurd (List.mem_singleton.mp feed) (by decide)
  · have shown := Trace.painted_lines verbosity table word
    obtain ⟨erasing, uncoloring⟩ := shown.map_erased
    refine ⟨erasing, uncoloring, ?_⟩
    intro line listed
    exact (shown.clear line listed).notMem (by decide)

/-- A table over the very characters of a sequence, and a word that spells one. -/
theorem Palette.plain_comes_back_from_spelled_sequence :
    let table : Table := ⟨1, 0, [0], [('\x1b', [0]), ('[', [0]), ('2', [0]), ('m', [0])]⟩
    let requests : List Table.Request :=
      [.new 1 ⟨1⟩, .call (.acceptState ⟨1⟩), .call (.addTransition '\x1b' [⟨1⟩]),
        .call (.addTransition '[' [⟨1⟩]), .call (.addTransition '2' [⟨1⟩]),
        .call (.addTransition 'm' [⟨1⟩]), .build]
    (Table.Session.answers {} requests)[6]? = some (.ok (.table table)) ∧
      erased (table.dump colored) = table.dump plain ∧
      (table.runWith (Trace.collect .veryVerbose colored) [] colored.dim).2.map erased =
        (table.runWith (Trace.collect .veryVerbose plain) [] colored.dim).2 := by
  intro table requests
  have handed : (Table.Session.answers {} requests)[6]? = some (.ok (.table table)) := rfl
  obtain ⟨⟨listing, _⟩, collected, lines, _⟩ :=
    Palette.plain_comes_back ⟨requests, List.mem_of_getElem? handed⟩ colored.dim .veryVerbose
  refine ⟨handed, listing, ?_⟩
  rw [collected colored, collected plain]
  exact lines

end Acceptor
