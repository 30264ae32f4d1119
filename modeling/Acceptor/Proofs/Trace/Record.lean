import Acceptor.Proofs.Table.Bounds
import Acceptor.Proofs.Table.Listing
/-!
Traces read back. At the highest verbosity and without colours, a trace is a record of its run: each
line tells which event it is of, and all that the event says. The label shows the kind of the event;
a quoted symbol cannot be taken for one of the words that are labels, and it ends where its quote
does, even if it is longer than its column. Behind it there are three numbers for a transition and
two for an unknown symbol. That a run closes with a single event keeps the verdict behind an unknown
symbol apart from the verdict on a whole word.
-/
namespace Acceptor

def Event.outcome? : Event → Option Outcome
  | start _ => none
  | step .. => none
  | unknown position symbol state => some (.unknownSymbol position symbol state)
  | finish state accepted => some (.ofVerdict accepted state)

theorem Table.Closes.outcome? {table : Table} {position : Nat} {state : State} {rest : Text}
    {closing : Event} {outcome : Outcome}
    (closes : table.Closes position state rest closing outcome) :
    closing.outcome? = some outcome := by
  cases closes with
  | finish => rfl
  | unknown absent => rfl

/-- A run closes once, with an event that tells its outcome. -/
theorem Table.Sound.exists_closing {table : Table} (sound : table.Sound) (word : Text) :
    ∃ before closing, table.events word = before ++ [closing] ∧
      (∀ event ∈ before, event.outcome? = none) ∧
      closing.outcome? = some (table.run word) := by
  obtain ⟨known, _, state, closing, _, _, _, _, closes, tells⟩ := sound.exists_told word
  obtain ⟨ran, told⟩ := run_and_events_of_told tells
  refine ⟨.start (state 0) :: steps state 0 known, closing, told, ?_, ?_⟩
  · refine List.forall_mem_cons.mpr ⟨rfl, ?_⟩
    refine List.forall_mem_map.mpr ?_
    exact fun _ _ => rfl
  · rw [ran]
    exact closes.outcome?

theorem Table.Sound.run_eq {first second : Table} (one : first.Sound) (two : second.Sound)
    {word other : Text} (same : first.events word = second.events other) :
    first.run word = second.run other := by
  obtain ⟨_, _, told, _, closed⟩ := one.exists_closing word
  obtain ⟨_, _, toldOther, _, closedOther⟩ := two.exists_closing other
  have last := congrArg List.getLast? same
  rw [told, toldOther, List.getLast?_concat, List.getLast?_concat, Option.some.injEq] at last
  rw [last, closedOther] at closed
  exact (Option.some.inj closed).symm

namespace Trace

open Text (numbers)
open Palette (plain)

def stateOf (number : Nat) : State := .ofIndex (number - 1)

/-- The event of a line that is labelled with a symbol, by the numbers behind the label. -/
def ofNumbers? (symbol : Char) : List Nat → Option Event
  | [source, target, position] => some (.step position symbol (stateOf source) (stateOf target))
  | [state, position] => some (.unknown position symbol (stateOf state))
  | _ => none

/-- The event of a line that is labelled with a word, by the first letter of the word. A verdict is
taken for the end of the word. -/
def ofLetter? : Char → State → Option Event
  | 's', state => some (.start state)
  | 'a', state => some (.finish state true)
  | 'r', state => some (.finish state false)
  | _, _ => none

def readLine? (line : Text) : Option Event :=
  match line.drop 2 with
  | [] => none
  | first :: rest =>
    if first = '\'' then
      (Text.Quoted.unquote? (first :: rest)).bind fun (symbol, content) =>
        ofNumbers? symbol (numbers content)
    else (numbers rest).head?.bind fun number => ofLetter? first (stateOf number)

def readTrace? : List Text → Option (List Event)
  | [] => none
  | line :: later =>
    match readLine? line with
    | none => none
    | some event =>
      match event.outcome? with
      | some _ => some [event]
      | none => (readTrace? later).map (event :: ·)

theorem numbers_state {state : State} (positive : 1 ≤ state.number) :
    ∃ number, numbers state.text = [number] ∧ stateOf number = state := by
  refine ⟨state.index + 1, ?_, ?_⟩
  · rw [← Table.numbers_text, State.ofIndex_index positive]
  · rw [stateOf, Nat.add_sub_cancel, State.ofIndex_index positive]

/-- A label is padded to the width of its column, and no further if it is wider. -/
theorem drop_line (label content : Text) :
    (line plain [] label content).drop 2 =
      label ++ (List.replicate (labelWidth - label.length) ' ' ++ ' ' :: content) := by
  simp [line, plain, List.rightpad]

theorem numbers_behind {gap : Text} (blank : Text.Digitless gap) (count : Nat) (content : Text) :
    numbers (gap ++ (List.replicate count ' ' ++ ' ' :: content)) = numbers content := by
  rw [Text.numbers_gap blank, Text.numbers_gap (Text.digitless_replicate count),
    Text.numbers_cons rfl]

theorem readLine?_word {first : Char} {more : Text} (unquoted : first ≠ '\'')
    (blank : Text.Digitless more) {state : State} (positive : 1 ≤ state.number) :
    readLine? (line plain [] (first :: more) state.text) = ofLetter? first state := by
  obtain ⟨number, read, same⟩ := numbers_state positive
  rw [readLine?, drop_line]
  dsimp only [List.cons_append]
  rw [if_neg unquoted, numbers_behind blank, read, ← same]
  rfl

theorem readLine?_symbol (symbol : Char) (content : Text) :
    readLine? (line plain [] (Text.Quoted.quote symbol) content) =
      ofNumbers? symbol (numbers content) := by
  have padded := numbers_behind (by decide : Text.Digitless [])
    (labelWidth - (Text.Quoted.quote symbol).length) content
  rw [readLine?, drop_line]
  change (Text.Quoted.unquote? (Text.Quoted.quote symbol ++ _)).bind _ = _
  rw [Text.Quoted.unquote?_quote, ← padded]
  rfl

theorem readLine?_verdict {state : State} (positive : 1 ≤ state.number) (accepted : Bool) :
    readLine? (verdictLine plain accepted state) = some (.finish state accepted) := by
  have behindFirst : Text.Digitless "ccept".toList ∧ Text.Digitless "eject".toList := by decide
  cases accepted with
  | true => exact readLine?_word (by decide) behindFirst.1 positive
  | false => exact readLine?_word (by decide) behindFirst.2 positive

theorem numbers_positionMark (content : Text) (position : Nat) :
    numbers (content ++ positionMark .veryVerbose plain position) =
      numbers content ++ [position] := by
  have mark : positionMark .veryVerbose plain position =
      ' ' :: ([' ', '@'] ++ Text.Decimal.ofNat position) :=
    congrArg (' ' :: ' ' :: '@' :: ·) (List.append_nil _)
  have blank : Text.Digitless [' ', '@'] := by decide
  rw [mark, Text.numbers_append_cons rfl, Text.numbers_gap blank, Text.numbers_ofNat]

theorem numbers_arrow (source target : State) :
    numbers (arrow plain source target) = numbers source.text ++ numbers target.text := by
  have blank : Text.Digitless ['-', '>', ' '] := by decide
  have content : arrow plain source target =
      source.text ++ ' ' :: (['-', '>', ' '] ++ target.text) := by
    simp [arrow, plain]
  rw [content, Text.numbers_append_cons rfl, Text.numbers_gap blank]

/-- Whatever an event that names states of a table is, the first of its lines tells it. -/
theorem exists_firstLine {event : Event} (positive : ∀ state ∈ event.states, 1 ≤ state.number) :
    ∃ first later, eventLines .veryVerbose plain event = first :: later ∧
      readLine? first = some event ∧ (event.outcome? = none → later = []) := by
  cases event with
  | start state =>
    have here := positive state (List.mem_singleton_self _)
    have behindFirst : Text.Digitless "tart".toList := by decide
    exact ⟨_, [], rfl, readLine?_word (by decide) behindFirst here, fun _ => rfl⟩
  | step position symbol source target =>
    obtain ⟨left, readSource, sameSource⟩ :=
      numbers_state (positive source (List.mem_cons_self ..))
    obtain ⟨entered, readTarget, sameTarget⟩ :=
      numbers_state (positive target (List.mem_cons_of_mem _ (List.mem_singleton_self _)))
    refine ⟨_, [], rfl, ?_, fun _ => rfl⟩
    change readLine? (line plain [] (Text.Quoted.quote symbol) _) = _
    rw [readLine?_symbol, numbers_positionMark, numbers_arrow, readSource, readTarget, ← sameSource,
      ← sameTarget]
    rfl
  | unknown position symbol state =>
    obtain ⟨number, read, same⟩ := numbers_state (positive state (List.mem_singleton_self _))
    have blank : Text.Digitless "no transition from ".toList := by decide
    refine ⟨_, _, rfl, ?_, fun none => nomatch none⟩
    change readLine? (line plain [] (Text.Quoted.quote symbol)
      ("no transition from ".toList ++ state.text ++ _)) = _
    rw [readLine?_symbol, numbers_positionMark, Text.numbers_gap blank, read, ← same]
    rfl
  | finish state accepted =>
    have here := positive state (List.mem_singleton_self _)
    exact ⟨_, [], rfl, readLine?_verdict here accepted, fun _ => rfl⟩

theorem readTrace?_told {before : List Event} {closing : Event} {outcome : Outcome}
    (opened : ∀ event ∈ before, event.outcome? = none)
    (closed : closing.outcome? = some outcome)
    (positive : ∀ event ∈ before ++ [closing], ∀ state ∈ event.states, 1 ≤ state.number) :
    readTrace? ((before ++ [closing]).flatMap (eventLines .veryVerbose plain)) =
      some (before ++ [closing]) := by
  induction before with
  | nil =>
    obtain ⟨first, later, lines, read, _⟩ :=
      exists_firstLine (positive closing (List.mem_singleton_self _))
    rw [List.nil_append, List.flatMap_singleton, lines]
    simp only [readTrace?, read, closed]
  | cons event before ih =>
    obtain ⟨here, behind⟩ := List.forall_mem_cons.mp opened
    obtain ⟨named, others⟩ := List.forall_mem_cons.mp positive
    obtain ⟨first, later, lines, read, alone⟩ := exists_firstLine named
    rw [List.cons_append, List.flatMap_cons, lines, alone here, List.singleton_append]
    simp only [readTrace?, read, here, ih behind others, Option.map_some]

/-- A trace is read back as the events that it is of. -/
theorem readTrace?_lines {table : Table} (sound : table.Sound) (word : Text) :
    readTrace? (lines .veryVerbose plain table word) = some (table.events word) := by
  obtain ⟨before, closing, told, opened, closed⟩ := sound.exists_closing word
  have positive : ∀ event ∈ table.events word, ∀ state ∈ event.states, 1 ≤ state.number :=
    fun _ listed => sound.one_le_of_told listed
  rw [told] at positive
  rw [lines, told, readTrace?_told opened closed positive]

/-- A trace at the highest verbosity and without colours loses nothing. The events of a run are read
back from the lines that are collected, whatever table and word the run is of. So runs with the same
lines tell every observer the same events and have the same outcome. -/
theorem trace_loses_nothing {first second : Table} (one : first.Built) (two : second.Built)
    (word other : Text) :
    let lines (table : Table) (word : Text) :=
      (table.runWith (collect .veryVerbose plain) [] word).2
    readTrace? (lines first word) = some (first.events word) ∧
      (lines first word = lines second other →
        first.events word = second.events other ∧ first.run word = second.run other ∧
          ∀ (σ : Type) (observe : σ → Event → σ) (seen : σ),
            first.runWith observe seen word = second.runWith observe seen other) := by
  intro lines
  have read := readTrace?_lines one.sound word
  have readOther := readTrace?_lines two.sound other
  simp only [lines, runWith_collect one.sound, runWith_collect two.sound]
  refine ⟨read, ?_⟩
  intro alike
  rw [alike, readOther, Option.some.injEq] at read
  have ran := one.sound.run_eq two.sound read.symm
  refine ⟨read.symm, ran, ?_⟩
  intro σ observe seen
  rw [one.sound.runWith_eq, two.sound.runWith_eq, ran, read]

/-- Two tables and two words with one trace: a symbol without a row stops both runs, and its label
is wider than its column. Without that symbol, the verdict is the same line again, but of another
event. -/
theorem trace_loses_nothing_at_unknown :
    let first : Table := ⟨2, 0, [0], [('a', [1, 0])]⟩
    let second : Table := ⟨2, 0, [0], [('b', [1, 1]), ('a', [1, 0])]⟩
    let lines (table : Table) (word : Text) :=
      (table.runWith (collect .veryVerbose plain) [] word).2
    first.Built ∧ second.Built ∧
      lines first ['a', '\u0301', 'x'] = lines second ['a', '\u0301'] ∧
      first.run ['a', '\u0301', 'x'] = second.run ['a', '\u0301'] ∧
      lines first ['a', '\u0301', 'x'] ≠ lines second ['a'] := by
  intro first second lines
  have one : first.Built := Table.built_iff_sound.mpr (by constructor <;> decide)
  have two : second.Built := Table.built_iff_sound.mpr (by constructor <;> decide)
  have alike : lines first ['a', '\u0301', 'x'] = lines second ['a', '\u0301'] := by
    decide +kernel
  refine ⟨one, two, alike, ((trace_loses_nothing one two _ _).2 alike).2.1, ?_⟩
  intro same
  have told := ((trace_loses_nothing one two _ _).2 same).1
  exact absurd told (by decide)

end Trace

end Acceptor
