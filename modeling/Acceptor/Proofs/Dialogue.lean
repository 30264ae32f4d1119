import Acceptor.Command.Response
import Acceptor.Proofs.Text.Lines
/-!
The two readers of words. One takes all of standard input in before it answers, the other answers
line by line; they find the same words and give them the same verdicts, and where the input is not
text both fail, the second not before the line that shows it.
-/
namespace Acceptor.Dialogue

open Text.Lines (pieces unfed split word words? readWords?)
open Text.Utf8 (Octet decode?)

def exchange (palette : Palette) (verdict : Verdict) : Text :=
  prompt ++ ("Automaton recognizes '".toList ++ verdict.word ++ "': ".toList ++
    palette.verdict verdict.accepted ++
    (if verdict.accepted then "true".toList else "false".toList) ++ palette.reset ++ ['\n'])

def exchanges (palette : Palette) (table : Table) (words : List Text) : Text :=
  (Verdict.ofWords table words).flatMap (exchange palette)

def trimmed (line : Text) : Text :=
  (line.reverse.dropWhile fun c => c == '\n' || c == '\r').reverse

/-- The dialogue as it is carried on, piece by piece of the input, with all that was written so
far. -/
def loop (palette : Palette) (table : Table) : Text → List (List Octet) → Transcript
  | written, [] => ⟨written ++ prompt ++ ['\n'], false⟩
  | written, piece :: more =>
    match decode? piece with
    | none => ⟨written ++ prompt, true⟩
    | some line => loop palette table (written ++ prompt ++ reply palette table (trimmed line)) more

theorem exchanges_cons (palette : Palette) (table : Table) (first : Text) (later : List Text) :
    exchanges palette table (first :: later) =
      prompt ++ reply palette table first ++ exchanges palette table later := rfl

theorem trimmed_snoc_feed (line : Text) : trimmed (line ++ ['\n']) = trimmed line := by
  simp [trimmed]

theorem trimmed_of_notMem {line : Text} (apart : '\n' ∉ line) : trimmed line = word line := by
  have same : ∀ text : Text, '\n' ∉ text →
      (text.dropWhile fun c => c == '\n' || c == '\r') = text.dropWhile (· == '\r') := by
    intro text apart
    induction text with
    | nil => rfl
    | cons c rest ih =>
      have differ : c ≠ '\n' := fun feed => apart (by simp [feed])
      have later := ih fun member => apart (List.mem_cons_of_mem _ member)
      simp [List.dropWhile_cons, differ, later]
  rw [trimmed, same _ fun member => apart (List.mem_reverse.mp member)]
  rfl

/-- A piece of the input is text exactly where its line is, and holds the same word. -/
theorem decode?_piece {input piece : List Octet} (member : piece ∈ pieces 0x0A input) :
    (decode? piece).map trimmed = (decode? (unfed 0x0A piece)).map word := by
  have apart := Text.Lines.notMem_unfed 0x0A piece
  have read : (decode? piece).map trimmed = (decode? (unfed 0x0A piece)).map trimmed := by
    rcases Text.Lines.piece_cases member with ended | «open»
    · rw [congrArg decode? ended, Text.Lines.decode?_snoc_feed apart, Option.map_map]
      exact congrArg (Option.map · _) (funext trimmed_snoc_feed)
    · rw [← «open»]
  rw [read]
  cases found : decode? (unfed 0x0A piece) with
  | none => rfl
  | some line =>
    obtain spelled := Text.Utf8.decode?_eq_some_iff.mp found
    have unbroken : '\n' ∉ line := by
      intro feed
      apply apart
      rw [spelled]
      exact List.mem_flatMap.mpr ⟨'\n', feed, by decide⟩
    rw [Option.map_some, Option.map_some, trimmed_of_notMem unbroken]

theorem loop_eq_overLines (palette : Palette) (table : Table) (written : Text) {input : List Octet}
    {more : List (List Octet)} (listed : ∀ piece ∈ more, piece ∈ pieces 0x0A input) :
    loop palette table written more =
      ⟨written ++ (overLines palette table (more.map (unfed 0x0A))).output,
        (overLines palette table (more.map (unfed 0x0A))).broken⟩ := by
  induction more generalizing written with
  | nil => rw [loop, List.map_nil, overLines, List.append_assoc]
  | cons piece more ih =>
    obtain ⟨here, later⟩ := List.forall_mem_cons.mp listed
    have words := decode?_piece here
    rw [loop, List.map_cons, overLines, turn?]
    cases read : decode? piece with
    | none =>
      rw [read, Option.map_none] at words
      rw [Option.map_eq_none_iff.mp words.symm]
      rfl
    | some line =>
      rw [read, Option.map_some] at words
      obtain ⟨text, found, same⟩ := Option.map_eq_some_iff.mp words.symm
      simp only [found, Option.map_some, ih _ later, same, List.append_assoc]

theorem loop_eq_transcript (palette : Palette) (table : Table) (input : List Octet) :
    loop palette table [] (pieces 0x0A input) = transcript palette table input := by
  rw [loop_eq_overLines palette table [] fun piece member => member, Text.Lines.map_unfed_pieces]
  rfl

/-- Lines that are text are answered one after the other, and then the dialogue goes on. -/
theorem overLines_append (palette : Palette) (table : Table) (known : List Text)
    (later : List (List Octet)) :
    overLines palette table (known.map Text.Utf8.encode ++ later) =
      ⟨exchanges palette table (known.map word) ++ (overLines palette table later).output,
        (overLines palette table later).broken⟩ := by
  induction known with
  | nil => rfl
  | cons text known ih =>
    rw [List.map_cons, List.cons_append, overLines, turn?, Text.Utf8.decode?_encode,
      Option.map_some, List.map_cons, exchanges_cons, ih]
    simp only [List.append_assoc]

theorem transcript_of_text (palette : Palette) (table : Table) (text : Text) :
    transcript palette table (Text.Utf8.encode text) =
      ⟨exchanges palette table ((split '\n' text).map word) ++ prompt ++ ['\n'], false⟩ := by
  have answered := overLines_append palette table (split '\n' text) []
  rw [List.append_nil] at answered
  rw [transcript, Text.Lines.split_encode, answered, overLines, List.append_assoc]

theorem transcript_of_broken (palette : Palette) (table : Table) {input line : List Octet}
    {known : List Text} {later : List (List Octet)}
    (lines : split 0x0A input = known.map Text.Utf8.encode ++ line :: later)
    (broken : decode? line = none) :
    transcript palette table input =
      ⟨exchanges palette table (known.map word) ++ prompt, true⟩ := by
  rw [transcript, lines, overLines_append, overLines, turn?, broken]
  rfl

open Command (World Response notText)

theorem exec_of_words (palette : Palette) (table : Table) {world : World} {words : List Text}
    (read : words? world.stdin = some words) (compact : Bool) :
    Command.Invocation.perform world palette table (.exec [] compact) =
      .success (Command.Invocation.verdictLine world table compact words) := by
  have given : world.words = .ok words := by rw [World.words, read]; rfl
  simp only [Command.Invocation.perform, List.isEmpty_nil, if_true, given]

theorem exec_of_no_words (palette : Palette) (table : Table) {world : World}
    (unread : words? world.stdin = none) (compact : Bool) :
    Command.Invocation.perform world palette table (.exec [] compact) =
      .failure palette [] ("failed to read stdin: ".toList ++ notText) := by
  have refused : world.words = .error ("failed to read stdin: ".toList ++ notText) := by
    rw [World.words, unread]
    rfl
  simp only [Command.Invocation.perform, List.isEmpty_nil, if_true, refused]

/-- The words of standard input and the dialogue over it agree, whether they are read at once or
piece by piece. An input that is text gives its words, and the dialogue asks for each and writes the
verdict that the list of verdicts has, before it asks in vain and ends its line. An input that is
not text gives no verdict at all, and the dialogue goes on to the first line that is not text. -/
theorem words_and_dialogue_agree (palette : Palette) (table : Table) (world : World)
    (compact : Bool) :
    readWords? world.stdin = words? world.stdin ∧
      loop palette table [] (pieces 0x0A world.stdin) = transcript palette table world.stdin ∧
      ((∃ text words, world.stdin = Text.Utf8.encode text ∧ words? world.stdin = some words ∧
          Command.Invocation.perform world palette table (.exec [] compact) =
            .success (Command.Invocation.verdictLine world table compact words) ∧
          transcript palette table world.stdin =
            ⟨(Verdict.ofWords table words).flatMap (exchange palette) ++ prompt ++ ['\n'], false⟩) ∨
        ((∀ text, world.stdin ≠ Text.Utf8.encode text) ∧ words? world.stdin = none ∧
          Command.Invocation.perform world palette table (.exec [] compact) =
            .failure palette [] ("failed to read stdin: ".toList ++ notText) ∧
          ∃ (known : List Text) (line : List Octet) (later : List (List Octet)),
            split 0x0A world.stdin = known.map Text.Utf8.encode ++ line :: later ∧
            (∀ text, line ≠ Text.Utf8.encode text) ∧
            transcript palette table world.stdin =
              ⟨(Verdict.ofWords table (known.map word)).flatMap (exchange palette) ++ prompt,
                true⟩)) := by
  refine ⟨Text.Lines.readWords?_eq_words? _, loop_eq_transcript palette table _, ?_⟩
  cases read : decode? world.stdin with
  | some text =>
    have spelled := Text.Utf8.decode?_eq_some_iff.mp read
    have words : words? world.stdin = some ((split '\n' text).map word) := by
      rw [words?, read]
      rfl
    refine .inl ⟨text, (split '\n' text).map word, spelled, words,
      exec_of_words palette table words compact, ?_⟩
    rw [spelled]
    exact transcript_of_text palette table text
  | none =>
    have words : words? world.stdin = none := by
      rw [words?, read]
      rfl
    obtain ⟨known, line, later, lines, broken⟩ := Text.Lines.exists_broken_line read
    exact .inr ⟨Text.Utf8.decode?_eq_none_iff.mp read, words,
      exec_of_no_words palette table words compact, known, line, later, lines,
      Text.Utf8.decode?_eq_none_iff.mp broken, transcript_of_broken palette table lines broken⟩

end Acceptor.Dialogue
