import Acceptor.Palette
import Acceptor.Run
import Acceptor.Text.Lines
/-!
The dialogue that asks for words one a line and answers each at once. It ends with its input, or at
the first line that is not text.
-/
namespace Acceptor.Dialogue

def prompt : Text := "Enter a word to be recognized by the automaton: ".toList

def reply (palette : Palette) (table : Table) (word : Text) : Text :=
  let accepted := table.recognizes word
  "Automaton recognizes '".toList ++ word ++ "': ".toList ++ palette.verdict accepted ++
    (if accepted then "true".toList else "false".toList) ++ palette.reset ++ ['\n']

def turn? (palette : Palette) (table : Table) (line : List Text.Utf8.Octet) : Option Text :=
  (Text.Utf8.decode? line).map fun text => reply palette table (Text.Lines.word text)

/-- What was written, and whether the input turned out not to be text. -/
structure Transcript where
  output : Text
  broken : Bool
deriving DecidableEq, Repr

def overLines (palette : Palette) (table : Table) : List (List Text.Utf8.Octet) → Transcript
  | [] => ⟨prompt ++ ['\n'], false⟩
  | line :: lines =>
    match turn? palette table line with
    | none => ⟨prompt, true⟩
    | some said =>
      let later := overLines palette table lines
      { later with output := prompt ++ said ++ later.output }

def transcript (palette : Palette) (table : Table) (input : List Text.Utf8.Octet) : Transcript :=
  overLines palette table (Text.Lines.split 0x0A input)

end Acceptor.Dialogue
