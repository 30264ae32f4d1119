import Acceptor.Description.Aliases
import Acceptor.Description.Check
import Acceptor.Table.Builder
/-!
From descriptions to tables. Every symbol of a group gets a row of its own, which holds the outputs
of the group. A checked description fits the table it is built into, so that building it is never
refused.
-/
namespace Acceptor

open Description (Validated Violation)
open Table (Refusal Builder)

def callsFor (accepting : List State) (groups : List Group) : List Builder.Call :=
  accepting.map .acceptState ++
    groups.flatMap fun group => group.symbols.map (.addTransition · group.outputs)

def compile (automaton : Validated) : Except Refusal Table :=
  (Builder.replay automaton.stateCount automaton.start
    (callsFor automaton.accepting automaton.groups)).map Builder.build

inductive EncodeError where
  /-- The stream is not text in the format, or the text does not have the form of a description. -/
  | malformed
  | invalid (violation : Violation)
  | refused (refusal : Refusal)
deriving DecidableEq, Repr

/-- The wording of an error, behind the names of the steps that led to it. What is wrong with a
stream that is no description is said by the reader of the format, whose diagnostic is handed in. -/
def EncodeError.message (error : EncodeError) (diagnostic : Text := []) : Text :=
  match error with
  | malformed => "unmarshal automaton: unmarshal automaton yaml: ".toList ++ diagnostic
  | invalid violation => "encode automaton: validate automaton: ".toList ++ violation.message
  | refused refusal => refusal.message

def Description.encode (description : Description) : Except EncodeError Table := do
  let automaton ← description.check.mapError .invalid
  (compile automaton).mapError .refused

def encode (octets : List Text.Utf8.Octet) : Except EncodeError Table :=
  match Description.parse? octets with
  | none => .error .malformed
  | some description => description.encode

end Acceptor
