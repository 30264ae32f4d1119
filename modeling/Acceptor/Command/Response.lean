import Acceptor.Command.Invocation
import Acceptor.Compile
import Acceptor.Dialogue
import Acceptor.Table.Dump
import Acceptor.Verdict
/-!
What a program answers to an invocation, as a function of all that it can read: standard input, the
files, and whether it writes to a terminal.
-/
namespace Acceptor.Command

inductive ReadFailure where
  | missing
  | directory
  | other (reason : Text)
deriving DecidableEq, Repr

def ReadFailure.message : ReadFailure → Text
  | missing => "No such file or directory (os error 2)".toList
  | directory => "Is a directory (os error 21)".toList
  | other reason => reason

/-- What a program finds outside: what it can read, whether its two outputs are shown on a terminal,
and what the reader of the format says of octets that it cannot read, which may be anything.
Standard input can always be read to its end, though it need not be text. -/
structure World where
  stdin : List Text.Utf8.Octet
  files : Text → Except ReadFailure (List Text.Utf8.Octet)
  outputShown : Bool := false
  errorsShown : Bool := false
  diagnostic : List Text.Utf8.Octet → Text := fun _ => []

structure Response where
  status : Nat
  output : Text
  errors : Text
deriving DecidableEq, Repr

namespace Response

def success (output : Text) : Response := ⟨0, output, []⟩

def failure (palette : Palette) (output message : Text) : Response :=
  ⟨1, output, palette.red ++ "error".toList ++ palette.reset ++ ": ".toList ++ message ++ ['\n']⟩

end Response

def notText : Text := "stream did not contain valid UTF-8".toList

def Source.load (source : Source) (world : World) : Except Text (List Text.Utf8.Octet) :=
  match source.inline, source.path with
  | some text, _ => .ok (Text.Utf8.encode text)
  | none, none =>
    .error "description is required: use positional argument or -d/--description".toList
  | none, some path =>
    if path = standardInput then .ok world.stdin
    else (world.files path).mapError fun failure =>
      "failed to read '".toList ++ path ++ "': ".toList ++ failure.message

def Source.table (source : Source) (world : World) : Except Text Table := do
  let octets ← source.load world
  (encode octets).mapError (·.message (world.diagnostic octets))

def World.words (world : World) : Except Text (List Text) :=
  (Text.Lines.words? world.stdin).elim (.error ("failed to read stdin: ".toList ++ notText)) .ok

namespace Invocation

/-- The colours in which an invocation is answered. Colours that were left open are shown only if
all that is written goes to a terminal. -/
def palette (invocation : Invocation) (world : World) : Palette :=
  .choose (invocation.color.wanted (world.outputShown && world.errorsShown))

/-- Why an action cannot have its description from standard input: it reads its words there. -/
def conflict? (invocation : Invocation) : Option Text :=
  if invocation.source.inline.isSome || !invocation.source.namesStandardInput then none
  else match invocation.action with
    | .exec [] _ => some "description and words cannot both be from stdin".toList
    | .repl => some "repl reads words from stdin; pass the description as a file or -d".toList
    | _ => none

def verdictLine (world : World) (table : Table) (compact : Bool) (words : List Text) : Text :=
  let verdicts := Verdict.ofWords table words
  (if !compact && world.outputShown then Verdict.indented verdicts else Verdict.compact verdicts) ++
    ['\n']

def perform (world : World) (palette : Palette) (table : Table) : Action → Response
  | .check => .success []
  | .dump => .success (table.dump palette)
  | .exec words compact =>
    match if words.isEmpty then world.words else .ok words with
    | .ok words => .success (verdictLine world table compact words)
    | .error message => .failure palette [] message
  | .trace word verbosity =>
    ⟨if table.recognizes word then 0 else 1,
      Text.unlines (Trace.lines verbosity palette table word), []⟩
  | .repl =>
    let transcript := Dialogue.transcript palette table world.stdin
    if transcript.broken then .failure palette transcript.output notText
    else .success transcript.output

def prepare (invocation : Invocation) (world : World) : Except Text Table :=
  match invocation.conflict? with
  | some message => .error message
  | none => invocation.source.table world

def respond (invocation : Invocation) (world : World) : Response :=
  match invocation.prepare world with
  | .error message => .failure (invocation.palette world) [] message
  | .ok table => perform world (invocation.palette world) table invocation.action

end Invocation

end Acceptor.Command
