import Acceptor.Command.Program
/-!
The program on a real system: it hands its arguments and what it can read to `Command.program`, and
writes the answer. A dialogue is carried on line by line, so that every prompt is seen before its
word is typed.
-/
namespace Acceptor.Main

open Command (Invocation World Response ReadFailure Source Stop)

def readFailure : IO.Error → ReadFailure
  | .noFileOrDirectory .. => .missing
  | .inappropriateType .. => .directory
  | failure => .other failure.toString.toList

def readFile (path : Text) : IO (Except ReadFailure (List Text.Utf8.Octet)) := do
  try
    return .ok (← IO.FS.readBinFile (String.ofList path)).toList
  catch failure =>
    return .error (readFailure failure)

/-- Whether an invocation reads standard input to its end before it answers. -/
def readsInput (invocation : Invocation) : Bool :=
  let forDescription := invocation.source.inline.isNone && invocation.source.namesStandardInput
  let forWords := invocation.action matches .exec [] _
  forDescription || forWords

/-- What is said of octets that are no description. There is one answer for all of them. -/
def diagnostic (_ : List Text.Utf8.Octet) : Text := "the text is not a description".toList

def world (invocation : Invocation) : IO World := do
  let file ← match invocation.source with
    | ⟨some path, none⟩ =>
      if path = Source.standardInput then pure (.error .missing) else readFile path
    | _ => pure (.error .missing)
  let stdin ← if invocation.conflict?.isNone && readsInput invocation then
      (·.toList) <$> (← IO.getStdin).readBinToEnd
    else pure []
  return {
    stdin, files := fun _ => file
    outputShown := ← (← IO.getStdout).isTty
    errorsShown := ← (← IO.getStderr).isTty
    diagnostic }

/-- Reads a line, octet by octet; none is left at the end of the input. -/
partial def readLine (input : IO.FS.Stream) (read : List Text.Utf8.Octet) :
    IO (Option (List Text.Utf8.Octet)) := do
  match (← input.read 1).toList with
  | [] => return if read.isEmpty then none else some read.reverse
  | octet :: _ =>
    if octet = 0x0A then return some read.reverse else readLine input (octet :: read)

/-- Carries a dialogue on, and says whether all its lines were text. -/
partial def converse (palette : Palette) (table : Table) (input output : IO.FS.Stream) :
    IO Bool := do
  output.putStr (String.ofList Dialogue.prompt)
  output.flush
  match ← readLine input [] with
  | none =>
    output.putStrLn ""
    return true
  | some line =>
    match Dialogue.turn? palette table line with
    | none => return false
    | some said =>
      output.putStr (String.ofList said)
      converse palette table input output

def answer (invocation : Invocation) : IO Response := do
  let world ← world invocation
  match invocation.action, invocation.prepare world with
  | .repl, .ok table =>
    let palette := invocation.palette world
    if ← converse palette table (← IO.getStdin) (← IO.getStdout) then return .success []
    else return .failure palette [] Command.notText
  | _, _ => return invocation.respond world

def usage : String :=
  "usage: automaton check|dump|exec|trace|repl [DESCRIPTION] [WORD]... " ++
    "[-d TEXT] [--color auto|always|never] [--compact] [-v]"

def run (arguments : List Text) : IO UInt32 := do
  match Invocation.parse arguments with
  | .error .helpWanted =>
    IO.println usage
    return 0
  | .error .misused =>
    IO.eprintln usage
    return 2
  | .ok invocation =>
    let response ← answer invocation
    IO.print (String.ofList response.output)
    IO.eprint (String.ofList response.errors)
    return response.status.toUInt32

end Acceptor.Main

def main (arguments : List String) : IO UInt32 :=
  Acceptor.Main.run (arguments.map String.toList)
