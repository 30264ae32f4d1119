import Acceptor.Palette
import Acceptor.Run
import Acceptor.Text.Quoted
/-!
Printed traces: the events of a run as lines with a label column. How much is told is a matter of
verbosity; each verbosity shows what the one below it shows, and more.
-/
namespace Acceptor

/-- How much a trace tells: start, unknown symbol and verdict; every transition as well; or the
positions, too. -/
inductive Verbosity where
  | brief
  | verbose
  | veryVerbose
deriving DecidableEq, Repr

namespace Trace

def labelWidth : Nat := 6

def line (palette : Palette) (color label content : Text) : Text :=
  [' ', ' '] ++ color ++ label.rightpad labelWidth ' ' ++ palette.reset ++ [' '] ++ content

def positionMark (verbosity : Verbosity) (palette : Palette) (position : Nat) : Text :=
  match verbosity with
  | .veryVerbose =>
    [' ', ' '] ++ palette.dim ++ ['@'] ++ Text.Decimal.ofNat position ++ palette.reset
  | _ => []

def arrow (palette : Palette) (source target : State) : Text :=
  source.text ++ [' '] ++ palette.dim ++ ['-', '>'] ++ palette.reset ++ [' '] ++ target.text

def stepLines (verbosity : Verbosity) (palette : Palette) (position : Nat) (symbol : Char)
    (source target : State) : List Text :=
  match verbosity with
  | .brief => []
  | _ =>
    [line palette palette.blue (Text.Quoted.quote symbol)
      (arrow palette source target ++ positionMark verbosity palette position)]

def eventLines (verbosity : Verbosity) (palette : Palette) : Event → List Text
  | .start state => [line palette palette.dim "start".toList state.text]
  | .step position symbol source target =>
    stepLines verbosity palette position symbol source target
  | .unknown position symbol state =>
    [line palette palette.blue (Text.Quoted.quote symbol)
      (palette.red ++ "no transition from".toList ++ palette.reset ++ [' '] ++ state.text ++
        positionMark verbosity palette position),
     line palette palette.red "reject".toList state.text]
  | .finish state accepted =>
    [line palette (palette.verdict accepted)
      (if accepted then "accept".toList else "reject".toList) state.text]

def lines (verbosity : Verbosity) (palette : Palette) (table : Table) (word : Text) : List Text :=
  (table.events word).flatMap (eventLines verbosity palette)

end Trace

end Acceptor
