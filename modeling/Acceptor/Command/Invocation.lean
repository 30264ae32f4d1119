import Acceptor.Trace
/-!
Invocations: what a command line asks for, once its arguments are understood.
-/
namespace Acceptor.Command

inductive ColorChoice where
  | auto
  | always
  | never
deriving DecidableEq, Repr

namespace ColorChoice

def settled? : ColorChoice → Option Bool
  | auto => none
  | always => some true
  | never => some false

def wanted (choice : ColorChoice) (terminal : Bool) : Bool := choice.settled?.getD terminal

end ColorChoice

/-- Where a description comes from. A description on the command line wins over a path, and the path
that is a dash means standard input. -/
structure Source where
  path : Option Text
  inline : Option Text
deriving DecidableEq, Repr

namespace Source

def standardInput : Text := ['-']

def namesStandardInput (source : Source) : Bool := source.path == some standardInput

end Source

inductive Action where
  | check
  | dump
  | exec (words : List Text) (compact : Bool)
  | trace (word : Text) (verbosity : Verbosity)
  | repl
deriving DecidableEq, Repr

structure Invocation where
  action : Action
  source : Source
  color : ColorChoice
deriving DecidableEq, Repr

end Acceptor.Command
