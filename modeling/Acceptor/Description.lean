import Acceptor.State
/-!
Descriptions of automata, exactly as they are declared. Nothing is checked here: a description may
leave out its counts, repeat itself or name states that do not exist.
-/
namespace Acceptor

/-- Symbols that share their transitions: each moves the state at a place to the output there. -/
structure Group where
  symbols : Text := []
  outputs : List State := []
deriving DecidableEq, Repr

/-- A description. Accept states and groups stand in the order of their declaration. -/
structure Description where
  stateCount : Option Int := none
  start : Option State := none
  accepting : List State := []
  groups : List Group := []
deriving DecidableEq, Repr

namespace Description

def statesKey : Text := "states".toList

def initialKey : Text := "initial".toList

def finalStatesKey : Text := "finalstates".toList

def transitionsKey : Text := "transitions".toList

def inputKey : Text := "input".toList

def outputsKey : Text := "outputs".toList

def empty : Description := {}

def symbols (description : Description) : Text := description.groups.flatMap Group.symbols

end Description

end Acceptor
