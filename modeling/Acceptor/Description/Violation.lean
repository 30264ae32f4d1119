import Acceptor.Description
import Acceptor.Text.Noun
import Acceptor.Text.Quoted
/-!
What can be wrong with a description, and how that is put into words. Groups are numbered from one,
as states are.
-/
namespace Acceptor.Description

inductive Violation where
  | missingStateCount
  | invalidStateCount (found : Int)
  | invalidStartState (found : Option State) (states : Nat)
  | invalidAcceptState (found : State) (states : Nat)
  | incompleteTransition (group found states : Nat)
  | invalidOutputState (group : Nat) (found : State) (states : Nat)
  /-- A symbol occurs again after its first group, or in the same one. -/
  | nonDeterministicSymbol (symbol : Char) (first group : Nat)
deriving DecidableEq, Repr

namespace Violation

def range (states : Nat) : Text := "[1-".toList ++ Text.Decimal.ofNat states ++ [']']

def eachState (states : Nat) : Text :=
  if states = 1 then "its single state".toList
  else "each of its ".toList ++ Text.Decimal.ofNat states ++ " states".toList

def message : Violation → Text
  | missingStateCount => "state count must be declared".toList
  | invalidStateCount found =>
    "state count must be within ".toList ++ range maxStates ++ ": ".toList ++
      Text.Decimal.ofInt found
  | invalidStartState found states =>
    "start state must be a valid state from ".toList ++ range states ++ ": ".toList ++
      found.elim "missing".toList State.text
  | invalidAcceptState found states =>
    "accept states must be valid states from ".toList ++ range states ++ ": ".toList ++ found.text
  | incompleteTransition group found states =>
    "transition group ".toList ++ Text.Decimal.ofNat group ++ " must map ".toList ++
      eachState states ++ " exactly once: got ".toList ++ Text.Decimal.ofNat found ++ [' '] ++
      Text.Noun.agreeing found "output".toList "outputs".toList
  | invalidOutputState group found states =>
    "output states of transition group ".toList ++ Text.Decimal.ofNat group ++
      " must be valid states from ".toList ++ range states ++ ": ".toList ++ found.text
  | nonDeterministicSymbol symbol first group =>
    "symbol ".toList ++ Text.Quoted.quote symbol ++ " (".toList ++ Text.Quoted.codePoint symbol ++
      ") must have exactly one transition function: declared in transition group ".toList ++
      Text.Decimal.ofNat first ++ ", redeclared in transition group ".toList ++
      Text.Decimal.ofNat group

example :
    (invalidStartState none 1).message =
      "start state must be a valid state from [1-1]: missing".toList := by decide

example :
    (incompleteTransition 1 1 2).message =
      "transition group 1 must map each of its 2 states exactly once: got 1 output".toList := by
  decide

end Violation

end Acceptor.Description
