import Acceptor.Table
import Acceptor.Table.Ascending
import Acceptor.Text.Quoted
/-!
Builders, the guarded way to a table. A call is refused, and then changes nothing, if its state
count, a state or a row would not fit the table; a builder that took all its calls builds a table
in which every entry is the place of a state.
-/
namespace Acceptor.Table

/-- A table under construction: accept states and rows in the order of the calls. -/
structure Builder where
  stateCount : Nat
  start : Nat
  accepting : List Nat
  rows : List (Char × List Nat)
deriving DecidableEq, Repr

inductive Refusal where
  | countOutside (count : Nat)
  | stateOutside (state : State) (count : Nat)
  | symbolTaken (symbol : Char)
  | rowIncomplete (symbol : Char)
deriving DecidableEq, Repr

def Refusal.reminder : Text := " (descriptions must be validated before compilation)".toList

def Refusal.message : Refusal → Text
  | .countOutside count =>
    "TableBuilder: state count ".toList ++ Text.Decimal.ofNat count ++ " outside [1-".toList ++
      Text.Decimal.ofNat maxStates ++ "]".toList ++ reminder
  | .stateOutside state count =>
    "TableBuilder: state ".toList ++ state.text ++ " outside [1-".toList ++
      Text.Decimal.ofNat count ++ "]".toList ++ reminder
  | .symbolTaken symbol =>
    "TableBuilder: symbol ".toList ++ Text.Quoted.literal symbol ++
      " already has a transition row".toList
  | .rowIncomplete symbol =>
    "TableBuilder: row for ".toList ++ Text.Quoted.literal symbol ++
      " must have one entry per state".toList

namespace Builder

def new (count : Nat) (start : State) : Except Refusal Builder :=
  if ¬(1 ≤ count ∧ count ≤ maxStates) then .error (.countOutside count)
  else if ¬start.Within count then .error (.stateOutside start count)
  else .ok ⟨count, start.index, [], []⟩

def hasSymbol (builder : Builder) (symbol : Char) : Bool := (builder.rows.lookup symbol).isSome

/-- Marks a state as accepting. Repeats do no harm. -/
def acceptState (builder : Builder) (state : State) : Except Refusal Builder :=
  if state.Within builder.stateCount then
    .ok { builder with accepting := builder.accepting ++ [state.index] }
  else .error (.stateOutside state builder.stateCount)

/-- Gives a symbol its row: the successor of every state, in the order of the states. -/
def addTransition (builder : Builder) (symbol : Char) (successors : List State) :
    Except Refusal Builder :=
  if builder.hasSymbol symbol then .error (.symbolTaken symbol)
  else if successors.length ≠ builder.stateCount then .error (.rowIncomplete symbol)
  else match successors.find? (¬ ·.Within builder.stateCount) with
    | some state => .error (.stateOutside state builder.stateCount)
    | none => .ok { builder with rows := builder.rows ++ [(symbol, successors.map State.index)] }

def build (builder : Builder) : Table where
  stateCount := builder.stateCount
  start := builder.start
  accepting := Ascending.ofList builder.accepting
  rows := builder.rows

inductive Call where
  | acceptState (state : State)
  | addTransition (symbol : Char) (successors : List State)
deriving DecidableEq, Repr

def apply (builder : Builder) : Call → Except Refusal Builder
  | .acceptState state => builder.acceptState state
  | .addTransition symbol successors => builder.addTransition symbol successors

def replay (count : Nat) (start : State) (calls : List Call) : Except Refusal Builder := do
  calls.foldlM apply (← new count start)

theorem acceptState_of_within {builder : Builder} {state : State}
    (within : state.Within builder.stateCount) :
    builder.acceptState state =
      .ok { builder with accepting := builder.accepting ++ [state.index] } := if_pos within

theorem addTransition_of_fits {builder : Builder} {symbol : Char} {successors : List State}
    (fresh : builder.hasSymbol symbol = false) (complete : successors.length = builder.stateCount)
    (within : ∀ state ∈ successors, state.Within builder.stateCount) :
    builder.addTransition symbol successors =
      .ok { builder with rows := builder.rows ++ [(symbol, successors.map State.index)] } := by
  have none_outside : successors.find? (¬ ·.Within builder.stateCount) = none := by
    simpa using within
  simp only [addTransition, fresh, complete, none_outside]
  simp

theorem stateCount_apply {builder next : Builder} {call : Call}
    (taken : builder.apply call = .ok next) : next.stateCount = builder.stateCount := by
  cases call with
  | acceptState state =>
    simp only [apply, acceptState] at taken
    split at taken
    next => cases taken; rfl
    next => cases taken
  | addTransition symbol successors =>
    simp only [apply, addTransition] at taken
    split at taken
    next => cases taken
    next =>
      split at taken
      next => cases taken
      next =>
        split at taken
        next => cases taken
        next => cases taken; rfl

end Builder

end Acceptor.Table
