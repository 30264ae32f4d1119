import Acceptor.Description.Violation
/-!
Checking descriptions. The rules are tried in a fixed order, and the first that is broken is
reported: the state count, the start state, the accept states, and then, group by group, the number
of outputs, their range, and that no symbol was declared before.
-/
namespace Acceptor.Description

/-- An automaton with its count and start declared. Only `check` promises that they fit. -/
structure Validated where
  stateCount : Nat
  start : State
  accepting : List State
  groups : List Group
deriving DecidableEq, Repr

def checkStateCount : Option Int → Except Violation Nat
  | none => .error .missingStateCount
  | some found =>
    if 1 ≤ found ∧ found ≤ maxStates then .ok found.toNat else .error (.invalidStateCount found)

def checkStart (states : Nat) : Option State → Except Violation State
  | none => .error (.invalidStartState none states)
  | some start =>
    if start.Within states then .ok start else .error (.invalidStartState (some start) states)

def checkWithin (states : Nat) (complaint : State → Violation) (listed : List State) :
    Except Violation Unit :=
  match listed.find? (¬ ·.Within states) with
  | some found => .error (complaint found)
  | none => .ok ()

/-- Symbols that are declared already, each with the number of its group. -/
abbrev Declared := List (Char × Nat)

/-- Declares symbols one after the other. A symbol that is there twice in one group repeats itself,
too. -/
def checkSymbols (number : Nat) : Declared → Text → Except Violation Declared
  | declared, [] => .ok declared
  | declared, symbol :: rest =>
    match declared.lookup symbol with
    | some first => .error (.nonDeterministicSymbol symbol first number)
    | none => checkSymbols number ((symbol, number) :: declared) rest

def checkGroup (states number : Nat) (declared : Declared) (group : Group) :
    Except Violation Declared := do
  if group.outputs.length ≠ states then
    .error (.incompleteTransition number group.outputs.length states)
  else
    checkWithin states (.invalidOutputState number · states) group.outputs
    checkSymbols number declared group.symbols

def checkGroups (states : Nat) : Nat → Declared → List Group → Except Violation Unit
  | _, _, [] => .ok ()
  | number, declared, group :: groups => do
    checkGroups states (number + 1) (← checkGroup states number declared group) groups

def check (description : Description) : Except Violation Validated := do
  let states ← checkStateCount description.stateCount
  let start ← checkStart states description.start
  checkWithin states (.invalidAcceptState · states) description.accepting
  checkGroups states 1 [] description.groups
  return ⟨states, start, description.accepting, description.groups⟩

structure WellFormed (description : Description) (states : Nat) (start : State) : Prop where
  countDeclared : description.stateCount = some (states : Int)
  countPositive : 1 ≤ states
  countBounded : states ≤ maxStates
  startDeclared : description.start = some start
  startWithin : start.Within states
  acceptingWithin : ∀ state ∈ description.accepting, state.Within states
  outputsComplete : ∀ group ∈ description.groups, group.outputs.length = states
  outputsWithin : ∀ group ∈ description.groups, ∀ state ∈ group.outputs, state.Within states
  symbolsDistinct : description.symbols.Nodup

theorem checkWithin_of_all {states : Nat} {complaint : State → Violation} {listed : List State}
    (within : ∀ state ∈ listed, state.Within states) :
    checkWithin states complaint listed = .ok () := by
  have none_outside : listed.find? (¬ ·.Within states) = none := by simpa using within
  simp only [checkWithin, none_outside]

theorem checkSymbols_of_declared {number first : Nat} {declared : Declared} {symbol : Char}
    {rest : Text} (found : declared.lookup symbol = some first) :
    checkSymbols number declared (symbol :: rest) =
      .error (.nonDeterministicSymbol symbol first number) := by
  simp [checkSymbols, found]

theorem checkSymbols_of_fresh {number : Nat} {declared : Declared} {symbol : Char} {rest : Text}
    (fresh : declared.lookup symbol = none) :
    checkSymbols number declared (symbol :: rest) =
      checkSymbols number ((symbol, number) :: declared) rest := by
  simp [checkSymbols, fresh]

end Acceptor.Description
