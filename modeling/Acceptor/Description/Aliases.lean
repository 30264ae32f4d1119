import Acceptor.Description.Reading
/-!
How many aliases are followed when a description is read. A short document can hold lists that are
long only by repeated aliases, so their number is limited by the size of the document.
-/
namespace Acceptor.Description

open Yaml (Node Document)

def aliasStep : Node → Nat
  | .alias _ => 1
  | _ => 0

def total (steps : List Nat) : Nat := steps.foldr (· + ·) 0

def listSteps (targets : Targets) (itemSteps : Node → Nat) (node : Node) : Nat :=
  aliasStep node +
    total (((items? (resolve targets node)).getD []).map fun item =>
      aliasStep item + itemSteps item)

def recordSteps (targets : Targets) (fieldSteps : List (Text × (Node → Nat))) (node : Node) :
    Nat :=
  total (((entries? (resolve targets node)).getD []).map fun (key, value) =>
    aliasStep key +
      ((text? (resolve targets key)).bind (List.lookup · fieldSteps)).elim 0 (· value))

def statesSteps (targets : Targets) : Node → Nat := listSteps targets fun _ => 0

def groupSteps (targets : Targets) : Node → Nat :=
  recordSteps targets [(inputKey, aliasStep), (outputsKey, statesSteps targets)]

def steps (targets : Targets) : Node → Nat :=
  recordSteps targets
    [(statesKey, aliasStep), (initialKey, aliasStep), (finalStatesKey, statesSteps targets),
      (transitionsKey, listSteps targets (groupSteps targets))]

def ofDocument? (document : Document) : Option Description :=
  match document.root with
  | none => some empty
  | some root =>
    if steps document.targets root ≤ 100 * document.size then ofNode? document.targets root
    else none

def parse? (octets : List Text.Utf8.Octet) : Option Description := do
  ofDocument? (← Document.parse? (← Yaml.stream? octets))

example : parse? (Text.Utf8.encode "states: ! ~".toList) = none := by decide +kernel

end Acceptor.Description
