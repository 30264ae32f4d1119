import Acceptor.Description
import Acceptor.Yaml.Document
import Acceptor.Yaml.Integer
/-!
Descriptions as documents give them: a mapping of four keys, each of which may be left out or be
null; others are passed over. Transitions are a list of mappings of two keys. A key that is known
may occur once, and the order of keys means nothing.
-/
namespace Acceptor.Description

open Yaml (Node)

abbrev Targets := List (Nat × Node)

def resolve (targets : Targets) : Node → Node
  | .alias target => (targets.lookup target).getD (.alias target)
  | node => node

def isNullWord (text : Text) : Bool :=
  ["~".toList, "null".toList, "Null".toList, "NULL".toList].contains text

/-- Whether a node stands for an absent value. A node that is tagged as absent but says something
else is an error. -/
def isAbsent? : Node → Option Bool
  | .scalar _ none .plain text => some (text.isEmpty || isNullWord text)
  | .scalar _ (some tag) .plain text =>
    if tag = Yaml.Tag.absent then (if isNullWord text then some true else none) else some false
  | _ => some false

/-- Reads a field, which may be missing or null. The outer level is the failure to read it. -/
def optional? {α : Type} (targets : Targets) (read : Node → Option α) :
    Option Node → Option (Option α)
  | none => some none
  | some node =>
    match isAbsent? (resolve targets node) with
    | none => none
    | some true => some none
    | some false => (read (resolve targets node)).map some

/-- An integer: a plain scalar, whatever its tag, or a literal one that is tagged as an integer. -/
def integer? : Node → Option Int
  | .scalar _ _ .plain text => Yaml.Integer.read? text
  | .scalar _ tag .literal text =>
    if tag = some Yaml.Tag.integer then Yaml.Integer.read? text else none
  | _ => none

def text? : Node → Option Text
  | .scalar _ _ _ text => some text
  | _ => none

/-- The items of a list. Where nothing is written, the list is empty. -/
def items? : Node → Option (List Node)
  | .sequence _ items => some items
  | .scalar _ _ .plain [] => some []
  | _ => none

/-- The entries of a record. Where nothing is written, the record is empty. -/
def entries? : Node → Option (List (Node × Node))
  | .mapping _ entries => some entries
  | .scalar _ _ .plain [] => some []
  | _ => none

/-- The fields of a record by name. Names are scalars, and those that are known do not repeat. -/
def fields? (targets : Targets) (known : List Text) (node : Node) :
    Option (List (Text × Node)) := do
  let fields ← (← entries? node).mapM fun (key, value) => do
    return (← text? (resolve targets key), value)
  if known.all fun name => fields.countP (·.1 = name) ≤ 1 then some fields else none

def states? (targets : Targets) (node : Node) : Option (List State) := do
  (← items? node).mapM fun item => (integer? (resolve targets item)).map State.mk

def group? (targets : Targets) (node : Node) : Option Group := do
  let fields ← fields? targets [inputKey, outputsKey] node
  let symbols ← optional? targets text? (fields.lookup inputKey)
  let outputs ← optional? targets (states? targets) (fields.lookup outputsKey)
  return { symbols := symbols.getD [], outputs := outputs.getD [] }

def groups? (targets : Targets) (node : Node) : Option (List Group) := do
  (← items? node).mapM fun item => group? targets (resolve targets item)

def ofNode? (targets : Targets) (node : Node) : Option Description := do
  let fields ← fields? targets [statesKey, initialKey, finalStatesKey, transitionsKey] node
  let stateCount ← optional? targets integer? (fields.lookup statesKey)
  let start ← optional? targets integer? (fields.lookup initialKey)
  let accepting ← optional? targets (states? targets) (fields.lookup finalStatesKey)
  let groups ← optional? targets (groups? targets) (fields.lookup transitionsKey)
  return {
    stateCount, start := start.map State.mk
    accepting := accepting.getD [], groups := groups.getD [] }

end Acceptor.Description
