import Acceptor.Yaml.Token
/-!
Trees of a document. Anchored nodes carry a number, by which aliases refer to them; an alias stands
for the last node with its number, which may lie around the alias itself.
-/
namespace Acceptor.Yaml

inductive Node where
  | alias (target : Nat)
  | scalar (anchor : Option Nat) (tag : Option Text) (style : Style) (text : Text)
  | sequence (anchor : Option Nat) (items : List Node)
  | mapping (anchor : Option Nat) (entries : List (Node × Node))

namespace Node

def empty : Node := scalar none none .plain []

def numbered (anchor : Option Nat) (node : Node) : List (Nat × Node) :=
  (anchor.map (·, node)).toList

mutual

def anchored : Node → List (Nat × Node)
  | .alias _ => []
  | scalar anchor tag style text => numbered anchor (scalar anchor tag style text)
  | sequence anchor items => numbered anchor (sequence anchor items) ++ anchoredItems items
  | mapping anchor entries => numbered anchor (mapping anchor entries) ++ anchoredEntries entries

def anchoredItems : List Node → List (Nat × Node)
  | [] => []
  | item :: items => item.anchored ++ anchoredItems items

def anchoredEntries : List (Node × Node) → List (Nat × Node)
  | [] => []
  | entry :: entries => anchoredEntry entry ++ anchoredEntries entries

def anchoredEntry : Node × Node → List (Nat × Node)
  | (key, value) => key.anchored ++ value.anchored

end

mutual

/-- The size of a tree: a leaf counts once, a collection twice, for its beginning and its end. -/
def size : Node → Nat
  | .alias _ => 1
  | scalar .. => 1
  | sequence _ items => 2 + sizeItems items
  | mapping _ entries => 2 + sizeEntries entries

def sizeItems : List Node → Nat
  | [] => 0
  | item :: items => item.size + sizeItems items

def sizeEntries : List (Node × Node) → Nat
  | [] => 0
  | entry :: entries => sizeEntry entry + sizeEntries entries

def sizeEntry : Node × Node → Nat
  | (key, value) => key.size + value.size

end

end Node

end Acceptor.Yaml
