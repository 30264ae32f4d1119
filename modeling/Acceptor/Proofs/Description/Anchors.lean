import Acceptor.Proofs.Description.Direct
/-!
Anchors without aliases. What a tree says as long as no alias is followed does not depend on which
of its nodes have anchors, nor on how these are numbered.
-/
namespace Acceptor

namespace Yaml.Node

mutual

def unanchored : Node → Node
  | .alias target => .alias target
  | scalar _ tag style text => scalar none tag style text
  | sequence _ items => sequence none (unanchoredItems items)
  | mapping _ entries => mapping none (unanchoredEntries entries)

def unanchoredItems : List Node → List Node
  | [] => []
  | item :: items => item.unanchored :: unanchoredItems items

def unanchoredEntries : List (Node × Node) → List (Node × Node)
  | [] => []
  | entry :: entries => unanchoredEntry entry :: unanchoredEntries entries

def unanchoredEntry : Node × Node → Node × Node
  | (key, value) => (key.unanchored, value.unanchored)

end

theorem unanchoredItems_eq (items : List Node) : unanchoredItems items = items.map unanchored := by
  induction items with
  | nil => rfl
  | cons item rest ih => rw [unanchoredItems, ih, List.map_cons]

theorem unanchoredEntries_eq (entries : List (Node × Node)) :
    unanchoredEntries entries =
      entries.map fun entry => (entry.1.unanchored, entry.2.unanchored) := by
  induction entries with
  | nil => rfl
  | cons entry rest ih => rw [unanchoredEntries, ih, List.map_cons, unanchoredEntry]

end Yaml.Node

namespace Description

open Yaml (Node)

variable {α : Type}

/-! Leaves -/

theorem aliasStep_unanchored (node : Node) : aliasStep node.unanchored = aliasStep node := by
  cases node with
  | «alias» target => rfl
  | scalar anchor tag style text => rfl
  | sequence anchor items => rfl
  | mapping anchor entries => rfl

theorem text?_unanchored (node : Node) : text? node.unanchored = text? node := by
  cases node with
  | «alias» target => rfl
  | scalar anchor tag style text => rfl
  | sequence anchor items => rfl
  | mapping anchor entries => rfl

theorem integer?_unanchored (node : Node) : integer? node.unanchored = integer? node := by
  cases node with
  | «alias» target => rfl
  | scalar anchor tag style text => cases style <;> rfl
  | sequence anchor items => rfl
  | mapping anchor entries => rfl

theorem isAbsent?_unanchored (node : Node) : isAbsent? node.unanchored = isAbsent? node := by
  cases node with
  | «alias» target => rfl
  | scalar anchor tag style text =>
    cases tag with
    | none => cases style <;> rfl
    | some tag => cases style <;> rfl
  | sequence anchor items => rfl
  | mapping anchor entries => rfl

theorem items?_unanchored (node : Node) :
    items? node.unanchored = (items? node).map (·.map Node.unanchored) := by
  cases node with
  | «alias» target => rfl
  | scalar anchor tag style text => cases style <;> cases text <;> rfl
  | sequence anchor items => exact congrArg some (Node.unanchoredItems_eq items)
  | mapping anchor entries => rfl

theorem entries?_unanchored (node : Node) :
    entries? node.unanchored =
      (entries? node).map (·.map fun entry => (entry.1.unanchored, entry.2.unanchored)) := by
  cases node with
  | «alias» target => rfl
  | scalar anchor tag style text => cases style <;> cases text <;> rfl
  | sequence anchor items => rfl
  | mapping anchor entries => exact congrArg some (Node.unanchoredEntries_eq entries)

/-! Lists and records -/

theorem items_unanchored {read : Node → Option α}
    (same : ∀ item : Node, read item.unanchored = read item) (node : Node) :
    ((items? node.unanchored).bind fun items => items.mapM read) =
      (items? node).bind fun items => items.mapM read := by
  rw [items?_unanchored, Option.bind_map]
  congr 1
  funext items
  rw [Function.comp_apply, List.mapM_map]
  exact Fallible.mapM_congr fun item _ => same item

theorem listSteps_unanchored {itemSteps : Node → Nat}
    (same : ∀ item : Node, itemSteps item.unanchored = itemSteps item) (node : Node) :
    listSteps [] itemSteps node.unanchored = listSteps [] itemSteps node := by
  rw [listSteps, listSteps, resolve_nil, resolve_nil, aliasStep_unanchored, items?_unanchored]
  cases items? node with
  | none => rfl
  | some items =>
    rw [Option.map_some, Option.getD_some, Option.getD_some, List.map_map]
    congr 3
    funext item
    rw [Function.comp_apply, aliasStep_unanchored, same]

theorem named?_unanchored (entries : List (Node × Node)) :
    named? [] (entries.map fun entry => (entry.1.unanchored, entry.2.unanchored)) =
      (named? [] entries).map (·.map fun field => (field.1, field.2.unanchored)) := by
  induction entries with
  | nil => rfl
  | cons entry rest ih =>
    obtain ⟨key, value⟩ := entry
    rw [List.map_cons, named?_cons, named?_cons, ih, resolve_nil, resolve_nil, text?_unanchored]
    cases text? key with
    | none => rfl
    | some name =>
      cases named? [] rest with
      | none => rfl
      | some fields => rfl

theorem value?_unanchored {read : Node → Option α}
    (same : ∀ value : Node, read value.unanchored = read value) (name : Text)
    (fields : List (Text × Node)) :
    value? [] read name (fields.map fun field => (field.1, field.2.unanchored)) =
      value? [] read name fields := by
  induction fields with
  | nil => rfl
  | cons field rest ih =>
    obtain ⟨key, value⟩ := field
    rw [List.map_cons]
    by_cases here : key = name
    · subst here
      have equal : times key (rest.map fun field => (field.1, field.2.unanchored)) =
          times key rest := List.countP_map
      rw [value?_cons_same, value?_cons_same, equal, optional?, optional?, resolve_nil,
        resolve_nil, isAbsent?_unanchored, same]
    · rw [value?_cons_other here, value?_cons_other here, ih]

theorem recordSteps_unanchored {fieldSteps : List (Text × (Node → Nat))}
    (same : ∀ field ∈ fieldSteps, ∀ value : Node, field.2 value.unanchored = field.2 value)
    (node : Node) : recordSteps [] fieldSteps node.unanchored = recordSteps [] fieldSteps node := by
  rw [recordSteps_eq, recordSteps_eq, resolve_nil, resolve_nil, entries?_unanchored]
  cases entries? node with
  | none => rfl
  | some entries =>
    rw [Option.map_some, Option.getD_some, Option.getD_some, List.map_map]
    congr 2
    funext entry
    rw [Function.comp_apply, entrySteps, entrySteps, resolve_nil, resolve_nil, text?_unanchored,
      aliasStep_unanchored]
    congr 1
    cases text? entry.1 with
    | none => rfl
    | some name =>
      rw [Option.bind_some]
      cases known : fieldSteps.lookup name with
      | none => rfl
      | some step =>
        obtain ⟨before, after, rfl, _⟩ := List.lookup_eq_some_iff.mp known
        exact same (name, step) (by simp) entry.2

/-! Groups and descriptions -/

theorem states?_unanchored (node : Node) : states? [] node.unanchored = states? [] node := by
  apply items_unanchored
  intro item
  rw [resolve_nil, resolve_nil, integer?_unanchored]

theorem group?_unanchored (node : Node) : group? [] node.unanchored = group? [] node := by
  rw [group?_eq, group?_eq, entries?_unanchored]
  cases entries? node with
  | none => rfl
  | some entries =>
    rw [Option.map_some, Option.bind_some, Option.bind_some, named?_unanchored, Option.bind_map]
    congr 1
    funext fields
    rw [Function.comp_apply, value?_unanchored text?_unanchored,
      value?_unanchored states?_unanchored]

theorem groups?_unanchored (node : Node) : groups? [] node.unanchored = groups? [] node := by
  apply items_unanchored
  intro item
  rw [resolve_nil, resolve_nil, group?_unanchored]

theorem ofNode?_unanchored (node : Node) : ofNode? [] node.unanchored = ofNode? [] node := by
  rw [ofNode?_eq, ofNode?_eq, entries?_unanchored]
  cases entries? node with
  | none => rfl
  | some entries =>
    rw [Option.map_some, Option.bind_some, Option.bind_some, named?_unanchored, Option.bind_map]
    congr 1
    funext fields
    rw [Function.comp_apply, value?_unanchored integer?_unanchored,
      value?_unanchored integer?_unanchored, value?_unanchored states?_unanchored,
      value?_unanchored groups?_unanchored]

theorem steps_unanchored (node : Node) : steps [] node.unanchored = steps [] node := by
  have states : ∀ value : Node, statesSteps [] value.unanchored = statesSteps [] value :=
    listSteps_unanchored fun _ => rfl
  have group : ∀ value : Node, groupSteps [] value.unanchored = groupSteps [] value := by
    apply recordSteps_unanchored
    intro field member
    simp only [List.mem_cons, List.not_mem_nil, or_false] at member
    rcases member with rfl | rfl
    · exact aliasStep_unanchored
    · exact states
  apply recordSteps_unanchored
  intro field member
  simp only [List.mem_cons, List.not_mem_nil, or_false] at member
  rcases member with rfl | rfl | rfl | rfl
  · exact aliasStep_unanchored
  · exact aliasStep_unanchored
  · exact states
  · exact listSteps_unanchored group

end Description

end Acceptor
