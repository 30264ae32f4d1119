import Acceptor.Description.Aliases
import Acceptor.Proofs.Description.Fields
import Acceptor.Proofs.Fallible
import Mathlib.Data.List.Forall2
/-!
Documents that are read without following an alias. What aliases refer to does not matter for them,
and the limit on aliases does not either.
-/
namespace Acceptor

namespace Yaml.Node

inductive AliasFree : Node → Prop where
  | scalar (anchor : Option Nat) (tag : Option Text) (style : Style) (text : Text) :
    AliasFree (.scalar anchor tag style text)
  | sequence (anchor : Option Nat) {items : List Node} (free : ∀ item ∈ items, AliasFree item) :
    AliasFree (.sequence anchor items)
  | mapping (anchor : Option Nat) {entries : List (Node × Node)}
    (keys : ∀ entry ∈ entries, AliasFree entry.1) (values : ∀ entry ∈ entries, AliasFree entry.2) :
    AliasFree (.mapping anchor entries)

end Yaml.Node

namespace Description

open Yaml (Node)

variable {α : Type}

theorem resolve_of_aliasStep {node : Node} (direct : aliasStep node = 0) (targets : Targets) :
    resolve targets node = node := by
  cases node with
  | «alias» target => cases direct
  | scalar anchor tag style text => rfl
  | sequence anchor items => rfl
  | mapping anchor entries => rfl

theorem total_eq_zero_iff {steps : List Nat} : total steps = 0 ↔ ∀ step ∈ steps, step = 0 := by
  induction steps with
  | nil => simp [total]
  | cons first rest ih =>
    rw [List.forall_mem_cons, ← ih]
    exact Nat.add_eq_zero_iff

theorem total_map_eq_zero_iff {β : Type} {items : List β} {count : β → Nat} :
    total (items.map count) = 0 ↔ ∀ item ∈ items, count item = 0 := by
  rw [total_eq_zero_iff]
  exact List.forall_mem_map

/-! Lists -/

theorem listSteps_eq_zero_iff {targets : Targets} {itemSteps : Node → Nat} {node : Node} :
    listSteps targets itemSteps node = 0 ↔
      aliasStep node = 0 ∧
        ∀ item ∈ (items? node).getD [], aliasStep item = 0 ∧ itemSteps item = 0 := by
  rw [listSteps, Nat.add_eq_zero_iff, total_map_eq_zero_iff]
  constructor
  · rintro ⟨direct, items⟩
    rw [resolve_of_aliasStep direct] at items
    exact ⟨direct, fun item member => Nat.add_eq_zero_iff.mp (items item member)⟩
  · rintro ⟨direct, items⟩
    rw [resolve_of_aliasStep direct]
    exact ⟨direct, fun item member => Nat.add_eq_zero_iff.mpr (items item member)⟩

/-- A list is read alike with and without targets if its items are. -/
theorem items_direct {read read' : Node → Option α} {node : Node}
    (same : ∀ item ∈ (items? node).getD [], read item = read' item) :
    ((items? node).bind fun items => items.mapM read) =
      (items? node).bind fun items => items.mapM read' := by
  cases listed : items? node with
  | none => rfl
  | some items =>
    rw [listed] at same
    exact Fallible.mapM_congr same

theorem statesSteps_direct {node : Node} (direct : statesSteps [] node = 0) (targets : Targets) :
    statesSteps targets node = 0 ∧ states? targets node = states? [] node := by
  have steps := listSteps_eq_zero_iff.mp direct
  constructor
  · exact listSteps_eq_zero_iff.mpr steps
  · apply items_direct
    intro item member
    rw [resolve_of_aliasStep (steps.2 item member).1, resolve_nil]

/-! Records -/

def entrySteps (targets : Targets) (fieldSteps : List (Text × (Node → Nat)))
    (entry : Node × Node) : Nat :=
  aliasStep entry.1 +
    ((text? (resolve targets entry.1)).bind (List.lookup · fieldSteps)).elim 0 (· entry.2)

theorem recordSteps_eq (targets : Targets) (fieldSteps : List (Text × (Node → Nat)))
    (node : Node) :
    recordSteps targets fieldSteps node =
      total (((entries? (resolve targets node)).getD []).map (entrySteps targets fieldSteps)) :=
  rfl

theorem entrySteps_eq_zero_iff {targets : Targets} {fieldSteps : List (Text × (Node → Nat))}
    {entry : Node × Node} :
    entrySteps targets fieldSteps entry = 0 ↔
      aliasStep entry.1 = 0 ∧ ∀ name step, text? entry.1 = some name →
        fieldSteps.lookup name = some step → step entry.2 = 0 := by
  rw [entrySteps, Nat.add_eq_zero_iff]
  refine and_congr_right fun direct => ?_
  rw [resolve_of_aliasStep direct]
  constructor
  · intro none name step text found
    rw [text, Option.bind_some, found] at none
    exact none
  · intro steps
    cases text : text? entry.1 with
    | none => rfl
    | some name =>
      cases found : fieldSteps.lookup name with
      | none =>
        rw [Option.bind_some, found]
        rfl
      | some step =>
        rw [Option.bind_some, found]
        exact steps name step text found

theorem recordSteps_eq_zero_iff {targets : Targets} {fieldSteps : List (Text × (Node → Nat))}
    {node : Node} (direct : aliasStep node = 0) :
    recordSteps targets fieldSteps node = 0 ↔
      ∀ entry ∈ (entries? node).getD [], entrySteps targets fieldSteps entry = 0 := by
  rw [recordSteps_eq, resolve_of_aliasStep direct]
  exact total_map_eq_zero_iff

/-- Fields of the same names, where the second step is none wherever the first is. -/
def NoFurther (field field' : Text × (Node → Nat)) : Prop :=
  field.1 = field'.1 ∧ ∀ value, field.2 value = 0 → field'.2 value = 0

theorem exists_lookup_of_noFurther {fieldSteps fieldSteps' : List (Text × (Node → Nat))}
    (fields : List.Forall₂ NoFurther fieldSteps fieldSteps') {name : Text} {step' : Node → Nat}
    (found' : fieldSteps'.lookup name = some step') :
    ∃ step, fieldSteps.lookup name = some step ∧ ∀ value, step value = 0 → step' value = 0 := by
  induction fields with
  | nil => cases found'
  | @cons field field' rest rest' here _ ih =>
    obtain ⟨key, step⟩ := field
    obtain ⟨_, step''⟩ := field'
    obtain ⟨rfl, carried⟩ := here
    by_cases same : key = name
    · subst same
      rw [lookup_cons_same] at found' ⊢
      cases found'
      exact ⟨step, rfl, carried⟩
    · rw [lookup_cons_other same] at found' ⊢
      exact ih found'

theorem recordSteps_mono {targets targets' : Targets}
    {fieldSteps fieldSteps' : List (Text × (Node → Nat))} {node : Node}
    (direct : aliasStep node = 0) (none : recordSteps targets fieldSteps node = 0)
    (fields : List.Forall₂ NoFurther fieldSteps fieldSteps') :
    recordSteps targets' fieldSteps' node = 0 := by
  apply (recordSteps_eq_zero_iff direct).mpr
  intro entry member
  have here := (recordSteps_eq_zero_iff direct).mp none entry member
  obtain ⟨key, steps⟩ := entrySteps_eq_zero_iff.mp here
  apply entrySteps_eq_zero_iff.mpr
  refine ⟨key, ?_⟩
  intro name step' text found'
  obtain ⟨step, found, carried⟩ := exists_lookup_of_noFurther fields found'
  exact carried entry.2 (steps name step text found)

theorem named?_direct {entries : List (Node × Node)}
    (direct : ∀ entry ∈ entries, aliasStep entry.1 = 0) (targets : Targets) :
    named? targets entries = named? [] entries := by
  apply Fallible.mapM_congr
  rintro ⟨key, value⟩ member
  have key := resolve_of_aliasStep (direct (key, value) member) targets
  simp only [key, resolve_nil]

theorem exists_entry_of_lookup {entries : List (Node × Node)} {fields : List (Text × Node)}
    (read : named? [] entries = some fields) {name : Text} {value : Node}
    (found : fields.lookup name = some value) :
    ∃ entry ∈ entries, text? entry.1 = some name ∧ entry.2 = value := by
  induction entries generalizing fields with
  | nil =>
    cases read
    cases found
  | cons entry rest ih =>
    obtain ⟨key, first⟩ := entry
    rw [named?_cons, resolve_nil] at read
    obtain ⟨name', text, read⟩ := Option.bind_eq_some_iff.mp read
    obtain ⟨fields', readRest, rfl⟩ := Option.map_eq_some_iff.mp read
    by_cases here : name' = name
    · subst here
      rw [lookup_cons_same] at found
      cases found
      exact ⟨(key, value), List.mem_cons_self, text, rfl⟩
    · rw [lookup_cons_other here] at found
      obtain ⟨entry, member, rest⟩ := ih readRest found
      exact ⟨entry, List.mem_cons_of_mem _ member, rest⟩

theorem value?_direct {targets : Targets} {read read' : Node → Option α} {name : Text}
    {fields : List (Text × Node)}
    (direct : ∀ value, fields.lookup name = some value →
      aliasStep value = 0 ∧ read value = read' value) :
    value? targets read name fields = value? [] read' name fields := by
  unfold value?
  split
  · cases found : fields.lookup name with
    | none => rfl
    | some value =>
      obtain ⟨alone, same⟩ := direct value found
      rw [optional?, optional?, resolve_of_aliasStep alone, resolve_nil, same]
  · rfl

theorem value?_states_direct {name : Text} {fields : List (Text × Node)}
    (direct : ∀ value, fields.lookup name = some value → statesSteps [] value = 0)
    (targets : Targets) :
    value? targets (states? targets) name fields = value? [] (states? []) name fields := by
  apply value?_direct
  intro value found
  have alone := direct value found
  exact ⟨(listSteps_eq_zero_iff.mp alone).1, (statesSteps_direct alone targets).2⟩

theorem record_direct {fieldSteps : List (Text × (Node → Nat))} {node : Node}
    (direct : aliasStep node = 0) (none : recordSteps [] fieldSteps node = 0) (targets : Targets)
    {read read' : List (Text × Node) → Option α}
    (same : ∀ fields, (∀ name step value, fieldSteps.lookup name = some step →
      fields.lookup name = some value → step value = 0) → read fields = read' fields) :
    ((entries? node).bind (named? targets)).bind read =
      ((entries? node).bind (named? [])).bind read' := by
  have all := (recordSteps_eq_zero_iff direct).mp none
  cases listed : entries? node with
  | none => rfl
  | some entries =>
    rw [listed] at all
    have apart : ∀ entry ∈ entries, aliasStep entry.1 = 0 := fun entry member =>
      (entrySteps_eq_zero_iff.mp (all entry member)).1
    rw [Option.bind_some, Option.bind_some, named?_direct apart targets]
    cases given : named? [] entries with
    | none => rfl
    | some fields =>
      apply same
      intro name step value known found
      obtain ⟨entry, member, text, rfl⟩ := exists_entry_of_lookup given found
      exact (entrySteps_eq_zero_iff.mp (all entry member)).2 name step text known

/-! Groups and descriptions -/

theorem groupSteps_direct {node : Node} (direct : aliasStep node = 0)
    (none : groupSteps [] node = 0) (targets : Targets) :
    groupSteps targets node = 0 ∧ group? targets node = group? [] node := by
  constructor
  · have symbols : NoFurther (inputKey, aliasStep) (inputKey, aliasStep) := ⟨rfl, fun _ => id⟩
    have outputs : NoFurther (outputsKey, statesSteps []) (outputsKey, statesSteps targets) :=
      ⟨rfl, fun value alone => (statesSteps_direct alone targets).1⟩
    exact recordSteps_mono direct none (.cons symbols (.cons outputs .nil))
  · rw [group?_eq, group?_eq]
    apply record_direct direct none
    intro fields steps
    have symbols : value? targets text? inputKey fields = value? [] text? inputKey fields :=
      value?_direct fun value found => ⟨steps inputKey aliasStep value rfl found, rfl⟩
    have outputs : value? targets (states? targets) outputsKey fields =
        value? [] (states? []) outputsKey fields :=
      value?_states_direct (fun value => steps outputsKey (statesSteps []) value rfl) targets
    rw [symbols, outputs]

theorem groupsSteps_direct {node : Node} (none : listSteps [] (groupSteps []) node = 0)
    (targets : Targets) :
    listSteps targets (groupSteps targets) node = 0 ∧ groups? targets node = groups? [] node := by
  obtain ⟨direct, items⟩ := listSteps_eq_zero_iff.mp none
  constructor
  · apply listSteps_eq_zero_iff.mpr
    refine ⟨direct, fun item member => ?_⟩
    obtain ⟨apart, steps⟩ := items item member
    exact ⟨apart, (groupSteps_direct apart steps targets).1⟩
  · apply items_direct
    intro item member
    obtain ⟨apart, steps⟩ := items item member
    rw [resolve_of_aliasStep apart, resolve_nil]
    exact (groupSteps_direct apart steps targets).2

/-- A description that is read without following an alias does not depend on what aliases mean. -/
theorem steps_direct {node : Node} (direct : aliasStep node = 0) (none : steps [] node = 0)
    (targets : Targets) : steps targets node = 0 ∧ ofNode? targets node = ofNode? [] node := by
  constructor
  · have number (name : Text) : NoFurther (name, aliasStep) (name, aliasStep) :=
      ⟨rfl, fun _ => id⟩
    have accepting : NoFurther (finalStatesKey, statesSteps [])
        (finalStatesKey, statesSteps targets) :=
      ⟨rfl, fun value alone => (statesSteps_direct alone targets).1⟩
    have groups : NoFurther (transitionsKey, listSteps [] (groupSteps []))
        (transitionsKey, listSteps targets (groupSteps targets)) :=
      ⟨rfl, fun value alone => (groupsSteps_direct alone targets).1⟩
    exact recordSteps_mono direct none
      (.cons (number statesKey) (.cons (number initialKey) (.cons accepting (.cons groups .nil))))
  · rw [ofNode?_eq, ofNode?_eq]
    apply record_direct direct none
    intro fields steps
    have count : value? targets integer? statesKey fields = value? [] integer? statesKey fields :=
      value?_direct fun value found => ⟨steps statesKey aliasStep value rfl found, rfl⟩
    have start : value? targets integer? initialKey fields = value? [] integer? initialKey fields :=
      value?_direct fun value found => ⟨steps initialKey aliasStep value rfl found, rfl⟩
    have accepting : value? targets (states? targets) finalStatesKey fields =
        value? [] (states? []) finalStatesKey fields :=
      value?_states_direct (fun value => steps finalStatesKey (statesSteps []) value rfl) targets
    have groups : value? targets (groups? targets) transitionsKey fields =
        value? [] (groups? []) transitionsKey fields := by
      apply value?_direct
      intro value found
      have alone := steps transitionsKey (listSteps [] (groupSteps [])) value rfl found
      exact ⟨(listSteps_eq_zero_iff.mp alone).1, (groupsSteps_direct alone targets).2⟩
    rw [count, start, accepting, groups]

/-! Trees without aliases -/

theorem aliasStep_of_aliasFree {node : Node} (free : node.AliasFree) : aliasStep node = 0 := by
  cases free with
  | scalar anchor tag style text => rfl
  | sequence anchor free => rfl
  | mapping anchor keys values => rfl

theorem listSteps_of_aliasFree {itemSteps : Node → Nat}
    (steps : ∀ item : Node, item.AliasFree → itemSteps item = 0) (targets : Targets) {node : Node}
    (free : node.AliasFree) : listSteps targets itemSteps node = 0 := by
  apply listSteps_eq_zero_iff.mpr
  refine ⟨aliasStep_of_aliasFree free, fun item member => ?_⟩
  have itemFree : item.AliasFree := by
    cases free with
    | scalar anchor tag style text =>
      -- An empty plain scalar stands for a list without items.
      unfold items? at member
      split at member
      next same => cases same
      next => cases member
      next => cases member
    | sequence anchor free => exact free item member
    | mapping anchor keys values => cases member
  exact ⟨aliasStep_of_aliasFree itemFree, steps item itemFree⟩

theorem recordSteps_of_aliasFree {fieldSteps : List (Text × (Node → Nat))}
    (steps : ∀ field ∈ fieldSteps, ∀ value : Node, value.AliasFree → field.2 value = 0)
    (targets : Targets) {node : Node} (free : node.AliasFree) :
    recordSteps targets fieldSteps node = 0 := by
  apply (recordSteps_eq_zero_iff (aliasStep_of_aliasFree free)).mpr
  intro entry member
  have entryFree : entry.1.AliasFree ∧ entry.2.AliasFree := by
    cases free with
    | scalar anchor tag style text =>
      unfold entries? at member
      split at member
      next same => cases same
      next => cases member
      next => cases member
    | sequence anchor free => cases member
    | mapping anchor keys values => exact ⟨keys entry member, values entry member⟩
  apply entrySteps_eq_zero_iff.mpr
  refine ⟨aliasStep_of_aliasFree entryFree.1, fun name step _ known => ?_⟩
  obtain ⟨before, after, rfl, _⟩ := List.lookup_eq_some_iff.mp known
  exact steps (name, step) (by simp) entry.2 entryFree.2

theorem statesSteps_of_aliasFree (targets : Targets) {node : Node} (free : node.AliasFree) :
    statesSteps targets node = 0 :=
  listSteps_of_aliasFree (fun _ _ => rfl) targets free

def groupFieldSteps (targets : Targets) : List (Text × (Node → Nat)) :=
  [(inputKey, aliasStep), (outputsKey, statesSteps targets)]

theorem groupFieldSteps_of_aliasFree (targets : Targets) :
    ∀ field ∈ groupFieldSteps targets, ∀ value : Node, value.AliasFree → field.2 value = 0 := by
  intro field member
  simp only [groupFieldSteps, List.mem_cons, List.not_mem_nil, or_false] at member
  rcases member with rfl | rfl
  · exact fun _ => aliasStep_of_aliasFree
  · exact fun _ => statesSteps_of_aliasFree targets

def fieldSteps (targets : Targets) : List (Text × (Node → Nat)) :=
  [(statesKey, aliasStep), (initialKey, aliasStep), (finalStatesKey, statesSteps targets),
    (transitionsKey, listSteps targets (groupSteps targets))]

theorem fieldSteps_of_aliasFree (targets : Targets) :
    ∀ field ∈ fieldSteps targets, ∀ value : Node, value.AliasFree → field.2 value = 0 := by
  intro field member
  have group : ∀ item : Node, item.AliasFree → groupSteps targets item = 0 := fun _ =>
    recordSteps_of_aliasFree (groupFieldSteps_of_aliasFree targets) targets
  simp only [fieldSteps, List.mem_cons, List.not_mem_nil, or_false] at member
  rcases member with rfl | rfl | rfl | rfl
  · exact fun _ => aliasStep_of_aliasFree
  · exact fun _ => aliasStep_of_aliasFree
  · exact fun _ => statesSteps_of_aliasFree targets
  · exact fun _ => listSteps_of_aliasFree group targets

theorem steps_of_aliasFree {node : Node} (free : node.AliasFree) : steps [] node = 0 :=
  recordSteps_of_aliasFree (fieldSteps_of_aliasFree []) [] free

theorem ofDocument?_direct {document : Yaml.Document} {root : Node}
    (rooted : document.root = some root) (direct : aliasStep root = 0) (none : steps [] root = 0) :
    ofDocument? document = ofNode? [] root := by
  obtain ⟨noSteps, same⟩ := steps_direct direct none document.targets
  unfold ofDocument?
  rw [rooted]
  change (if steps document.targets root ≤ _ then ofNode? document.targets root else _) = _
  rw [noSteps, if_pos (Nat.zero_le _), same]

def Holds (octets : List Text.Utf8.Octet) (root : Node) : Prop :=
  ∃ stream document, Yaml.stream? octets = some stream ∧
    Yaml.Document.parse? stream = some document ∧ document.root = some root

theorem parse?_direct {octets : List Text.Utf8.Octet} {root : Node} (held : Holds octets root)
    (direct : aliasStep root = 0) (none : steps [] root = 0) : parse? octets = ofNode? [] root := by
  obtain ⟨stream, document, decoded, parsed, rooted⟩ := held
  unfold parse?
  rw [decoded]
  change (Yaml.Document.parse? stream).bind ofDocument? = _
  rw [parsed]
  exact ofDocument?_direct rooted direct none

theorem Holds.of_tokens {octets : List Text.Utf8.Octet} (stream : Text) (tokens : List Yaml.Token)
    {root : Node} (decoded : Yaml.stream? octets = some stream)
    (lexed : Yaml.tokens? stream = some tokens)
    (composed : Yaml.Document.ofTokens? tokens = some ⟨some root⟩) : Holds octets root := by
  refine ⟨stream, ⟨some root⟩, decoded, ?_, rfl⟩
  rw [Yaml.Document.parse?, lexed, Option.bind_some, composed]

end Description

end Acceptor
