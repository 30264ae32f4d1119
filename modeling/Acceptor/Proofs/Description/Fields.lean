import Acceptor.Description.Reading
/-!
The fields of a record, each on its own: a key that is known is looked up, and it must not be there
twice. A record is read field by field, whatever else it says.
-/
namespace Acceptor.Description

open Yaml (Node)

variable {α β : Type}

theorem resolve_nil (node : Node) : resolve [] node = node := by
  cases node with
  | «alias» target => rfl
  | scalar anchor tag style text => rfl
  | sequence anchor items => rfl
  | mapping anchor entries => rfl

def named? (targets : Targets) (entries : List (Node × Node)) : Option (List (Text × Node)) :=
  entries.mapM fun (key, value) => do return (← text? (resolve targets key), value)

theorem named?_cons (targets : Targets) (key value : Node) (entries : List (Node × Node)) :
    named? targets ((key, value) :: entries) =
      (text? (resolve targets key)).bind fun name =>
        (named? targets entries).map ((name, value) :: ·) := by
  rw [named?, List.mapM_cons]
  change ((text? (resolve targets key)).bind fun name => some (name, value)).bind (fun field =>
    (named? targets entries).bind fun fields => some (field :: fields)) = _
  rw [Option.bind_assoc]
  cases text? (resolve targets key) with
  | none => rfl
  | some name => exact Option.map_eq_bind.symm

def times (name : Text) (fields : List (Text × Node)) : Nat := fields.countP (·.1 = name)

theorem times_cons_same (name : Text) (value : Node) (fields : List (Text × Node)) :
    times name ((name, value) :: fields) = times name fields + 1 :=
  List.countP_cons_of_pos (decide_eq_true rfl)

theorem times_cons_other {key name : Text} (apart : key ≠ name) (value : Node)
    (fields : List (Text × Node)) : times name ((key, value) :: fields) = times name fields :=
  List.countP_cons_of_neg (by simpa using apart)

theorem lookup_cons_same (name : Text) (value : β) (fields : List (Text × β)) :
    ((name, value) :: fields).lookup name = some value := by
  rw [List.lookup_cons, beq_self_eq_true]

theorem lookup_cons_other {key name : Text} (apart : key ≠ name) (value : β)
    (fields : List (Text × β)) : ((key, value) :: fields).lookup name = fields.lookup name := by
  rw [List.lookup_cons, beq_false_of_ne (Ne.symm apart)]

/-- The value of a key that is known: absent if the key is not there, refused if it comes twice. -/
def value? (targets : Targets) (read : Node → Option α) (name : Text)
    (fields : List (Text × Node)) : Option (Option α) :=
  if times name fields ≤ 1 then optional? targets read (fields.lookup name) else none

theorem value?_cons_same (targets : Targets) (read : Node → Option α) (name : Text) (value : Node)
    (fields : List (Text × Node)) :
    value? targets read name ((name, value) :: fields) =
      if times name fields = 0 then optional? targets read (some value) else none := by
  rw [value?, times_cons_same, lookup_cons_same]
  by_cases absent : times name fields = 0
  · rw [if_pos absent, if_pos (by omega)]
  · rw [if_neg absent, if_neg (by omega)]

theorem value?_cons_other {key name : Text} (apart : key ≠ name) (targets : Targets)
    (read : Node → Option α) (value : Node) (fields : List (Text × Node)) :
    value? targets read name ((key, value) :: fields) = value? targets read name fields := by
  rw [value?, value?, times_cons_other apart, lookup_cons_other apart]

theorem lookup_of_times_eq_zero {name : Text} {fields : List (Text × Node)}
    (absent : times name fields = 0) : fields.lookup name = none := by
  apply List.lookup_eq_none_iff.mpr
  intro field member
  have apart := List.countP_eq_zero.mp absent field member
  exact bne_iff_ne.mpr fun same => apart (decide_eq_true same.symm)

theorem value?_of_times_eq_zero {name : Text} {fields : List (Text × Node)}
    (absent : times name fields = 0) (targets : Targets) (read : Node → Option α) :
    value? targets read name fields = some none := by
  rw [value?, if_pos (by omega), lookup_of_times_eq_zero absent]
  rfl

theorem lookup_perm {name : Text} {fields fields' : List (Text × Node)}
    (same : fields.Perm fields') (once : times name fields ≤ 1) :
    fields.lookup name = fields'.lookup name := by
  induction same with
  | nil => rfl
  | cons field _ ih =>
    obtain ⟨key, value⟩ := field
    by_cases here : key = name
    · subst here
      rw [lookup_cons_same, lookup_cons_same]
    · rw [times_cons_other here] at once
      rw [lookup_cons_other here, lookup_cons_other here, ih once]
  | swap first second rest =>
    obtain ⟨key, value⟩ := first
    obtain ⟨key', value'⟩ := second
    by_cases here : key = name
    · subst here
      by_cases there : key' = key
      · subst there
        rw [times_cons_same, times_cons_same] at once
        omega
      · rw [lookup_cons_other there, lookup_cons_same, lookup_cons_same]
    · by_cases there : key' = name
      · subst there
        rw [lookup_cons_other here, lookup_cons_same, lookup_cons_same]
      · rw [lookup_cons_other here, lookup_cons_other there, lookup_cons_other there,
          lookup_cons_other here]
  | trans earlier _ ih ih' =>
    have equal := earlier.countP_eq (·.1 = name)
    exact (ih once).trans (ih' (Nat.le_trans (Nat.le_of_eq equal.symm) once))

theorem value?_perm {fields fields' : List (Text × Node)} (same : fields.Perm fields')
    (targets : Targets) (read : Node → Option α) (name : Text) :
    value? targets read name fields = value? targets read name fields' := by
  have equal : times name fields = times name fields' := same.countP_eq _
  rw [value?, value?, ← equal]
  split
  next once => rw [lookup_perm same once]
  next => rfl

theorem named?_perm {entries entries' : List (Node × Node)} (same : entries.Perm entries')
    (targets : Targets) :
    Option.Rel List.Perm (named? targets entries) (named? targets entries') := by
  induction same with
  | nil => exact .some .nil
  | @cons entry rest rest' _ ih =>
    obtain ⟨key, value⟩ := entry
    rw [named?_cons, named?_cons]
    generalize named? targets rest = read at ih ⊢
    generalize named? targets rest' = read' at ih ⊢
    cases text? (resolve targets key) with
    | none => exact .none
    | some name =>
      cases ih with
      | none => exact .none
      | some equal => exact .some (equal.cons _)
  | swap first second rest =>
    obtain ⟨key, value⟩ := first
    obtain ⟨key', value'⟩ := second
    rw [named?_cons, named?_cons, named?_cons, named?_cons]
    cases text? (resolve targets key) with
    | none =>
      cases text? (resolve targets key') with
      | none => exact .none
      | some name' => exact .none
    | some name =>
      cases text? (resolve targets key') with
      | none => exact .none
      | some name' =>
        cases named? targets rest with
        | none => exact .none
        | some fields => exact .some (.swap _ _ _)
  | @trans first second third _ _ ih ih' =>
    generalize named? targets first = read at ih ⊢
    generalize named? targets second = between at ih ih'
    generalize named? targets third = read' at ih' ⊢
    cases ih with
    | none => exact ih'
    | some equal =>
      cases ih' with
      | some equal' => exact .some (equal.trans equal')

theorem fields?_eq (targets : Targets) (known : List Text) (node : Node) :
    fields? targets known node =
      ((entries? node).bind (named? targets)).bind fun fields =>
        if known.all fun name => times name fields ≤ 1 then some fields else none := by
  rw [Option.bind_assoc]
  rfl

theorem group?_eq (targets : Targets) (node : Node) :
    group? targets node =
      ((entries? node).bind (named? targets)).bind fun fields =>
        (value? targets text? inputKey fields).bind fun symbols =>
          (value? targets (states? targets) outputsKey fields).map fun outputs =>
            { symbols := symbols.getD [], outputs := outputs.getD [] } := by
  change (fields? targets [inputKey, outputsKey] node).bind _ = _
  rw [fields?_eq, Option.bind_assoc]
  congr 1
  funext fields
  simp only [value?, Option.map_eq_bind]
  by_cases input : times inputKey fields ≤ 1
  · by_cases outputs : times outputsKey fields ≤ 1
    · have allowed : ([inputKey, outputsKey].all fun name => times name fields ≤ 1) = true := by
        simp [input, outputs]
      rw [if_pos allowed, if_pos input, if_pos outputs]
      rfl
    · simp [outputs]
  · simp [input]

theorem ofNode?_eq (targets : Targets) (node : Node) :
    ofNode? targets node =
      ((entries? node).bind (named? targets)).bind fun fields =>
        (value? targets integer? statesKey fields).bind fun stateCount =>
          (value? targets integer? initialKey fields).bind fun start =>
            (value? targets (states? targets) finalStatesKey fields).bind fun accepting =>
              (value? targets (groups? targets) transitionsKey fields).map fun groups =>
                { stateCount, start := start.map State.mk
                  accepting := accepting.getD [], groups := groups.getD [] } := by
  change (fields? targets [statesKey, initialKey, finalStatesKey, transitionsKey] node).bind _ = _
  rw [fields?_eq, Option.bind_assoc]
  congr 1
  funext fields
  simp only [value?, Option.map_eq_bind]
  by_cases states : times statesKey fields ≤ 1
  · by_cases initial : times initialKey fields ≤ 1
    · by_cases final : times finalStatesKey fields ≤ 1
      · by_cases transitions : times transitionsKey fields ≤ 1
        · have allowed : ([statesKey, initialKey, finalStatesKey, transitionsKey].all
              fun name => times name fields ≤ 1) = true := by
            simp [states, initial, final, transitions]
          rw [if_pos allowed, if_pos states, if_pos initial, if_pos final, if_pos transitions]
          rfl
        · simp [transitions]
      · simp [final]
    · simp [initial]
  · simp [states]

end Acceptor.Description
