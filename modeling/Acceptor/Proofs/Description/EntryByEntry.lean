import Acceptor.Proofs.Description.Direct
/-!
Records read one entry after the other. What has been read so far is kept in slots, one for each
key that is known; a slot that is filled refuses a second value at once, and the value of another
key is passed over. Reading by slots and reading by name come to the same.
-/
namespace Acceptor.Description

open Yaml (Node)

variable {α : Type}

/-- What a key has given so far: nothing, or a value that may be absent. -/
abbrev Slot (α : Type) := Option (Option α)

def Slot.fill? (read : Option Node → Option (Option α)) (slot : Slot α) (value : Node) :
    Option (Slot α) :=
  if slot.isSome then none else (read (some value)).map some

structure GroupSlots where
  symbols : Slot Text := none
  outputs : Slot (List State) := none

def GroupSlots.field? (targets : Targets) (slots : GroupSlots) :
    Text × Node → Option GroupSlots
  | (name, value) => do
    if name = inputKey then
      return { slots with symbols := ← slots.symbols.fill? (optional? targets text?) value }
    else if name = outputsKey then
      return { slots with
        outputs := ← slots.outputs.fill? (optional? targets (states? targets)) value }
    else return slots

/-- Reads an entry: its key first, which says what its value is. -/
def offer? {σ : Type} (targets : Targets) (field? : σ → Text × Node → Option σ) (slots : σ) :
    Node × Node → Option σ
  | (key, value) => do field? slots (← text? (resolve targets key), value)

def GroupSlots.group (slots : GroupSlots) : Group where
  symbols := slots.symbols.join.getD []
  outputs := slots.outputs.join.getD []

def groupInOrder? (targets : Targets) (node : Node) : Option Group := do
  let slots ← (← entries? node).foldlM (offer? targets (GroupSlots.field? targets)) {}
  return slots.group

def groupsInOrder? (targets : Targets) (node : Node) : Option (List Group) := do
  (← items? node).mapM fun item => groupInOrder? targets (resolve targets item)

structure Slots where
  stateCount : Slot Int := none
  start : Slot Int := none
  accepting : Slot (List State) := none
  groups : Slot (List Group) := none

def Slots.field? (targets : Targets) (slots : Slots) : Text × Node → Option Slots
  | (name, value) => do
    if name = statesKey then
      return { slots with
        stateCount := ← slots.stateCount.fill? (optional? targets integer?) value }
    else if name = initialKey then
      return { slots with start := ← slots.start.fill? (optional? targets integer?) value }
    else if name = finalStatesKey then
      return { slots with
        accepting := ← slots.accepting.fill? (optional? targets (states? targets)) value }
    else if name = transitionsKey then
      return { slots with
        groups := ← slots.groups.fill? (optional? targets (groupsInOrder? targets)) value }
    else return slots

def Slots.description (slots : Slots) : Description where
  stateCount := slots.stateCount.join
  start := slots.start.join.map State.mk
  accepting := slots.accepting.join.getD []
  groups := slots.groups.join.getD []

def inOrder? (targets : Targets) (node : Node) : Option Description := do
  let slots ← (← entries? node).foldlM (offer? targets (Slots.field? targets)) {}
  return slots.description

/-! A slot on its own -/

def Slot.field? (name : Text) (read : Option Node → Option (Option α)) (slot : Slot α)
    (field : Text × Node) : Option (Slot α) :=
  if field.1 = name then slot.fill? read field.2 else some slot

theorem Slot.field?_same (name : Text) (read : Option Node → Option (Option α)) (slot : Slot α)
    (value : Node) : slot.field? name read (name, value) = slot.fill? read value :=
  if_pos rfl

theorem Slot.field?_other {key name : Text} (apart : key ≠ name)
    (read : Option Node → Option (Option α)) (slot : Slot α) (value : Node) :
    slot.field? name read (key, value) = some slot :=
  if_neg apart

/-- A filled slot stays as it is, and it stays at all only if its name does not come again. -/
theorem Slot.foldlM_filled (name : Text) (read : Option Node → Option (Option α))
    (value : Option α) (fields : List (Text × Node)) :
    fields.foldlM (Slot.field? name read) (some value) =
      if times name fields < 1 then some (some value) else none := by
  induction fields with
  | nil => rfl
  | cons field rest ih =>
    obtain ⟨key, value⟩ := field
    rw [List.foldlM_cons, Slot.field?]
    by_cases same : key = name
    · subst same
      rw [times_cons_same, if_pos rfl, if_neg (by omega)]
      rfl
    · rw [times_cons_other same, if_neg same]
      exact ih

/-- An empty slot ends up with what the name is looked up to, if it is there at most once. -/
theorem Slot.foldlM_empty (name : Text) (read : Option Node → Option (Option α))
    (fields : List (Text × Node)) :
    fields.foldlM (Slot.field? name read) none =
      if times name fields ≤ 1 then
        (fields.lookup name).elim (some none) fun value => (read (some value)).map some
      else none := by
  induction fields with
  | nil => rfl
  | cons field rest ih =>
    obtain ⟨key, value⟩ := field
    rw [List.foldlM_cons, List.lookup_cons, Slot.field?]
    by_cases same : key = name
    · subst same
      rw [times_cons_same, if_pos rfl, beq_self_eq_true]
      change ((read (some value)).map some).bind _ =
        if times key rest < 1 then (read (some value)).map some else none
      cases read (some value) with
      | none =>
        rw [Option.map_none, ite_self]
        rfl
      | some result => exact Slot.foldlM_filled key read result rest
    · rw [times_cons_other same, if_neg same, beq_false_of_ne (Ne.symm same)]
      exact ih

/-! The slots of a record -/

/-- Where two slots are filled side by side, each is filled as if it were alone. -/
theorem foldlM_beside {σ τ ρ ι : Type} {left : σ → ι → Option σ} {right : τ → ι → Option τ}
    {step : ρ → ι → Option ρ} (make : σ → τ → ρ)
    (beside : ∀ first second item, step (make first second) item =
      (left first item).bind fun first => (right second item).map (make first))
    (items : List ι) (first : σ) (second : τ) :
    items.foldlM step (make first second) =
      (items.foldlM left first).bind fun first => (items.foldlM right second).map (make first) := by
  induction items generalizing first second with
  | nil => rfl
  | cons item rest ih =>
    rw [List.foldlM_cons, List.foldlM_cons, List.foldlM_cons, beside]
    cases left first item with
    | none => rfl
    | some first =>
      cases right second item with
      | none =>
        change none = (rest.foldlM left first).bind fun first => none
        rw [Option.bind_fun_none]
      | some second => exact ih first second

/-- The names may be read first: where one cannot be read, both ways fail. -/
theorem foldlM_offer? {σ : Type} (targets : Targets) (field? : σ → Text × Node → Option σ)
    (entries : List (Node × Node)) (slots : σ) :
    entries.foldlM (offer? targets field?) slots =
      (named? targets entries).bind (·.foldlM field? slots) := by
  induction entries generalizing slots with
  | nil => rfl
  | cons first rest ih =>
    obtain ⟨key, value⟩ := first
    rw [List.foldlM_cons, named?_cons, Option.bind_assoc]
    change ((text? (resolve targets key)).bind fun name => field? slots (name, value)).bind _ = _
    rw [Option.bind_assoc]
    congr 1
    funext name
    rw [Option.bind_map]
    change _ = (named? targets rest).bind fun fields =>
      (field? slots (name, value)).bind fun slots => fields.foldlM field? slots
    cases field? slots (name, value) with
    | none =>
      change none = (named? targets rest).bind fun fields => none
      rw [Option.bind_fun_none]
    | some slots => exact ih slots

def both? {σ τ ι : Type} (left : σ → ι → Option σ) (right : τ → ι → Option τ) (state : σ × τ)
    (item : ι) : Option (σ × τ) :=
  (left state.1 item).bind fun first => (right state.2 item).map (first, ·)

theorem foldlM_both? {σ τ ι : Type} (left : σ → ι → Option σ) (right : τ → ι → Option τ)
    (items : List ι) (state : σ × τ) :
    items.foldlM (both? left right) state =
      (items.foldlM left state.1).bind fun first => (items.foldlM right state.2).map (first, ·) :=
  foldlM_beside Prod.mk (fun _ _ _ => rfl) items state.1 state.2

/-- What is left in a slot in the end, once a key that is not there counts as an absent value. -/
theorem Slot.join_foldlM (targets : Targets) (read : Node → Option α) (name : Text)
    (fields : List (Text × Node)) :
    (fields.foldlM (Slot.field? name (optional? targets read)) none).map Option.join =
      value? targets read name fields := by
  rw [Slot.foldlM_empty, value?]
  split
  · cases fields.lookup name with
    | none => rfl
    | some value =>
      rw [Option.elim_some, Option.map_map]
      exact Option.map_id'
  · rfl

/-! Groups and descriptions -/

theorem GroupSlots.foldlM_field? (targets : Targets) (fields : List (Text × Node)) :
    fields.foldlM (GroupSlots.field? targets) {} =
      (fields.foldlM (Slot.field? inputKey (optional? targets text?)) none).bind fun symbols =>
        (fields.foldlM (Slot.field? outputsKey (optional? targets (states? targets))) none).map
          (GroupSlots.mk symbols) := by
  apply foldlM_beside GroupSlots.mk
  intro symbols outputs field
  obtain ⟨name, value⟩ := field
  have apart : inputKey ≠ outputsKey := by decide
  by_cases input : name = inputKey
  · subst input
    rw [Slot.field?_same, Slot.field?_other apart]
    rfl
  · rw [Slot.field?_other input]
    by_cases output : name = outputsKey
    · subst output
      rw [Slot.field?_same, GroupSlots.field?, if_neg input, if_pos rfl]
      exact Option.map_eq_bind.symm
    · rw [Slot.field?_other output, GroupSlots.field?, if_neg input, if_neg output]
      rfl

theorem groupInOrder?_eq (targets : Targets) : groupInOrder? targets = group? targets := by
  funext node
  rw [groupInOrder?, group?_eq]
  cases entries? node with
  | none => rfl
  | some entries =>
    change (entries.foldlM (offer? targets (GroupSlots.field? targets)) {}).bind _ =
      (named? targets entries).bind _
    rw [foldlM_offer?, Option.bind_assoc]
    congr 1
    funext fields
    rw [GroupSlots.foldlM_field?, ← Slot.join_foldlM, ← Slot.join_foldlM]
    cases fields.foldlM (Slot.field? inputKey (optional? targets text?)) none with
    | none => rfl
    | some symbols =>
      cases fields.foldlM (Slot.field? outputsKey (optional? targets (states? targets))) none with
      | none => rfl
      | some outputs => rfl

/-- A field is offered to every slot, and at most one of them takes it. -/
theorem Slots.field?_eq (targets : Targets) (slots : Slots) (field : Text × Node) :
    slots.field? targets field =
      (Slot.field? statesKey (optional? targets integer?) slots.stateCount field).bind
        fun stateCount =>
      (Slot.field? initialKey (optional? targets integer?) slots.start field).bind fun start =>
      (Slot.field? finalStatesKey (optional? targets (states? targets)) slots.accepting field).bind
        fun accepting =>
      (Slot.field? transitionsKey (optional? targets (groupsInOrder? targets))
        slots.groups field).map
        fun groups => { stateCount, start, accepting, groups } := by
  obtain ⟨name, value⟩ := field
  by_cases states : name = statesKey
  · subst states
    rw [Slot.field?_same, Slot.field?_other (by decide), Slot.field?_other (by decide),
      Slot.field?_other (by decide), Slots.field?, if_pos rfl]
    rfl
  rw [Slot.field?_other states, Slots.field?, if_neg states]
  by_cases initial : name = initialKey
  · subst initial
    rw [Slot.field?_same, Slot.field?_other (by decide), Slot.field?_other (by decide), if_pos rfl]
    rfl
  rw [Slot.field?_other initial, if_neg initial]
  by_cases final : name = finalStatesKey
  · subst final
    rw [Slot.field?_same, Slot.field?_other (by decide), if_pos rfl]
    rfl
  rw [Slot.field?_other final, if_neg final]
  by_cases transitions : name = transitionsKey
  · subst transitions
    rw [Slot.field?_same, if_pos rfl]
    exact Option.map_eq_bind.symm
  · rw [Slot.field?_other transitions, if_neg transitions]
    rfl

theorem Slots.foldlM_field? (targets : Targets) (fields : List (Text × Node)) (slots : Slots) :
    fields.foldlM (Slots.field? targets) slots =
      (fields.foldlM (Slot.field? statesKey (optional? targets integer?)) slots.stateCount).bind
        fun stateCount =>
      (fields.foldlM (Slot.field? initialKey (optional? targets integer?)) slots.start).bind
        fun start =>
      (fields.foldlM (Slot.field? finalStatesKey (optional? targets (states? targets)))
        slots.accepting).bind fun accepting =>
      (fields.foldlM (Slot.field? transitionsKey (optional? targets (groupsInOrder? targets)))
        slots.groups).map fun groups => { stateCount, start, accepting, groups } := by
  -- Two slots are filled side by side with the other two, and so are the two of each pair.
  let first := both? (Slot.field? statesKey (optional? targets integer?))
    (Slot.field? initialKey (optional? targets integer?))
  let second := both? (Slot.field? finalStatesKey (optional? targets (states? targets)))
    (Slot.field? transitionsKey (optional? targets (groupsInOrder? targets)))
  have beside : ∀ one other field,
      Slots.field? targets ⟨one.1, one.2, other.1, other.2⟩ field =
        (first one field).bind fun one =>
          (second other field).map fun other => ⟨one.1, one.2, other.1, other.2⟩ := by
    intro one other field
    rw [Slots.field?_eq]
    simp only [first, second, both?]
    cases Slot.field? statesKey (optional? targets integer?) one.1 field with
    | none => rfl
    | some stateCount =>
      cases Slot.field? initialKey (optional? targets integer?) one.2 field with
      | none => rfl
      | some start =>
        cases Slot.field? finalStatesKey (optional? targets (states? targets)) other.1 field with
        | none => rfl
        | some accepting =>
          simp only [Option.bind_some, Option.map_some, Option.map_map, Function.comp_def]
  have halves := foldlM_beside _ beside fields (slots.stateCount, slots.start)
    (slots.accepting, slots.groups)
  rw [foldlM_both?, foldlM_both?] at halves
  refine halves.trans ?_
  rw [Option.bind_assoc]
  congr 1
  funext stateCount
  rw [Option.bind_map]
  congr 1
  funext start
  rw [Function.comp_apply, Option.map_bind]
  congr 1
  funext accepting
  rw [Function.comp_apply, Option.map_map]
  rfl

theorem inOrder?_eq (targets : Targets) : inOrder? targets = ofNode? targets := by
  have groups : groupsInOrder? targets = groups? targets := by
    funext node
    rw [groupsInOrder?, groupInOrder?_eq]
    rfl
  funext node
  rw [inOrder?, ofNode?_eq]
  cases entries? node with
  | none => rfl
  | some entries =>
    change (entries.foldlM (offer? targets (Slots.field? targets)) {}).bind _ =
      (named? targets entries).bind _
    rw [foldlM_offer?, Option.bind_assoc]
    congr 1
    funext fields
    rw [Slots.foldlM_field?, groups, ← Slot.join_foldlM, ← Slot.join_foldlM, ← Slot.join_foldlM,
      ← Slot.join_foldlM]
    cases fields.foldlM (Slot.field? statesKey (optional? targets integer?)) none with
    | none => rfl
    | some stateCount =>
      cases fields.foldlM (Slot.field? initialKey (optional? targets integer?)) none with
      | none => rfl
      | some start =>
        cases fields.foldlM (Slot.field? finalStatesKey (optional? targets (states? targets)))
          none with
        | none => rfl
        | some accepting =>
          cases fields.foldlM (Slot.field? transitionsKey (optional? targets (groups? targets)))
            none with
          | none => rfl
          | some groups => rfl

/-- The description that a stream of octets holds, with its records read one entry after the
other. -/
def parseInOrder? (octets : List Text.Utf8.Octet) : Option Description := do
  let document ← Yaml.Document.parse? (← Yaml.stream? octets)
  match document.root with
  | none => some empty
  | some root =>
    if steps document.targets root ≤ 100 * document.size then inOrder? document.targets root
    else none

theorem parseInOrder?_eq : parseInOrder? = parse? := by
  funext octets
  rw [parseInOrder?, parse?]
  congr 1
  funext stream
  congr 1
  funext document
  rw [ofDocument?]
  cases document.root with
  | none => rfl
  | some root => rw [inOrder?_eq]

end Acceptor.Description
