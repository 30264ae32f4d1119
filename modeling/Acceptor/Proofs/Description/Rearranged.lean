import Acceptor.Proofs.Description.Anchors
import Acceptor.Proofs.Description.EntryByEntry
import Mathlib.Logic.Relation
/-!
The same description in another arrangement: entries change places, entries of unknown keys come and
go, known keys without a value are left out. A reader of entries that depended on what it met
earlier could tell such records apart. The slots of `parseInOrder?` are partly filled while entries
go by, and even so nothing of it shows.
-/
namespace Acceptor.Description

open Yaml (Node)

variable {α : Type}

inductive PlainNull : Node → Prop where
  | untagged (anchor : Option Nat) {text : Text} (word : text.isEmpty ∨ isNullWord text) :
    PlainNull (.scalar anchor none .plain text)
  | tagged (anchor : Option Nat) {text : Text} (word : isNullWord text) :
    PlainNull (.scalar anchor (some Yaml.Tag.absent) .plain text)

theorem PlainNull.aliasFree {value : Node} (null : PlainNull value) : value.AliasFree := by
  cases null with
  | untagged anchor word => exact .scalar anchor none .plain _
  | tagged anchor word => exact .scalar anchor _ .plain _

inductive Rearrangement (known : List Text) : List (Node × Node) → List (Node × Node) → Prop where
  | permute {entries entries' : List (Node × Node)} (same : entries.Perm entries') :
    Rearrangement known entries entries'
  | insert (before after : List (Node × Node)) (anchor : Option Nat) (tag : Option Text)
    (style : Yaml.Style) {name : Text} (unknown : name ∉ known) (value : Node) :
    Rearrangement known (before ++ after)
      (before ++ (.scalar anchor tag style name, value) :: after)
  | dropNull (before after : List (Node × Node)) (anchor : Option Nat) (tag : Option Text)
    (style : Yaml.Style) {name : Text} (once : ∀ entry ∈ before ++ after, text? entry.1 ≠ some name)
    {value : Node} (null : PlainNull value) :
    Rearrangement known (before ++ (.scalar anchor tag style name, value) :: after)
      (before ++ after)

def keys : List Text := [statesKey, initialKey, finalStatesKey, transitionsKey]

def groupKeys : List Text := [inputKey, outputsKey]

/-! Records -/

theorem optional?_plainNull {value : Node} (null : PlainNull value) (read : Node → Option α) :
    optional? [] read (some value) = some none := by
  have absent : isAbsent? value = some true := by
    cases null with
    | untagged anchor word => simpa [isAbsent?] using word
    | tagged anchor word => simp [isAbsent?, word]
  rw [optional?, resolve_nil, absent]

/-- Fields that cannot be told apart by the names that are known. -/
def SameValues (known : List Text) (fields fields' : List (Text × Node)) : Prop :=
  ∀ name ∈ known, ∀ {α : Type} (read : Node → Option α),
    value? [] read name fields = value? [] read name fields'

theorem sameValues_unknown {known : List Text} {name : Text} (unknown : name ∉ known) (value : Node)
    (fields : List (Text × Node)) : SameValues known fields ((name, value) :: fields) := by
  intro other member α read
  have apart : name ≠ other := fun same => unknown (same ▸ member)
  exact (value?_cons_other apart [] read value fields).symm

theorem sameValues_null {name : Text} {fields : List (Text × Node)}
    (absent : times name fields = 0) {value : Node} (null : PlainNull value) (known : List Text) :
    SameValues known ((name, value) :: fields) fields := by
  intro other _ α read
  by_cases here : name = other
  · subst here
    rw [value?_cons_same, if_pos absent, optional?_plainNull null,
      value?_of_times_eq_zero absent]
  · exact value?_cons_other here [] read value fields

theorem times_named {name : Text} {entries : List (Node × Node)}
    (absent : ∀ entry ∈ entries, text? entry.1 ≠ some name) {fields : List (Text × Node)}
    (read : named? [] entries = some fields) : times name fields = 0 := by
  induction entries generalizing fields with
  | nil =>
    cases read
    rfl
  | cons entry rest ih =>
    obtain ⟨key, value⟩ := entry
    obtain ⟨here, later⟩ := List.forall_mem_cons.mp absent
    rw [named?_cons, resolve_nil] at read
    obtain ⟨name', text, read⟩ := Option.bind_eq_some_iff.mp read
    obtain ⟨fields', readRest, rfl⟩ := Option.map_eq_some_iff.mp read
    have apart : name' ≠ name := fun same => here (same ▸ text)
    rw [times_cons_other apart]
    exact ih later readRest

/-- Entries that cannot be told apart: both can be read, and then to the same values, or neither. -/
def SayAlike (known : List Text) (entries entries' : List (Node × Node)) : Prop :=
  Option.Rel (SameValues known) (named? [] entries) (named? [] entries')

theorem SayAlike.trans {known : List Text} {first second third : List (Node × Node)}
    (earlier : SayAlike known first second) (later : SayAlike known second third) :
    SayAlike known first third := by
  unfold SayAlike at earlier later ⊢
  generalize named? [] first = read at earlier ⊢
  generalize named? [] second = between at earlier later
  generalize named? [] third = read' at later ⊢
  cases earlier with
  | none => exact later
  | some same =>
    cases later with
    | some same' =>
      exact .some fun name member _ read => (same name member read).trans (same' name member read)

theorem SayAlike.of_perm {entries entries' : List (Node × Node)} (same : entries.Perm entries')
    (known : List Text) : SayAlike known entries entries' := by
  have permuted := named?_perm same []
  unfold SayAlike
  generalize named? [] entries = read at permuted ⊢
  generalize named? [] entries' = read' at permuted ⊢
  cases permuted with
  | none => exact .none
  | some equal => exact .some fun name _ _ read => value?_perm equal [] read name

theorem named?_cons_scalar (anchor : Option Nat) (tag : Option Text) (style : Yaml.Style)
    (name : Text) (value : Node) (entries : List (Node × Node)) :
    named? [] ((.scalar anchor tag style name, value) :: entries) =
      (named? [] entries).map ((name, value) :: ·) :=
  named?_cons [] _ value entries

/-- What can be told of a record does not change when it is rearranged. -/
theorem Rearrangement.sayAlike {known : List Text} {entries entries' : List (Node × Node)}
    (rearranged : Rearrangement known entries entries') : SayAlike known entries entries' := by
  cases rearranged with
  | permute same => exact SayAlike.of_perm same known
  | insert before after anchor tag style unknown value =>
    refine SayAlike.trans ?_ (SayAlike.of_perm List.perm_middle.symm known)
    unfold SayAlike
    rw [named?_cons_scalar]
    cases named? [] (before ++ after) with
    | none => exact .none
    | some fields => exact .some (sameValues_unknown unknown value fields)
  | dropNull before after anchor tag style once null =>
    refine (SayAlike.of_perm List.perm_middle known).trans ?_
    unfold SayAlike
    rw [named?_cons_scalar]
    cases read : named? [] (before ++ after) with
    | none => exact .none
    | some fields => exact .some (sameValues_null (times_named once read) null known)

/-- A reader that asks for known names only is given alike answers. -/
theorem SayAlike.bind {known : List Text} {entries entries' : List (Node × Node)}
    (alike : SayAlike known entries entries') {read : List (Text × Node) → Option α}
    (asks : ∀ fields fields', SameValues known fields fields' → read fields = read fields') :
    (named? [] entries).bind read = (named? [] entries').bind read := by
  unfold SayAlike at alike
  generalize named? [] entries = given at alike ⊢
  generalize named? [] entries' = given' at alike ⊢
  cases alike with
  | none => rfl
  | some same => exact asks _ _ same

theorem lookup_of_unknown {known : List Text} {fieldSteps : List (Text × (Node → Nat))}
    (names : fieldSteps.map Prod.fst = known) {name : Text} (unknown : name ∉ known) :
    fieldSteps.lookup name = none := by
  apply List.lookup_eq_none_iff.mpr
  intro field member
  apply bne_iff_ne.mpr
  rintro rfl
  rw [← names] at unknown
  exact unknown (List.mem_map_of_mem member)

/-- The steps to a rearranged record are the same, since no step leads to what was changed. -/
theorem Rearrangement.recordSteps {known : List Text} {fieldSteps : List (Text × (Node → Nat))}
    (names : fieldSteps.map Prod.fst = known)
    (fields : ∀ field ∈ fieldSteps, ∀ value : Node, value.AliasFree → field.2 value = 0)
    {entries entries' : List (Node × Node)} (rearranged : Rearrangement known entries entries')
    (anchor : Option Nat) :
    Description.recordSteps [] fieldSteps (.mapping anchor entries) =
      Description.recordSteps [] fieldSteps (.mapping anchor entries') := by
  change total (entries.map (entrySteps [] fieldSteps)) =
    total (entries'.map (entrySteps [] fieldSteps))
  have permuted : ∀ {entries entries' : List (Node × Node)}, entries.Perm entries' →
      total (entries.map (entrySteps [] fieldSteps)) =
        total (entries'.map (entrySteps [] fieldSteps)) :=
    fun same => (same.map _).sum_nat
  have added : ∀ (before after : List (Node × Node)) (entry : Node × Node),
      entrySteps [] fieldSteps entry = 0 →
      total ((before ++ after).map (entrySteps [] fieldSteps)) =
        total ((before ++ entry :: after).map (entrySteps [] fieldSteps)) := by
    intro before after entry none
    -- The order does not matter, so that the entry may as well stand in front.
    have front : (before ++ entry :: after).Perm (entry :: (before ++ after)) := List.perm_middle
    rw [permuted front, List.map_cons]
    change _ = entrySteps [] fieldSteps entry + _
    rw [none, Nat.zero_add]
    rfl
  cases rearranged with
  | permute same => exact permuted same
  | insert before after anchor tag style unknown value =>
    apply added
    apply entrySteps_eq_zero_iff.mpr
    refine ⟨rfl, fun name step text found => ?_⟩
    cases text
    rw [lookup_of_unknown names unknown] at found
    cases found
  | dropNull before after anchor tag style once null =>
    symm
    apply added
    apply entrySteps_eq_zero_iff.mpr
    refine ⟨rfl, fun name step _ found => ?_⟩
    obtain ⟨before, after, rfl, _⟩ := List.lookup_eq_some_iff.mp found
    exact fields (name, step) (by simp) _ null.aliasFree

/-! Groups and descriptions -/

theorem group?_rearranged {entries entries' : List (Node × Node)}
    (rearranged : Rearrangement groupKeys entries entries') (anchor : Option Nat) :
    group? [] (.mapping anchor entries) = group? [] (.mapping anchor entries') := by
  rw [group?_eq, group?_eq]
  change (named? [] entries).bind _ = (named? [] entries').bind _
  apply rearranged.sayAlike.bind
  intro fields fields' same
  rw [same inputKey (by simp [groupKeys]), same outputsKey (by simp [groupKeys])]

theorem ofNode?_rearranged {entries entries' : List (Node × Node)}
    (rearranged : Rearrangement keys entries entries') (anchor : Option Nat) :
    ofNode? [] (.mapping anchor entries) = ofNode? [] (.mapping anchor entries') := by
  rw [ofNode?_eq, ofNode?_eq]
  change (named? [] entries).bind _ = (named? [] entries').bind _
  apply rearranged.sayAlike.bind
  intro fields fields' same
  rw [same statesKey (by simp [keys]), same initialKey (by simp [keys]),
    same finalStatesKey (by simp [keys]), same transitionsKey (by simp [keys])]

theorem ofNode?_replace (anchor keyAnchor : Option Nat) (tag : Option Text) (style : Yaml.Style)
    (before after : List (Node × Node)) {value value' : Node}
    (same : optional? [] (groups? []) (some value) = optional? [] (groups? []) (some value')) :
    ofNode? [] (.mapping anchor
        (before ++ (.scalar keyAnchor tag style transitionsKey, value) :: after)) =
      ofNode? [] (.mapping anchor
        (before ++ (.scalar keyAnchor tag style transitionsKey, value') :: after)) := by
  rw [ofNode?_rearranged (.permute List.perm_middle), ofNode?_eq,
    ofNode?_rearranged (.permute List.perm_middle), ofNode?_eq]
  change (named? [] (_ :: (before ++ after))).bind _ = (named? [] (_ :: (before ++ after))).bind _
  rw [named?_cons_scalar, named?_cons_scalar, Option.bind_map, Option.bind_map]
  congr 1
  funext fields
  have states : transitionsKey ≠ statesKey := by decide
  have initial : transitionsKey ≠ initialKey := by decide
  have final : transitionsKey ≠ finalStatesKey := by decide
  rw [Function.comp_apply, Function.comp_apply, value?_cons_other states, value?_cons_other states,
    value?_cons_other initial, value?_cons_other initial, value?_cons_other final,
    value?_cons_other final, value?_cons_same, value?_cons_same, same]

theorem steps_replace (anchor keyAnchor : Option Nat) (tag : Option Text) (style : Yaml.Style)
    (before after : List (Node × Node)) {value value' : Node}
    (same : listSteps [] (groupSteps []) value = listSteps [] (groupSteps []) value') :
    steps [] (.mapping anchor
        (before ++ (.scalar keyAnchor tag style transitionsKey, value) :: after)) =
      steps [] (.mapping anchor
        (before ++ (.scalar keyAnchor tag style transitionsKey, value') :: after)) := by
  unfold steps
  rw [recordSteps_eq, recordSteps_eq]
  change total (List.map _ (before ++ _ :: after)) = total (List.map _ (before ++ _ :: after))
  rw [List.map_append, List.map_cons, List.map_append, List.map_cons]
  congr 3
  exact congrArg (0 + ·) same

/-- How a document may be changed: in the record at its root, in a record of its transitions, or in
the numbers of its anchors, which are counted from its beginning. -/
inductive Change : Node → Node → Prop where
  | root (anchor : Option Nat) {entries entries' : List (Node × Node)}
    (rearranged : Rearrangement keys entries entries') :
    Change (.mapping anchor entries) (.mapping anchor entries')
  | group (anchor keyAnchor listAnchor groupAnchor : Option Nat) (tag : Option Text)
    (style : Yaml.Style) (before after : List (Node × Node)) (items items' : List Node)
    {entries entries' : List (Node × Node)}
    (rearranged : Rearrangement groupKeys entries entries') :
    Change
      (.mapping anchor (before ++ (.scalar keyAnchor tag style transitionsKey,
        .sequence listAnchor (items ++ .mapping groupAnchor entries :: items')) :: after))
      (.mapping anchor (before ++ (.scalar keyAnchor tag style transitionsKey,
        .sequence listAnchor (items ++ .mapping groupAnchor entries' :: items')) :: after))
  | renumber {root root' : Node} (same : root.unanchored = root'.unanchored) : Change root root'

theorem Change.ofNode? {root root' : Node} (change : Change root root') :
    Description.ofNode? [] root = Description.ofNode? [] root' := by
  cases change with
  | root anchor rearranged => exact ofNode?_rearranged rearranged anchor
  | group anchor keyAnchor listAnchor groupAnchor tag style before after items items' rearranged =>
    apply ofNode?_replace
    have same := group?_rearranged rearranged groupAnchor
    change (groups? [] (.sequence _ _)).map some = (groups? [] (.sequence _ _)).map some
    unfold groups?
    congr 1
    change List.mapM _ (items ++ _ :: items') = List.mapM _ (items ++ _ :: items')
    rw [List.mapM_append, List.mapM_append, List.mapM_cons, List.mapM_cons, resolve_nil,
      resolve_nil, same]
  | renumber same => rw [← ofNode?_unanchored, same, ofNode?_unanchored]

/-- A change neither leads to an alias nor away from one. -/
theorem Change.steps {root root' : Node} (change : Change root root') :
    aliasStep root = aliasStep root' ∧ Description.steps [] root = Description.steps [] root' := by
  cases change with
  | root anchor rearranged =>
    exact ⟨rfl, rearranged.recordSteps rfl (fieldSteps_of_aliasFree []) anchor⟩
  | group anchor keyAnchor listAnchor groupAnchor tag style before after items items' rearranged =>
    refine ⟨rfl, steps_replace anchor keyAnchor tag style before after ?_⟩
    have same := rearranged.recordSteps rfl (groupFieldSteps_of_aliasFree []) groupAnchor
    change 0 + total (List.map _ (items ++ _ :: items')) =
      0 + total (List.map _ (items ++ _ :: items'))
    rw [List.map_append, List.map_cons, List.map_append, List.map_cons]
    congr 4
    exact congrArg (0 + ·) same
  | renumber same =>
    exact ⟨by rw [← aliasStep_unanchored, same, aliasStep_unanchored],
      by rw [← steps_unanchored, same, steps_unanchored]⟩

/-- Changes keep what is read, and they keep it free of aliases. -/
theorem ofNode?_changed {root root' : Node} (changed : Relation.EqvGen Change root root') :
    aliasStep root = aliasStep root' ∧ steps [] root = steps [] root' ∧
      ofNode? [] root = ofNode? [] root' := by
  induction changed with
  | rel root root' change => exact ⟨change.steps.1, change.steps.2, change.ofNode?⟩
  | refl root => exact ⟨rfl, rfl, rfl⟩
  | symm root root' _ ih => exact ⟨ih.1.symm, ih.2.1.symm, ih.2.2.symm⟩
  | trans first second third _ _ ih ih' =>
    exact ⟨ih.1.trans ih'.1, ih.2.1.trans ih'.2.1, ih.2.2.trans ih'.2.2⟩

/-- **What a description says does not depend on its arrangement.** Of two documents whose trees
differ by changes of order, of unknown keys and of known keys without a value, one after the other
and there or back, both say the same or neither is a description, unless one holds an alias. This
is so by name and entry by entry. -/
theorem same_description_when_rearranged {octets octets' : List Text.Utf8.Octet} {root root' : Node}
    (held : Holds octets root) (held' : Holds octets' root') (free : root.AliasFree)
    (changed : Relation.EqvGen Change root root') :
    parse? octets = parse? octets' ∧ parseInOrder? octets = parseInOrder? octets' := by
  have direct := aliasStep_of_aliasFree free
  have none := steps_of_aliasFree free
  obtain ⟨keptStep, keptSteps, same⟩ := ofNode?_changed changed
  have byName : parse? octets = parse? octets' := by
    rw [parse?_direct held direct none, same,
      parse?_direct held' (keptStep ▸ direct) (keptSteps ▸ none)]
  refine ⟨byName, ?_⟩
  rw [parseInOrder?_eq]
  exact byName

def plain (text : String) : Node := .scalar none none .plain text.toList

def plainToken (text : String) : Yaml.Token := .scalar .plain text.toList

theorem same_description_when_rearranged_two_ways :
    let octets := Text.Utf8.encode
      "{x: [], states: 2, transitions: [{outputs: [1], input: b}]}".toList
    let octets' := Text.Utf8.encode
      "{transitions: [{input: b, outputs: [1]}], initial: ~, states: 2}".toList
    parse? octets = parse? octets' ∧ parseInOrder? octets = parseInOrder? octets' := by
  intro octets octets'
  let transitions (entries : List (Node × Node)) : Node × Node :=
    (plain "transitions", .sequence none [.mapping none entries])
  let states : Node × Node := (plain "states", plain "2")
  let input : Node × Node := (plain "input", plain "b")
  let outputs : Node × Node := (plain "outputs", .sequence none [plain "1"])
  have held : Holds octets
      (.mapping none [(plain "x", .sequence none []), states, transitions [outputs, input]]) :=
    Holds.of_tokens "{x: [], states: 2, transitions: [{outputs: [1], input: b}]}".toList
      [.flowMappingStart, .key, plainToken "x", .value, .flowSequenceStart, .flowSequenceEnd,
        .comma, .key, plainToken "states", .value, plainToken "2",
        .comma, .key, plainToken "transitions", .value, .flowSequenceStart,
          .flowMappingStart, .key, plainToken "outputs", .value, .flowSequenceStart,
            plainToken "1", .flowSequenceEnd,
            .comma, .key, plainToken "input", .value, plainToken "b", .flowMappingEnd,
          .flowSequenceEnd, .flowMappingEnd]
      (by decide +kernel) (by decide +kernel) rfl
  have held' : Holds octets'
      (.mapping none [transitions [input, outputs],
        (plain "initial", plain "~"), states]) :=
    Holds.of_tokens
      "{transitions: [{input: b, outputs: [1]}], initial: ~, states: 2}".toList
      [.flowMappingStart, .key, plainToken "transitions", .value, .flowSequenceStart,
          .flowMappingStart, .key, plainToken "input", .value, plainToken "b",
            .comma, .key, plainToken "outputs", .value, .flowSequenceStart, plainToken "1",
            .flowSequenceEnd, .flowMappingEnd, .flowSequenceEnd,
        .comma, .key, plainToken "initial", .value, plainToken "~",
        .comma, .key, plainToken "states", .value, plainToken "2", .flowMappingEnd]
      (by decide +kernel) (by decide +kernel) rfl
  have leaf : ∀ text, (plain text).AliasFree := fun text => .scalar none none .plain text.toList
  have free : Node.AliasFree (.mapping none
      [(plain "x", .sequence none []), states, transitions [outputs, input]]) := by
    have one : Node.AliasFree (.sequence none [plain "1"]) := .sequence none (by simp [leaf])
    have group : Node.AliasFree (.sequence none [.mapping none [outputs, input]]) :=
      .sequence none (by
        intro item member
        cases List.mem_singleton.mp member
        exact .mapping none (by simp [outputs, input, leaf]) (by simp [outputs, input, leaf, one]))
    have nothing : Node.AliasFree (.sequence none []) := .sequence none (by simp)
    exact .mapping none (by simp [states, transitions, leaf])
      (by simp [states, transitions, leaf, nothing, group])
  -- One change leads to the next: each needs what the earlier ones have made of the tree.
  have dropped : Relation.EqvGen Change
      (.mapping none [(plain "x", .sequence none []), states, transitions [outputs, input]])
      (.mapping none [states, transitions [outputs, input]]) :=
    .symm _ _ (.rel _ _ (.root none
      (.insert [] [states, transitions [outputs, input]] none none .plain (by decide) _)))
  have swapped : Relation.EqvGen Change
      (.mapping none [states, transitions [outputs, input]])
      (.mapping none [states, transitions [input, outputs]]) :=
    .rel _ _ (.group none none none none none .plain [states] [] [] []
      (.permute (.swap _ _ _)))
  have turned : Relation.EqvGen Change
      (.mapping none [states, transitions [input, outputs]])
      (.mapping none [transitions [input, outputs], states]) :=
    .rel _ _ (.root none (.permute (.swap _ _ _)))
  have absent : Relation.EqvGen Change
      (.mapping none [transitions [input, outputs], states])
      (.mapping none [transitions [input, outputs],
        (plain "initial", plain "~"), states]) :=
    .symm _ _ (.rel _ _ (.root none
      (.dropNull [transitions [input, outputs]] [states] none none .plain
        (by simp [transitions, states, plain, text?]) (.untagged none (by decide)))))
  exact same_description_when_rearranged held held' free
    (dropped.trans _ _ _ (swapped.trans _ _ _ (turned.trans _ _ _ absent)))

end Acceptor.Description
