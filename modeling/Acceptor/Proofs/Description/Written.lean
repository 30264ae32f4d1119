import Acceptor.Proofs.Description.Direct
import Acceptor.Proofs.Yaml.Phrase
/-!
Descriptions on a single line are read back to what they were, whatever they declare: numbers up to
the limits of their width, symbols that the format itself uses, and characters that no document may
hold as they are.
-/
namespace Acceptor.Description

open Text
open Yaml (Node Phrase)

def numbers (description : Description) : List Int :=
  description.stateCount.toList ++ (description.start.map State.number).toList ++
    description.accepting.map State.number ++
    description.groups.flatMap fun group => group.outputs.map State.number

/-! Descriptions as phrases -/

def statePhrase (state : State) : Phrase := .number state.number

def statesPhrase (listed : List State) : Phrase := .list (listed.map statePhrase)

def groupPhrase (group : Group) : Phrase :=
  .record [(inputKey, .spelled group.symbols), (outputsKey, statesPhrase group.outputs)]

def fieldPhrases (description : Description) : List (Text × Phrase) :=
  (description.stateCount.map fun count => (statesKey, .number count)).toList ++
  (description.start.map fun start => (initialKey, statePhrase start)).toList ++
  [(finalStatesKey, statesPhrase description.accepting),
    (transitionsKey, .list (description.groups.map groupPhrase))]

theorem text_statesPhrase (listed : List State) :
    (statesPhrase listed).text = Flow.states listed := by
  change Flow.list ((listed.map statePhrase).map Phrase.text) = Flow.list (listed.map State.text)
  rw [List.map_map]
  rfl

theorem text_groupPhrase (group : Group) : (groupPhrase group).text = Flow.group group := by
  change Flow.record [Flow.field inputKey (Flow.symbols group.symbols),
    Flow.field outputsKey (statesPhrase group.outputs).text] = _
  rw [text_statesPhrase]
  rfl

theorem line_eq (description : Description) :
    Flow.line description = (Phrase.record (fieldPhrases description)).text := by
  obtain ⟨stateCount, start, accepting, groups⟩ := description
  have listed :
      (Phrase.list (groups.map groupPhrase)).text = Flow.list (groups.map Flow.group) := by
    change Flow.list ((groups.map groupPhrase).map Phrase.text) = _
    rw [List.map_map]
    exact congrArg Flow.list (List.map_congr_left fun group _ => text_groupPhrase group)
  cases stateCount <;> cases start <;>
    simp [Flow.line, fieldPhrases, Phrase.record, text_statesPhrase, listed, statePhrase,
      Phrase.number, State.text]

theorem sound_statesPhrase (listed : List State) : (statesPhrase listed).Sound := by
  apply Phrase.sound_list
  intro item member
  obtain ⟨state, _, rfl⟩ := List.mem_map.mp member
  exact Phrase.sound_number state.number

theorem isName_of_known {name : Text} (known : name ∈
    [statesKey, initialKey, finalStatesKey, transitionsKey, inputKey, outputsKey]) :
    Yaml.IsName name := by
  simp only [List.mem_cons, List.not_mem_nil, or_false] at known
  rcases known with rfl | rfl | rfl | rfl | rfl | rfl
  all_goals exact ⟨by decide, by decide, by decide⟩

theorem sound_groupPhrase (group : Group) : (groupPhrase group).Sound := by
  apply Phrase.sound_record
  intro field member
  simp only [List.mem_cons, List.not_mem_nil, or_false] at member
  rcases member with rfl | rfl
  · exact ⟨isName_of_known (by simp), Phrase.sound_spelled group.symbols⟩
  · exact ⟨isName_of_known (by simp), sound_statesPhrase group.outputs⟩

theorem soundFields (description : Description) :
    Phrase.SoundFields (fieldPhrases description) := by
  have groups : (Phrase.list (description.groups.map groupPhrase)).Sound := by
    apply Phrase.sound_list
    intro item member
    obtain ⟨group, _, rfl⟩ := List.mem_map.mp member
    exact sound_groupPhrase group
  intro field member
  simp only [fieldPhrases, List.mem_append, Option.mem_toList, Option.map_eq_some_iff,
    List.mem_cons, List.not_mem_nil, or_false] at member
  rcases member with (⟨count, _, rfl⟩ | ⟨start, _, rfl⟩) | (rfl | rfl)
  · exact ⟨isName_of_known (by simp), Phrase.sound_number count⟩
  · exact ⟨isName_of_known (by simp), Phrase.sound_number start.number⟩
  · exact ⟨isName_of_known (by simp), sound_statesPhrase description.accepting⟩
  · exact ⟨isName_of_known (by simp), groups⟩

/-! Trees without aliases -/

theorem aliasFree_statesPhrase (listed : List State) : (statesPhrase listed).node.AliasFree := by
  refine .sequence none fun item member => ?_
  obtain ⟨phrase, listed, rfl⟩ := List.mem_map.mp member
  obtain ⟨state, _, rfl⟩ := List.mem_map.mp listed
  exact .scalar none none .plain _

theorem aliasFree_record {fields : List (Text × Phrase)}
    (free : ∀ field ∈ fields, field.2.node.AliasFree) : (Phrase.record fields).node.AliasFree := by
  refine .mapping none (fun entry member => ?_) (fun entry member => ?_)
  · obtain ⟨field, _, rfl⟩ := List.mem_map.mp member
    exact .scalar none none .quoted field.1
  · obtain ⟨field, listed, rfl⟩ := List.mem_map.mp member
    exact free field listed

theorem aliasFree_groupPhrase (group : Group) : (groupPhrase group).node.AliasFree := by
  apply aliasFree_record
  intro field member
  simp only [List.mem_cons, List.not_mem_nil, or_false] at member
  rcases member with rfl | rfl
  · exact .scalar none none .quoted group.symbols
  · exact aliasFree_statesPhrase group.outputs

theorem aliasFree_fieldPhrases (description : Description) :
    (Phrase.record (fieldPhrases description)).node.AliasFree := by
  apply aliasFree_record
  intro field member
  simp only [fieldPhrases, List.mem_append, Option.mem_toList, Option.map_eq_some_iff,
    List.mem_cons, List.not_mem_nil, or_false] at member
  rcases member with (⟨count, _, rfl⟩ | ⟨start, _, rfl⟩) | (rfl | rfl)
  · exact .scalar none none .plain _
  · exact .scalar none none .plain _
  · exact aliasFree_statesPhrase description.accepting
  · refine .sequence none fun item member => ?_
    obtain ⟨phrase, listed, rfl⟩ := List.mem_map.mp member
    obtain ⟨group, _, rfl⟩ := List.mem_map.mp listed
    exact aliasFree_groupPhrase group

/-! Trees read back -/

theorem isAbsent?_number (n : Int) : isAbsent? (Phrase.number n).node = some false := by
  have begins : (Decimal.ofInt n).head?.any Yaml.isNumeralChar = true := by
    have chars := (Yaml.numeral_ofInt n).chars
    cases written : Decimal.ofInt n with
    | nil =>
      have numeral := Yaml.numeral_ofInt n
      rw [written] at numeral
      cases numeral
    | cons c rest =>
      rw [written] at chars
      exact chars c List.mem_cons_self
  have words : ["~".toList, "null".toList, "Null".toList, "NULL".toList].all
      (!·.head?.any Yaml.isNumeralChar) = true := by decide
  have notNull : isNullWord (Decimal.ofInt n) = false := by
    apply Bool.eq_false_iff.mpr
    intro null
    have apart := List.all_eq_true.mp words _ (List.contains_iff_mem.mp null)
    rw [begins] at apart
    cases apart
  have notEmpty : (Decimal.ofInt n).isEmpty = false := by
    cases written : Decimal.ofInt n with
    | nil => simp [written] at begins
    | cons c rest => rfl
  change some ((Decimal.ofInt n).isEmpty || isNullWord (Decimal.ofInt n)) = some false
  rw [notEmpty, notNull]
  rfl

theorem optional?_number {n : Int} (fits : Yaml.Integer.InRange n) :
    optional? [] integer? (some (Phrase.number n).node) = some (some n) := by
  rw [optional?, resolve_nil, isAbsent?_number]
  change (Yaml.Integer.read? (Decimal.ofInt n)).map some = _
  rw [Yaml.read?_ofInt fits]
  rfl

theorem states?_statesPhrase {listed : List State}
    (fits : ∀ state ∈ listed, Yaml.Integer.InRange state.number) :
    states? [] (statesPhrase listed).node = some listed := by
  change List.mapM (fun item => (integer? (resolve [] item)).map State.mk)
    ((listed.map statePhrase).map Phrase.node) = _
  rw [List.map_map]
  apply Fallible.mapM_map_eq_some
  intro state member
  change (Yaml.Integer.read? (Decimal.ofInt state.number)).map State.mk = _
  rw [Yaml.read?_ofInt (fits state member)]
  rfl

theorem named?_record (fields : List (Text × Phrase)) :
    (entries? (Phrase.record fields).node).bind (named? []) =
      some (fields.map fun (name, value) => (name, value.node)) := by
  change named? []
    (fields.map fun (name, value) => (.scalar none none .quoted name, value.node)) = _
  induction fields with
  | nil => rfl
  | cons field rest ih =>
    obtain ⟨name, value⟩ := field
    rw [List.map_cons, named?_cons, ih]
    rfl

theorem group?_groupPhrase {group : Group}
    (fits : ∀ state ∈ group.outputs, Yaml.Integer.InRange state.number) :
    group? [] (groupPhrase group).node = some group := by
  have symbols : optional? [] text? (some (Phrase.spelled group.symbols).node) =
      some (some group.symbols) := rfl
  have outputs : optional? [] (states? []) (some (statesPhrase group.outputs).node) =
      some (some group.outputs) := by
    change (states? [] (statesPhrase group.outputs).node).map some = _
    rw [states?_statesPhrase fits]
    rfl
  have apart : outputsKey ≠ inputKey := by decide
  rw [group?_eq, groupPhrase, named?_record, Option.bind_some, List.map_cons, List.map_cons,
    List.map_nil, value?_cons_same, times_cons_other apart, value?_cons_other (Ne.symm apart),
    value?_cons_same]
  simp only [times, List.countP_nil, if_pos, symbols, outputs]
  rfl

theorem groups?_phrase {groups : List Group}
    (fits : ∀ group ∈ groups, ∀ state ∈ group.outputs, Yaml.Integer.InRange state.number) :
    groups? [] (Phrase.list (groups.map groupPhrase)).node = some groups := by
  change List.mapM (fun item => group? [] (resolve [] item))
    ((groups.map groupPhrase).map Phrase.node) = _
  rw [List.map_map]
  apply Fallible.mapM_map_eq_some
  intro group member
  exact group?_groupPhrase (fits group member)

theorem ofNode?_fieldPhrases {description : Description}
    (fits : ∀ n ∈ description.numbers, Yaml.Integer.InRange n) :
    ofNode? [] (Phrase.record (fieldPhrases description)).node = some description := by
  obtain ⟨stateCount, start, accepting, groups⟩ := description
  simp only [numbers, List.forall_mem_append, Option.mem_toList, List.forall_mem_map,
    List.forall_mem_flatMap] at fits
  obtain ⟨⟨⟨countFits, startFits⟩, acceptingFits⟩, groupsFit⟩ := fits
  -- The optional fields come first, so that what is behind them is found by name either way.
  let fields := (fieldPhrases ⟨stateCount, start, accepting, groups⟩).map
    fun (name, value) => (name, value.node)
  have count : value? [] integer? statesKey fields = some stateCount := by
    cases stateCount with
    | none => exact value?_of_times_eq_zero (by cases start <;> rfl) [] integer?
    | some n =>
      change value? [] integer? statesKey ((statesKey, (Phrase.number n).node) :: _) = _
      rw [value?_cons_same, if_pos (by cases start <;> rfl), optional?_number (countFits n rfl)]
  have first : value? [] integer? initialKey fields = some (start.map State.number) := by
    cases start with
    | none => exact value?_of_times_eq_zero (by cases stateCount <;> rfl) [] integer?
    | some state =>
      have found : value? [] integer? initialKey fields =
          optional? [] integer? (some (Phrase.number state.number).node) := by
        cases stateCount <;> rfl
      rw [found, optional?_number (startFits state.number rfl)]
      rfl
  have accepts : value? [] (states? []) finalStatesKey fields = some (some accepting) := by
    have found : value? [] (states? []) finalStatesKey fields =
        (states? [] (statesPhrase accepting).node).map some := by
      cases stateCount <;> cases start <;> rfl
    rw [found, states?_statesPhrase acceptingFits]
    rfl
  have moves : value? [] (groups? []) transitionsKey fields = some (some groups) := by
    have found : value? [] (groups? []) transitionsKey fields =
        (groups? [] (Phrase.list (groups.map groupPhrase)).node).map some := by
      cases stateCount <;> cases start <;> rfl
    rw [found, groups?_phrase groupsFit]
    rfl
  rw [ofNode?_eq, named?_record, Option.bind_some, count, Option.bind_some, first,
    Option.bind_some, accepts, Option.bind_some, moves, Option.map_some]
  cases start <;> rfl

/-- **Every description is read back from its line.** -/
theorem written_description_is_read_back {description : Description}
    (fits : ∀ n ∈ description.numbers, Yaml.Integer.InRange n) :
    parse? (Flow.octets description) = some description := by
  have sound := soundFields description
  have held : Holds (Flow.octets description) (Phrase.record (fieldPhrases description)).node := by
    refine ⟨_, _, ?_, Phrase.parse?_record sound, rfl⟩
    rw [Flow.octets, line_eq]
    exact Phrase.stream?_encode (Phrase.sound_record sound).printable
  have free := aliasFree_fieldPhrases description
  rw [parse?_direct held (aliasStep_of_aliasFree free) (steps_of_aliasFree free)]
  exact ofNode?_fieldPhrases fits

/-- A description at the limits: of its numbers, and of what may stand in a line. -/
def extreme : Description where
  stateCount := some (-0x8000000000000000)
  start := some ⟨0x7FFFFFFFFFFFFFFF⟩
  accepting := [⟨0⟩, ⟨3⟩, ⟨3⟩]
  groups := [{}, { symbols := ['\x00', '"', '\n', '\\', '\u2028', '𝔘'], outputs := [⟨-2⟩] }]

theorem written_description_is_read_back_extreme :
    parse? (Flow.octets extreme) = some extreme :=
  written_description_is_read_back (by decide)

end Acceptor.Description
