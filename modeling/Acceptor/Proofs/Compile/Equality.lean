import Acceptor.Proofs.Compile.Simulation
import Acceptor.Proofs.Table.Same
/-!
When descriptions compile to the same table. They do exactly if they declare the same, symbol by
symbol and state by state; how symbols are gathered into groups, in which order groups, symbols and
accept states are listed, and how often an accept state is listed make no difference.
-/
namespace Acceptor

open Description (Validated GroupsFit)
open Table

def Description.Maps (description : Description) (symbol : Char) (outputs : List State) : Prop :=
  ∃ group ∈ description.groups, symbol ∈ group.symbols ∧ outputs = group.outputs

/-- Descriptions that declare as many states, the same start, the same set of accept states, and
the same outputs for every symbol. -/
structure Description.Alike (one two : Description) : Prop where
  stateCount : one.stateCount = two.stateCount
  start : one.start = two.start
  accepting : ∀ state, state ∈ one.accepting ↔ state ∈ two.accepting
  maps : ∀ symbol outputs, one.Maps symbol outputs ↔ two.Maps symbol outputs

section Checked

variable {description : Description} {automaton : Validated}

theorem sound_of_check (checked : description.check = .ok automaton) :
    (builderOf automaton).build.Sound :=
  (Table.built_of_replay (replay_of_check checked)).sound

theorem lookup_rowsFor_eq_some_iff (checked : description.check = .ok automaton) {symbol : Char}
    {outputs : List State} :
    (rowsFor description.groups).lookup symbol = some outputs ↔
      description.Maps symbol outputs := by
  have distinct : ((rowsFor description.groups).map Prod.fst).Nodup := by
    rw [symbols_rowsFor]
    exact (Description.check_eq_ok_iff.mp checked).1.symbolsDistinct
  rw [Lookup.lookup_eq_some_iff_mem distinct, mem_rowsFor, Description.Maps]

/-- States in range come back from their places, so the table keeps all declared outputs. -/
theorem successors?_builderOf (checked : description.check = .ok automaton) (symbol : Char) :
    (builderOf automaton).build.successors? symbol =
      (rowsFor description.groups).lookup symbol := by
  obtain ⟨formed, _, groups⟩ := Description.check_eq_ok_iff.mp checked
  rw [Table.successors?, row?_eq_lookup, groups]
  cases found : (rowsFor description.groups).lookup symbol with
  | none => rfl
  | some outputs =>
    obtain ⟨group, member, _, rfl⟩ := (lookup_rowsFor_eq_some_iff checked).mp found
    exact congrArg some (Table.map_ofIndex_index (formed.outputsWithin group member))

theorem mem_acceptStates_builderOf (checked : description.check = .ok automaton) {state : State} :
    state ∈ (builderOf automaton).build.acceptStates ↔ state ∈ description.accepting := by
  obtain ⟨formed, accepting, _⟩ := Description.check_eq_ok_iff.mp checked
  have marked : state ∈ (builderOf automaton).build.acceptStates ↔
      state ∈ (description.accepting.map State.index).map State.ofIndex := by
    rw [← accepting, Table.acceptStates, List.mem_map, List.mem_map]
    exact exists_congr fun place => and_congr_left' Ascending.mem_ofList
  rw [marked, Table.map_ofIndex_index formed.acceptingWithin]

theorem startState_builderOf (checked : description.check = .ok automaton) :
    some (builderOf automaton).build.startState = description.start := by
  have formed := (Description.check_eq_ok_iff.mp checked).1
  rw [formed.startDeclared]
  exact congrArg some (State.ofIndex_index formed.startWithin.1)

end Checked

theorem same_builderOf_iff {one two : Description} {first second : Validated}
    (left : one.check = .ok first) (right : two.check = .ok second) :
    (builderOf first).build.same (builderOf second).build = true ↔ one.Alike two := by
  have count : one.stateCount = two.stateCount ↔ first.stateCount = second.stateCount := by
    rw [(Description.check_eq_ok_iff.mp left).1.countDeclared,
      (Description.check_eq_ok_iff.mp right).1.countDeclared, Option.some.injEq, Int.natCast_inj]
  have start : one.start = two.start ↔
      (builderOf first).build.startState = (builderOf second).build.startState := by
    rw [← startState_builderOf left, ← startState_builderOf right, Option.some.injEq]
  have maps (symbol : Char) :
      (builderOf first).build.successors? symbol = (builderOf second).build.successors? symbol ↔
        ∀ outputs, one.Maps symbol outputs ↔ two.Maps symbol outputs := by
    rw [successors?_builderOf left, successors?_builderOf right, Option.ext_iff]
    simp only [lookup_rowsFor_eq_some_iff left, lookup_rowsFor_eq_some_iff right]
  rw [Table.same_iff (sound_of_check left) (sound_of_check right)]
  simp only [mem_acceptStates_builderOf left, mem_acceptStates_builderOf right, maps]
  constructor
  · intro equal
    obtain ⟨counts, starts, accepting, alike⟩ := equal
    exact ⟨count.mpr counts, start.mpr starts, accepting, alike⟩
  · intro alike
    exact ⟨count.mp alike.stateCount, start.mp alike.start, alike.accepting, alike.maps⟩

/-- Groups that are written down in another way: in another order, with their symbols in another
order, taken apart or put together, and with more or fewer groups that have no symbols. Changes are
made to the first group, as any group may come first. -/
inductive Regrouping (states : Nat) : List Group → List Group → Prop
  | reordered {groups others : List Group} (perm : groups.Perm others) :
      Regrouping states groups others
  | symbols {symbols others : Text} (perm : symbols.Perm others) (outputs : List State)
      (groups : List Group) :
      Regrouping states (⟨symbols, outputs⟩ :: groups) (⟨others, outputs⟩ :: groups)
  | split (front back : Text) (outputs : List State) (groups : List Group) :
      Regrouping states (⟨front ++ back, outputs⟩ :: groups)
        (⟨front, outputs⟩ :: ⟨back, outputs⟩ :: groups)
  | symbolless {outputs : List State} (complete : outputs.length = states)
      (within : ∀ state ∈ outputs, state.Within states) (groups : List Group) :
      Regrouping states groups (⟨[], outputs⟩ :: groups)
  | undone {groups others : List Group} (change : Regrouping states groups others) :
      Regrouping states others groups
  | followed {groups between others : List Group} (change : Regrouping states groups between)
      (next : Regrouping states between others) : Regrouping states groups others

namespace Regrouping

variable {states : Nat} {groups others : List Group}

theorem rows_perm (change : Regrouping states groups others) :
    (rowsFor groups).Perm (rowsFor others) := by
  induction change with
  | reordered perm => exact perm.flatMap_right _
  | symbols perm outputs groups =>
    simp only [rowsFor, List.flatMap_cons]
    exact (perm.map _).append_right _
  | split front back outputs groups =>
    simp only [rowsFor, List.flatMap_cons, List.map_append, List.append_assoc]
    exact .refl _
  | symbolless complete within groups => exact .refl _
  | undone change ih => exact ih.symm
  | followed change next ih nextIh => exact ih.trans nextIh

theorem outputs_iff (change : Regrouping states groups others) :
    (∀ group ∈ groups, group.outputs.length = states ∧
        ∀ state ∈ group.outputs, state.Within states) ↔
      ∀ group ∈ others, group.outputs.length = states ∧
        ∀ state ∈ group.outputs, state.Within states := by
  induction change with
  | reordered perm => simp only [perm.mem_iff]
  | symbols perm outputs groups => simp only [List.forall_mem_cons]
  | split front back outputs groups =>
    simp only [List.forall_mem_cons]
    rw [← and_assoc, and_self]
  | symbolless complete within groups =>
    rw [List.forall_mem_cons]
    exact (and_iff_right ⟨complete, within⟩).symm
  | undone change ih => exact ih.symm
  | followed change next ih nextIh => exact ih.trans nextIh

theorem groupsFit (change : Regrouping states groups others) (fit : GroupsFit states groups) :
    GroupsFit states others := by
  have outputs := change.outputs_iff.mp
    fun group member => ⟨fit.complete group member, fit.within group member⟩
  have distinct := fit.distinct
  rw [← symbols_rowsFor, (change.rows_perm.map Prod.fst).nodup_iff, symbols_rowsFor] at distinct
  refine ⟨?_, ?_, distinct⟩
  · intro group member
    exact (outputs group member).1
  · intro group member
    exact (outputs group member).2

theorem cons (change : Regrouping states groups others) (group : Group) :
    Regrouping states (group :: groups) (group :: others) := by
  -- The group that stays steps behind the ones that are changed, and comes back to the front.
  have swap (first second : Group) (rest : List Group) :
      Regrouping states (first :: second :: rest) (second :: first :: rest) :=
    .reordered (.swap second first rest)
  induction change with
  | reordered perm => exact .reordered (perm.cons group)
  | symbols perm outputs groups =>
    exact .followed (swap _ _ _) (.followed (.symbols perm outputs _) (swap _ _ _))
  | split front back outputs groups =>
    have last : Regrouping states
        (⟨front, outputs⟩ :: ⟨back, outputs⟩ :: group :: groups)
        (⟨front, outputs⟩ :: group :: ⟨back, outputs⟩ :: groups) :=
      .reordered ((List.Perm.swap group ⟨back, outputs⟩ groups).cons _)
    exact .followed (swap _ _ _)
      (.followed (.split front back outputs _) (.followed last (swap _ _ _)))
  | symbolless complete within groups =>
    exact .followed (.symbolless complete within _) (swap _ _ _)
  | undone change ih => exact .undone ih
  | followed change next ih nextIh => exact .followed ih nextIh

/-- A group is taken apart into groups of one symbol each. -/
theorem apart {outputs : List State} (complete : outputs.length = states)
    (within : ∀ state ∈ outputs, state.Within states) (symbols : Text)
    (rest : Regrouping states groups others) :
    Regrouping states (⟨symbols, outputs⟩ :: groups)
      (symbols.map (fun symbol => ⟨[symbol], outputs⟩) ++ others) := by
  induction symbols with
  | nil => exact .followed (.undone (.symbolless complete within groups)) rest
  | cons symbol symbols ih => exact .followed (.split [symbol] symbols outputs groups) (ih.cons _)

theorem allApart (fit : GroupsFit states groups) :
    Regrouping states groups
      ((rowsFor groups).map fun (symbol, outputs) => ⟨[symbol], outputs⟩) := by
  induction groups with
  | nil => exact .reordered (.refl _)
  | cons group groups ih =>
    obtain ⟨complete, within, _, _, rest⟩ := Description.groupsFit_cons.mp fit
    have taken := apart complete within group.symbols (ih rest)
    rw [rowsFor, List.flatMap_cons, List.map_append, List.map_map]
    exact taken

/-- There are no other ways to write down the same rows. -/
theorem iff_rows_perm (fit : GroupsFit states groups) (otherFit : GroupsFit states others) :
    Regrouping states groups others ↔ (rowsFor groups).Perm (rowsFor others) := by
  constructor
  · exact rows_perm
  · intro perm
    have reordered := perm.map fun (symbol, outputs) => Group.mk [symbol] outputs
    exact .followed (allApart fit) (.followed (.reordered reordered) (.undone (allApart otherFit)))

end Regrouping

theorem maps_alike_iff_regrouping {states : Nat} {one two : Description}
    (fit : GroupsFit states one.groups) (otherFit : GroupsFit states two.groups) :
    (∀ symbol outputs, one.Maps symbol outputs ↔ two.Maps symbol outputs) ↔
      Regrouping states one.groups two.groups := by
  have nodup {groups : List Group} (fit : GroupsFit states groups) : (rowsFor groups).Nodup := by
    apply List.Nodup.of_map Prod.fst
    rw [symbols_rowsFor]
    exact fit.distinct
  rw [Regrouping.iff_rows_perm fit otherFit,
    List.perm_ext_iff_of_nodup (nodup fit) (nodup otherFit)]
  simp only [Prod.forall, mem_rowsFor, Description.Maps]

/-- A checked description may be written down in another way: it is checked again, and declares
the same. -/
theorem check_regrouped {description : Description} {automaton : Validated}
    (checked : description.check = .ok automaton) {accepting : List State} {groups : List Group}
    (marked : ∀ state, state ∈ description.accepting ↔ state ∈ accepting)
    (change : Regrouping automaton.stateCount description.groups groups) :
    Description.check ⟨description.stateCount, description.start, accepting, groups⟩ =
        .ok ⟨automaton.stateCount, automaton.start, accepting, groups⟩ ∧
      description.Alike ⟨description.stateCount, description.start, accepting, groups⟩ := by
  have formed := (Description.check_eq_ok_iff.mp checked).1
  obtain ⟨counted, started, within, fit⟩ := Description.wellFormed_iff.mp formed
  have otherFit := change.groupsFit fit
  constructor
  · apply Description.check_eq_ok_iff.mpr
    refine ⟨Description.wellFormed_iff.mpr ⟨counted, started, ?_, otherFit⟩, rfl, rfl⟩
    intro state listed
    exact within state ((marked state).mpr listed)
  · exact ⟨rfl, rfl, marked, (maps_alike_iff_regrouping fit otherFit).mpr change⟩

/-- Tables of checked descriptions are the same exactly if the descriptions declare the same. In
particular, regrouping symbols and listing accept states anew never changes the table. Tables that
are the same run alike over every word. -/
theorem same_compiled_iff_declared_alike :
    (∀ one two first second,
      Description.check one = .ok first → Description.check two = .ok second →
      ∃ table other, compile first = .ok table ∧ compile second = .ok other ∧
        (table.same other = true ↔ one.Alike two)) ∧
      (∀ description automaton, Description.check description = .ok automaton →
        ∀ accepting groups, (∀ state, state ∈ description.accepting ↔ state ∈ accepting) →
          Regrouping automaton.stateCount description.groups groups →
            ∃ changed table other,
              Description.check ⟨description.stateCount, description.start, accepting, groups⟩ =
                .ok changed ∧
              compile automaton = .ok table ∧ compile changed = .ok other ∧
              table.same other = true) ∧
      ∀ table other, Table.Built table → Table.Built other → table.same other = true →
        ∀ word, table.run word = other.run word := by
  refine ⟨?_, ?_, ?_⟩
  · intro one two first second left right
    exact ⟨_, _, compile_of_check left, compile_of_check right, same_builderOf_iff left right⟩
  · intro description automaton checked accepting groups marked change
    obtain ⟨again, alike⟩ := check_regrouped checked marked change
    exact ⟨_, _, _, again, compile_of_check checked, compile_of_check again,
      (same_builderOf_iff checked again).mpr alike⟩
  · intro table other built otherBuilt same word
    rw [Table.run, Table.run, Table.runWith_eq_of_same built.sound otherBuilt.sound same]

/-- A group that is taken apart and turned around, behind a group without symbols, with the accept
state listed twice. -/
theorem same_compiled_iff_declared_alike_apart :
    let description : Description := ⟨some 2, some ⟨1⟩, [⟨2⟩], [⟨['a', 'b'], [⟨2⟩, ⟨1⟩]⟩]⟩
    let apart : Description :=
      ⟨some 2, some ⟨1⟩, [⟨2⟩, ⟨2⟩],
        [⟨[], [⟨1⟩, ⟨1⟩]⟩, ⟨['b'], [⟨2⟩, ⟨1⟩]⟩, ⟨['a'], [⟨2⟩, ⟨1⟩]⟩]⟩
    let table : Table := ⟨2, 0, [1], [('a', [1, 0]), ('b', [1, 0])]⟩
    let other : Table := ⟨2, 0, [1], [('b', [1, 0]), ('a', [1, 0])]⟩
    description.encode = .ok table ∧ apart.encode = .ok other ∧ description.Alike apart ∧
      table.same other = true ∧ ∀ word, table.run word = other.run word := by
  intro description apart table other
  have checked : description.check =
      .ok ⟨2, ⟨1⟩, [⟨2⟩], [⟨['a', 'b'], [⟨2⟩, ⟨1⟩]⟩]⟩ := rfl
  have again : apart.check =
      .ok ⟨2, ⟨1⟩, [⟨2⟩, ⟨2⟩],
        [⟨[], [⟨1⟩, ⟨1⟩]⟩, ⟨['b'], [⟨2⟩, ⟨1⟩]⟩, ⟨['a'], [⟨2⟩, ⟨1⟩]⟩]⟩ := rfl
  have complete : [(⟨1⟩ : State), ⟨1⟩].length = 2 := rfl
  have within : ∀ state ∈ [(⟨1⟩ : State), ⟨1⟩], state.Within 2 := by decide
  have change : Regrouping 2 description.groups apart.groups :=
    .followed (.split ['a'] ['b'] _ [])
      (.followed (.reordered (.swap _ _ [])) (.symbolless complete within _))
  obtain ⟨alike, regrouped, runs⟩ := same_compiled_iff_declared_alike
  obtain ⟨_, _, compiled, otherCompiled, same_iff⟩ := alike _ _ _ _ checked again
  cases compiled
  cases otherCompiled
  obtain ⟨_, _, _, checkedAgain, compiled, otherCompiled, same⟩ :=
    regrouped _ _ checked apart.accepting apart.groups (by simp [description, apart]) change
  cases checkedAgain
  cases compiled
  cases otherCompiled
  have built : table.Built := Table.built_of_replay (replay_of_check checked)
  have otherBuilt : other.Built := Table.built_of_replay (replay_of_check again)
  exact ⟨rfl, rfl, same_iff.mp same, same, runs table other built otherBuilt same⟩

end Acceptor
