import Acceptor.Proofs.Table.Sound
import Mathlib.Data.List.Destutter
/-!
Tables in machine words. States come and go as signed words of sixty-four bits, a state count is an
unsigned one, and places are kept in thirty-two bits; a conversion cuts off whatever does not fit.
Behind the guards of a builder nothing is ever cut off: a packed builder takes and refuses the same
calls as one that counts in numbers, and a packed table gives the same answers.
-/
namespace Acceptor

def State.ofWord (word : Int64) : State := ⟨word.toInt⟩

def State.word (state : State) : Int64 := .ofInt state.number

namespace Table

structure Packed where
  stateCount : UInt64
  start : UInt32
  accepting : List UInt32
  rows : List (Char × List UInt32)
deriving DecidableEq, Repr

namespace Packed

/-- Whether a word numbers one of so many states. Negative words are caught first, since the
comparison would take them for large ones. -/
def within (count : UInt64) (state : Int64) : Bool :=
  decide (1 ≤ state) && decide (state.toUInt64 ≤ count)

/-- The place of a state, of which the lowest thirty-two bits are kept. -/
def place (state : Int64) : UInt32 := (state - 1).toUInt64.toUInt32

def stateAt (place : UInt32) : Int64 := place.toUInt64.toInt64 + 1

inductive Call where
  | acceptState (state : Int64)
  | addTransition (symbol : Char) (successors : List Int64)
deriving DecidableEq, Repr

def Call.named : Call → Builder.Call
  | acceptState state => .acceptState (.ofWord state)
  | addTransition symbol successors => .addTransition symbol (successors.map .ofWord)

def Call.ofNamed : Builder.Call → Call
  | .acceptState state => acceptState state.word
  | .addTransition symbol successors => addTransition symbol (successors.map State.word)

def new (count : UInt64) (start : Int64) : Except Refusal Packed :=
  if ¬(1 ≤ count ∧ count ≤ 0xFFFFFFFF) then .error (.countOutside count.toNat)
  else if ¬within count start then .error (.stateOutside (.ofWord start) count.toNat)
  else .ok ⟨count, place start, [], []⟩

def hasSymbol (packed : Packed) (symbol : Char) : Bool := (packed.rows.lookup symbol).isSome

def apply (packed : Packed) : Call → Except Refusal Packed
  | .acceptState state =>
    if within packed.stateCount state then
      .ok { packed with accepting := packed.accepting ++ [place state] }
    else .error (.stateOutside (.ofWord state) packed.stateCount.toNat)
  | .addTransition symbol successors =>
    if packed.hasSymbol symbol then .error (.symbolTaken symbol)
    else if successors.length ≠ packed.stateCount.toNat then .error (.rowIncomplete symbol)
    else match successors.find? (!within packed.stateCount ·) with
      | some state => .error (.stateOutside (.ofWord state) packed.stateCount.toNat)
      | none => .ok { packed with rows := packed.rows ++ [(symbol, successors.map place)] }

def replay (count : UInt64) (start : Int64) (calls : List Call) : Except Refusal Packed := do
  calls.foldlM apply (← new count start)

inductive Request where
  | new (count : UInt64) (start : Int64)
  | call (call : Call)
  | build

def Request.named : Request → Table.Request
  | new count start => .new count.toNat (.ofWord start)
  | call request => .call request.named
  | build => .build

/-- The finished table: its accept states are sorted, and then repeats of a neighbour dropped. -/
def build (packed : Packed) : Packed :=
  { packed with
    accepting := (packed.accepting.mergeSort fun first second => decide (first ≤ second)).destutter
      (· ≠ ·) }

/-- Meets a request: the builder that there is afterwards, and the table that is handed over, if
any. -/
def meet (held : Option Packed) : Request → Except Complaint (Option Packed × Option Packed)
  | .new count start => do
    let fresh ← (new count start).mapError .refused
    return (some fresh, none)
  | .call request => do
    let next ← ((← held.elim (.error .noBuilder) .ok).apply request).mapError .refused
    return (some next, none)
  | .build => do
    let packed ← held.elim (.error .noBuilder) .ok
    return (none, some packed.build)

/-- The answers to a sequence of requests. One that cannot be met leaves the builder as it was. -/
def answers (held : Option Packed) : List Request → List (Except Complaint (Option Packed))
  | [] => []
  | request :: rest =>
    match meet held request with
    | .ok (next, handed) => .ok handed :: answers next rest
    | .error complaint => .error complaint :: answers held rest

/-- Looks for an item in an ascending list. The part in which it may be is halved until one item is
left. -/
def searched (items : List UInt32) (item : UInt32) : Bool :=
  if many : 1 < items.length then
    let half := items.length / 2
    if item < items[half] then searched (items.take (items.length - half)) item
    else searched (items.drop half) item
  else items.head? == some item
termination_by items.length
decreasing_by
  · rw [List.length_take]
    omega
  · rw [List.length_drop]
    omega

def startState (packed : Packed) : Int64 := stateAt packed.start

def acceptsAt (packed : Packed) (place : UInt32) : Bool := searched packed.accepting place

def accepts (packed : Packed) (state : Int64) : Bool :=
  within packed.stateCount state && packed.acceptsAt (place state)

def acceptStates (packed : Packed) : List Int64 := packed.accepting.map stateAt

def alphabet (packed : Packed) : Text := packed.rows.map Prod.fst

def row? (packed : Packed) (symbol : Char) : Option (List UInt32) := packed.rows.lookup symbol

structure Cursor where
  rest : List UInt32

def Cursor.next? (cursor : Cursor) : Option (Int64 × Cursor) :=
  match cursor.rest with
  | [] => none
  | place :: rest => some (stateAt place, ⟨rest⟩)

def Cursor.remaining (cursor : Cursor) : Nat := cursor.rest.length

def Cursor.advance (cursor : Cursor) : Nat → Cursor
  | 0 => cursor
  | asked + 1 =>
    match cursor.next? with
    | none => cursor
    | some (_, later) => later.advance asked

def successors? (packed : Packed) (symbol : Char) : Option Cursor := (packed.row? symbol).map .mk

def step (packed : Packed) (place : UInt32) (symbol : Char) : Except OutOfBounds (Option UInt32) :=
  match packed.row? symbol with
  | none => .ok none
  | some row =>
    match row[place.toNat]? with
    | some next => .ok (some next)
    | none => .error ⟨row.length, place.toNat⟩

def builder (packed : Packed) : Builder where
  stateCount := packed.stateCount.toNat
  start := packed.start.toNat
  accepting := packed.accepting.map UInt32.toNat
  rows := packed.rows.map fun (symbol, row) => (symbol, row.map UInt32.toNat)

def table (packed : Packed) : Table where
  stateCount := packed.stateCount.toNat
  start := packed.start.toNat
  accepting := packed.accepting.map UInt32.toNat
  rows := packed.rows.map fun (symbol, row) => (symbol, row.map UInt32.toNat)

def told (handed : Option Packed) : Answer := handed.elim .done fun packed => .table packed.table

/-- A cursor that yields these states, one each time it is asked, and counts them down. -/
def Cursor.Yields (cursor : Cursor) (states : List State) : Prop :=
  ∀ asked, (cursor.advance asked).remaining = states.length - asked ∧
    (cursor.advance asked).next?.map (State.ofWord ∘ Prod.fst) = states[asked]?

/-- A packed table that says what a table in numbers says, whatever it is asked. -/
structure Tells (packed : Packed) (table : Table) : Prop where
  stateCount : packed.stateCount.toNat = table.stateCount
  start : packed.start.toNat = table.start
  startState : .ofWord packed.startState = table.startState
  acceptsAt : ∀ place, packed.acceptsAt place = table.acceptsAt place.toNat
  accepts : ∀ state, packed.accepts state = table.accepts (.ofWord state)
  acceptStates : packed.acceptStates.map .ofWord = table.acceptStates
  alphabet : packed.alphabet = table.alphabet
  rows : ∀ symbol, (packed.row? symbol).map (·.map UInt32.toNat) = table.row? symbol
  successors : ∀ symbol,
    Option.Rel Cursor.Yields (packed.successors? symbol) (table.successors? symbol)
  steps : ∀ place symbol,
    (packed.step place symbol).map (·.map UInt32.toNat) = table.step place.toNat symbol

theorem within_ofWord {count : Nat} {state : Int64} :
    (State.ofWord state).Within count ↔ 1 ≤ state.toInt ∧ state.toInt ≤ count := Iff.rfl

theorem index_ofWord (state : Int64) : (State.ofWord state).index = (state.toInt - 1).toNat := rfl

theorem toInt_eq (word : Int64) :
    word.toInt =
      if word.toUInt64.toNat < 0x8000000000000000 then (word.toUInt64.toNat : Int)
      else word.toUInt64.toNat - 0x10000000000000000 := by
  have signed : word.toInt =
      ite (2 * word.toUInt64.toNat < _) (word.toUInt64.toNat : Int) (word.toUInt64.toNat - _) :=
    BitVec.toInt_eq_toNat_cond word.toBitVec
  rw [signed]
  split
  · rw [if_pos (by omega)]
  · rw [if_neg (by omega)]
    rfl

theorem toNat_toUInt64 {word : Int64} (positive : 0 ≤ word.toInt) :
    (word.toUInt64.toNat : Int) = word.toInt := by
  have bound := word.toUInt64.toNat_lt
  have signed := toInt_eq word
  split at signed
  · exact signed.symm
  · omega

theorem within_iff {count : UInt64} {state : Int64} :
    within count state = true ↔ (State.ofWord state).Within count.toNat := by
  have low : 1 ≤ state ↔ 1 ≤ state.toInt := Int64.le_iff_toInt_le
  rw [within, Bool.and_eq_true, decide_eq_true_iff, decide_eq_true_iff, low,
    UInt64.le_iff_toNat_le, within_ofWord]
  apply and_congr_right
  intro positive
  have same := @toNat_toUInt64 state (by omega)
  omega

/-- Nothing is cut off from the place of a state, if there are no more states than places. -/
theorem toNat_place {count : Nat} (bounded : count ≤ maxStates) {state : Int64}
    (inside : (State.ofWord state).Within count) :
    (place state).toNat = (State.ofWord state).index := by
  obtain ⟨low, high⟩ := within_ofWord.mp inside
  unfold maxStates at bounded
  have before : (state - 1).toInt = state.toInt - 1 := by
    rw [Int64.toInt_sub]
    change Int.bmod (state.toInt - 1) _ = _
    apply Int.bmod_eq_of_le
    · omega
    · omega
  have same := @toNat_toUInt64 (state - 1) (by omega)
  rw [place, UInt64.toNat_toUInt32, index_ofWord]
  omega

theorem ofWord_stateAt (place : UInt32) : State.ofWord (stateAt place) = .ofIndex place.toNat := by
  have bound := place.toNat_lt
  have wide : place.toUInt64.toInt64.toInt = place.toNat := by
    rw [toInt_eq, UInt64.toUInt64_toInt64, UInt32.toNat_toUInt64]
    exact if_pos (by omega)
  have next : (stateAt place).toInt = place.toNat + 1 := by
    rw [stateAt, Int64.toInt_add, wide]
    change Int.bmod (place.toNat + 1) _ = _
    apply Int.bmod_eq_of_le
    · omega
    · omega
  exact congrArg State.mk next

theorem ofWord_word {count : Nat} (bounded : count ≤ maxStates) {state : State}
    (inside : state.Within count) : State.ofWord state.word = state := by
  obtain ⟨low, high⟩ := inside
  unfold maxStates at bounded
  unfold State.ofWord State.word
  rw [Int64.toInt_ofInt_of_le]
  · omega
  · omega

theorem hasSymbol_eq (packed : Packed) (symbol : Char) :
    packed.hasSymbol symbol = packed.builder.hasSymbol symbol := by
  rw [hasSymbol, Builder.hasSymbol]
  change _ = Option.isSome (List.lookup symbol (List.map _ packed.rows))
  rw [Lookup.lookup_map_entry, Option.isSome_map]

theorem map_place {count : Nat} (bounded : count ≤ maxStates) {states : List Int64}
    (inside : ∀ state ∈ states, (State.ofWord state).Within count) :
    (states.map place).map UInt32.toNat = (states.map State.ofWord).map State.index := by
  rw [List.map_map, List.map_map]
  apply List.map_congr_left
  intro state listed
  exact toNat_place bounded (inside state listed)

theorem stateCount_builder (packed : Packed) :
    packed.builder.stateCount = packed.stateCount.toNat := rfl

theorem find?_outside (count : UInt64) (states : List Int64) :
    (states.map State.ofWord).find? (¬ ·.Within count.toNat) =
      (states.find? (!within count ·)).map State.ofWord := by
  rw [List.find?_map]
  congr 2
  funext state
  simp [← within_iff]

/-- A packed builder and one in numbers take and refuse the same calls, for the same reasons, and
hold the same afterwards. -/
theorem apply_named {packed : Packed} (bounded : packed.stateCount.toNat ≤ maxStates)
    (call : Call) : (packed.apply call).map builder = packed.builder.apply call.named := by
  cases call with
  | acceptState state =>
    rw [apply, Call.named, Builder.apply, Builder.acceptState, stateCount_builder]
    by_cases inside : within packed.stateCount state = true
    · have numbered := within_iff.mp inside
      rw [if_pos inside, if_pos numbered, ← toNat_place bounded numbered]
      simp [Except.map, builder]
    · rw [if_neg inside, if_neg (inside ∘ within_iff.mpr)]
      rfl
  | addTransition symbol successors =>
    rw [apply, Call.named, Builder.apply, Builder.addTransition, hasSymbol_eq, List.length_map,
      stateCount_builder, find?_outside]
    by_cases taken : packed.builder.hasSymbol symbol = true
    · rw [if_pos taken, if_pos taken]
      rfl
    rw [if_neg taken, if_neg taken]
    by_cases complete : successors.length = packed.stateCount.toNat
    · rw [if_neg (not_not_intro complete), if_neg (not_not_intro complete)]
      cases found : successors.find? (!within packed.stateCount ·) with
      | some state => rfl
      | none =>
        have inside : ∀ state ∈ successors,
            (State.ofWord state).Within packed.stateCount.toNat := by
          simpa [within_iff] using found
        rw [Option.map_none, ← map_place bounded inside]
        simp [Except.map, builder]
    · rw [if_pos complete, if_pos complete]
      rfl

theorem new_named (count : UInt64) (start : Int64) :
    (new count start).map builder = Builder.new count.toNat (.ofWord start) := by
  have bounds : (1 ≤ count ∧ count ≤ 0xFFFFFFFF) ↔ 1 ≤ count.toNat ∧ count.toNat ≤ maxStates := by
    rw [UInt64.le_iff_toNat_le, UInt64.le_iff_toNat_le]
    rfl
  rw [new, Builder.new]
  by_cases bounded : 1 ≤ count ∧ count ≤ 0xFFFFFFFF
  · have numbered := bounds.mp bounded
    rw [if_neg (not_not_intro bounded), if_neg (not_not_intro numbered)]
    by_cases inside : within count start = true
    · have placed := within_iff.mp inside
      rw [if_neg (not_not_intro inside), if_neg (not_not_intro placed),
        ← toNat_place numbered.2 placed]
      rfl
    · rw [if_pos inside, if_pos (inside ∘ within_iff.mpr)]
      rfl
  · rw [if_pos bounded, if_pos (bounded ∘ bounds.mpr)]
    rfl

theorem foldlM_named {packed : Packed} (bounded : packed.stateCount.toNat ≤ maxStates)
    (calls : List Call) :
    (calls.foldlM apply packed).map builder =
      (calls.map Call.named).foldlM Builder.apply packed.builder := by
  induction calls generalizing packed with
  | nil => rfl
  | cons call calls ih =>
    have alike := apply_named bounded call
    rw [List.foldlM_cons, List.map_cons, List.foldlM_cons, ← alike]
    cases taken : packed.apply call with
    | error refusal => rfl
    | ok next =>
      rw [taken] at alike
      have kept : next.stateCount.toNat = packed.stateCount.toNat :=
        Builder.stateCount_apply alike.symm
      exact ih (kept ▸ bounded)

theorem replay_named (count : UInt64) (start : Int64) (calls : List Call) :
    (replay count start calls).map builder =
      Builder.replay count.toNat (.ofWord start) (calls.map Call.named) := by
  have alike := new_named count start
  rw [replay, Builder.replay, ← alike]
  cases made : new count start with
  | error refusal => rfl
  | ok packed =>
    rw [made] at alike
    obtain ⟨bounded, _, same⟩ := Builder.new_eq_ok_iff.mp alike.symm
    have kept : packed.stateCount.toNat = count.toNat := congrArg Builder.stateCount same
    exact foldlM_named (kept ▸ bounded.2) calls

theorem mem_destutter' {first item : Nat} {items : List Nat} :
    item ∈ items.destutter' (· ≠ ·) first ↔ item = first ∨ item ∈ items := by
  induction items generalizing first with
  | nil => simp
  | cons next rest ih =>
    by_cases differ : first ≠ next
    · rw [List.destutter'_cons_pos _ differ, List.mem_cons, ih, List.mem_cons]
    · rw [List.destutter'_cons_neg _ differ, ih, ← not_ne_iff.mp differ, List.mem_cons, ← or_assoc,
        or_self]

theorem pairwise_destutter' {first : Nat} {items : List Nat}
    (ascending : (first :: items).Pairwise (· ≤ ·)) :
    (items.destutter' (· ≠ ·) first).Pairwise (· < ·) := by
  induction items generalizing first with
  | nil => simp
  | cons next rest ih =>
    obtain ⟨least, later⟩ := List.pairwise_cons.mp ascending
    by_cases differ : first ≠ next
    · rw [List.destutter'_cons_pos _ differ]
      refine List.pairwise_cons.mpr ⟨?_, ih later⟩
      intro item member
      have below := least next List.mem_cons_self
      rcases mem_destutter'.mp member with rfl | listed
      · omega
      · have above := (List.pairwise_cons.mp later).1 item listed
        omega
    · rw [List.destutter'_cons_neg _ differ]
      exact ih (not_ne_iff.mp differ ▸ later)

/-- Items come to the same ascending list in whatever way they are sorted. -/
theorem destutter_eq_ofList {items sorted : List Nat} (perm : sorted.Perm items)
    (ascending : sorted.Pairwise (· ≤ ·)) :
    sorted.destutter (· ≠ ·) = Ascending.ofList items := by
  cases sorted with
  | nil =>
    rw [← perm.nil_eq]
    rfl
  | cons first rest =>
    rw [List.destutter_cons']
    apply (pairwise_destutter' ascending).eq_of_mem_iff (Ascending.pairwise_ofList items)
    intro item
    rw [mem_destutter', Ascending.mem_ofList, ← List.mem_cons, perm.mem_iff]

theorem toNat_injective : Function.Injective UInt32.toNat := fun _ _ => UInt32.toNat_inj.mp

theorem table_build (packed : Packed) : packed.build.table = packed.builder.build := by
  have perm := packed.accepting.mergeSort_perm fun first second => decide (first ≤ second)
  have sorted : (packed.accepting.mergeSort fun first second => decide (first ≤ second)).Pairwise
      (fun first second => first.toNat ≤ second.toNat) := by
    have pairs := @List.pairwise_mergeSort _ (fun first second : UInt32 => decide (first ≤ second))
      (fun _ _ _ => by simpa using UInt32.le_trans) (fun _ _ => by simpa using UInt32.le_total _ _)
      packed.accepting
    exact pairs.imp fun below => UInt32.le_iff_toNat_le.mp (of_decide_eq_true below)
  unfold table builder Builder.build build
  rw [List.map_destutter_ne _ toNat_injective,
    destutter_eq_ofList (perm.map UInt32.toNat) (List.pairwise_map.mpr sorted)]

/-- No item of an ascending list is lost where a part of it is put aside. -/
theorem searched_iff {items : List UInt32} (ascending : items.Pairwise (· < ·)) (item : UInt32) :
    searched items item = true ↔ item ∈ items := by
  -- The half that is put aside begins behind the item, or ends in front of it.
  fun_induction searched items item with
  | case1 items many half below ih =>
    rw [ih (ascending.sublist (List.take_sublist _ _))]
    refine ⟨List.mem_of_mem_take, ?_⟩
    intro member
    obtain ⟨place, bound, rfl⟩ := List.getElem_of_mem member
    have before : place < half := by
      by_contra behind
      rcases Nat.eq_or_lt_of_le (Nat.le_of_not_lt behind) with same | beyond
      · subst same
        exact UInt32.lt_irrefl _ below
      · exact UInt32.lt_asymm below (List.pairwise_iff_getElem.mp ascending _ _ _ _ beyond)
    exact List.mem_take_iff_getElem.mpr ⟨place, by omega, rfl⟩
  | case2 items many half above ih =>
    rw [ih (ascending.sublist (List.drop_sublist _ _))]
    refine ⟨List.mem_of_mem_drop, ?_⟩
    intro member
    obtain ⟨place, bound, rfl⟩ := List.getElem_of_mem member
    have behind : half ≤ place := by
      by_contra before
      exact above (List.pairwise_iff_getElem.mp ascending _ _ _ _ (Nat.lt_of_not_le before))
    refine List.mem_drop_iff_getElem.mpr ⟨place - half, by omega, ?_⟩
    simp only [Nat.add_sub_cancel' behind]
  | case3 items few =>
    rw [beq_iff_eq]
    match items with
    | [] => simp
    | [only] =>
      rw [List.head?_cons, Option.some.injEq, List.mem_singleton]
      exact eq_comm
    | first :: second :: rest => exact absurd (Nat.le_add_left 2 rest.length) few

theorem Cursor.yields (row : List UInt32) :
    (Cursor.mk row).Yields (row.map fun place => .ofIndex place.toNat) := by
  intro asked
  induction asked generalizing row with
  | zero =>
    cases row with
    | nil => exact ⟨rfl, rfl⟩
    | cons place rest =>
      refine ⟨?_, congrArg some (ofWord_stateAt place)⟩
      rw [List.length_map]
      rfl
  | succ asked ih =>
    cases row with
    | nil =>
      refine ⟨?_, rfl⟩
      rw [List.map_nil, List.length_nil, Nat.zero_sub]
      rfl
    | cons place rest =>
      have later := ih rest
      rw [List.map_cons, List.length_cons, Nat.succ_sub_succ, List.getElem?_cons_succ]
      exact later

/-- A packed table whose accept states ascend answers as its numbers do. -/
theorem tells_table {packed : Packed} (bounded : packed.stateCount.toNat ≤ maxStates)
    (ascending : packed.table.accepting.Pairwise (· < ·)) : packed.Tells packed.table := by
  have acceptsAt : ∀ place, packed.acceptsAt place = packed.table.acceptsAt place.toNat := by
    intro place
    -- Halving finds every place there is because the places ascend.
    have sorted : packed.accepting.Pairwise (· < ·) :=
      (List.pairwise_map.mp ascending).imp UInt32.lt_iff_toNat_lt.mpr
    rw [Bool.eq_iff_iff, Packed.acceptsAt, searched_iff sorted, Table.acceptsAt,
      List.contains_iff_mem]
    exact (List.mem_map_of_injective toNat_injective).symm
  have rows : ∀ symbol, (packed.row? symbol).map (·.map UInt32.toNat) = packed.table.row? symbol :=
    fun symbol => (Lookup.lookup_map_entry _ _ symbol).symm
  refine ⟨rfl, rfl, ofWord_stateAt _, acceptsAt, ?_, ?_, ?_, rows, ?_, ?_⟩
  · intro state
    rw [Packed.accepts, Table.accepts]
    by_cases inside : within packed.stateCount state = true
    · have numbered : (State.ofWord state).Within packed.table.stateCount := within_iff.mp inside
      rw [acceptsAt, toNat_place bounded numbered, inside, decide_eq_true numbered]
    · have outside : ¬(State.ofWord state).Within packed.table.stateCount :=
        inside ∘ within_iff.mpr
      rw [Bool.eq_false_iff.mpr inside, decide_eq_false outside, Bool.false_and, Bool.false_and]
  · rw [Packed.acceptStates, Table.acceptStates, table, List.map_map, List.map_map]
    exact List.map_congr_left fun place _ => ofWord_stateAt place
  · rw [Packed.alphabet, Table.alphabet, table, List.map_map]
    rfl
  · intro symbol
    rw [Packed.successors?, Table.successors?, ← rows]
    cases packed.row? symbol with
    | none => exact .none
    | some row =>
      have yields := Cursor.yields row
      rw [← Function.comp_def, ← List.map_map] at yields
      exact .some yields
  · intro place symbol
    rw [Packed.step, Table.step, ← rows]
    cases packed.row? symbol with
    | none => rfl
    | some row =>
      rw [Option.map_some]
      simp only [List.getElem?_map]
      cases row[place.toNat]? with
      | none =>
        rw [List.length_map]
        rfl
      | some next => rfl

theorem named_ofNamed {count : Nat} (bounded : count ≤ maxStates) {calls : List Builder.Call}
    (fits : Builder.Fits count calls) : (calls.map Call.ofNamed).map Call.named = calls := by
  rw [List.map_map]
  apply (List.map_congr_left _).trans (List.map_id calls)
  intro call made
  cases call with
  | acceptState state =>
    have marked := fits.acceptedWithin state (Builder.mem_accepted.mpr made)
    exact congrArg Builder.Call.acceptState (ofWord_word bounded marked)
  | addTransition symbol successors =>
    apply congrArg (Builder.Call.addTransition symbol)
    rw [List.map_map]
    apply (List.map_congr_left _).trans (List.map_id successors)
    intro state listed
    exact ofWord_word bounded (fits.rowsWithin _ (Builder.mem_declared.mpr made) state listed)

/-- What is built by calls in numbers is built by the same calls in words, and nothing is lost. -/
theorem exists_packed {count : Nat} {start : State} {calls : List Builder.Call}
    {built : Builder} (taken : Builder.replay count start calls = .ok built) :
    ∃ packed, replay (.ofNat count) start.word (calls.map .ofNamed) = .ok packed ∧
      packed.build.Tells built.build := by
  obtain ⟨⟨_, bounded⟩, inside, fits, same⟩ := Builder.replay_eq_ok_iff.mp taken
  have count_kept : (UInt64.ofNat count).toNat = count := by
    apply UInt64.toNat_ofNat_of_lt
    unfold maxStates at bounded
    change count < 18446744073709551616
    omega
  -- The replay in words follows the one in numbers step by step, and that one is known to succeed.
  have alike := replay_named (.ofNat count) start.word (calls.map .ofNamed)
  rw [count_kept, ofWord_word bounded inside, named_ofNamed bounded fits, taken] at alike
  cases replayed : replay (.ofNat count) start.word (calls.map .ofNamed) with
  | error refusal =>
    rw [replayed] at alike
    cases alike
  | ok packed =>
    rw [replayed] at alike
    have numbers : packed.builder = built := Except.ok.inj alike
    have tables : packed.build.table = built.build := by rw [table_build, numbers]
    have held : packed.stateCount.toNat = count := by
      rw [← stateCount_builder, numbers, same]
      rfl
    refine ⟨packed, rfl, ?_⟩
    rw [← tables]
    apply tells_table (held ▸ bounded)
    rw [tables]
    exact Ascending.pairwise_ofList _

/-- A request in words is met, or refused for the same reason, as the one in numbers. -/
theorem meet_named {held : Option Packed} {table : Option Table}
    (sound : Session.Sound ⟨held.map builder, table⟩) (request : Request) :
    Session.meet ⟨held.map builder, table⟩ request.named =
      (meet held request).map fun (next, handed) =>
        (⟨next.map builder, (handed.map Packed.table).or table⟩, told handed) := by
  cases request with
  | new count start =>
    change ((Builder.new count.toNat (.ofWord start)).mapError _ >>= fun _ => _) = _
    rw [← new_named]
    cases made : new count start with
    | error refusal => simp only [meet, made]; rfl
    | ok fresh => simp only [meet, made]; rfl
  | call request =>
    cases held with
    | none => rfl
    | some packed =>
      have alike := apply_named (sound packed.builder rfl).countBounded request
      change Session.meet ⟨some packed.builder, table⟩ (.call request.named) =
        ((packed.apply request).mapError Complaint.refused >>= fun next =>
          pure (some next, none)).map _
      rw [Session.meet_call, ← alike]
      cases packed.apply request with
      | error refusal => rfl
      | ok next => rfl
  | build =>
    cases held with
    | none => rfl
    | some packed =>
      change Except.ok (_, Answer.table packed.builder.build) = _
      rw [← table_build]
      rfl

theorem answers_named {held : Option Packed} {table : Option Table}
    (sound : Session.Sound ⟨held.map builder, table⟩) (requests : List Request) :
    (answers held requests).map (·.map told) =
      Session.answers ⟨held.map builder, table⟩ (requests.map Request.named) := by
  induction requests generalizing held table with
  | nil => rfl
  | cons request rest ih =>
    have alike := meet_named sound request
    rw [answers, List.map_cons, Session.answers]
    cases met : meet held request with
    | error complaint =>
      rw [met] at alike
      rw [Session.answer_of_error alike, List.map_cons, ih sound]
      rfl
    | ok result =>
      rw [met] at alike
      rw [Session.answer_of_ok alike, List.map_cons, ih (Session.meet_sound sound alike).1]
      rfl

theorem answers_from_empty (requests : List Request) :
    (answers none requests).map (·.map told) =
      Session.answers {} (requests.map Request.named) := by
  have empty : Session.Sound ⟨Option.map builder none, none⟩ := nofun
  exact answers_named empty requests

/-- A table that is handed over in words is handed over in numbers, too, and nothing is lost. -/
theorem built_of_answers {requests : List Request} {packed : Packed}
    (handed : .ok (some packed) ∈ answers none requests) :
    packed.table.Built ∧ packed.Tells packed.table := by
  have built : packed.table.Built := by
    refine ⟨requests.map Request.named, ?_⟩
    rw [← answers_from_empty]
    exact List.mem_map.mpr ⟨_, handed, rfl⟩
  exact ⟨built, tells_table built.sound.countBounded built.sound.acceptingAscending⟩

theorem handed_of_calls {packed final : Packed} {calls : List Call}
    (taken : calls.foldlM apply packed = .ok final) :
    .ok (some final.build) ∈ answers (some packed) (calls.map .call ++ [.build]) := by
  induction calls generalizing packed with
  | nil =>
    cases taken
    exact List.mem_singleton_self _
  | cons call calls ih =>
    obtain ⟨next, applied, later⟩ := Fallible.bind_eq_ok_iff.mp taken
    have met : meet (some packed) (.call call) = .ok (some next, none) := by
      change ((packed.apply call).mapError _ >>= fun _ => _) = _
      rw [applied]
      rfl
    rw [List.map_cons, List.cons_append, answers, met]
    exact List.mem_cons_of_mem _ (ih later)

theorem handed_of_replay {count : UInt64} {start : Int64} {calls : List Call} {packed : Packed}
    (taken : replay count start calls = .ok packed) :
    .ok (some packed.build) ∈ answers none (.new count start :: (calls.map .call ++ [.build])) := by
  obtain ⟨fresh, made, later⟩ := Fallible.bind_eq_ok_iff.mp taken
  rw [answers, meet, made]
  exact List.mem_cons_of_mem _ (handed_of_calls later)

theorem exists_answers {table : Table} (built : table.Built) :
    ∃ requests packed, .ok (some packed) ∈ answers none requests ∧ packed.Tells table := by
  obtain ⟨builder, replayed, rfl⟩ := built.sound.exists_replay
  obtain ⟨packed, taken, tells⟩ := exists_packed replayed
  exact ⟨_, _, handed_of_replay taken, tells⟩

end Packed

end Table

end Acceptor
