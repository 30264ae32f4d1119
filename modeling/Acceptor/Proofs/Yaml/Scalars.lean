import Acceptor.Proofs.Yaml.Lexing
import Acceptor.Proofs.Yaml.Numeral
/-!
Scalars between brackets, read back as the lexer reads them: numerals up to the end of their item,
and texts between double quotes, spelled a piece for each character, as values and as keys.
-/
namespace Acceptor.Yaml

open Text

/-! Numerals -/

/-- What may follow an item of a flow collection: the end of the item, or of the text. -/
def Closes (rest : Text) : Prop := ∀ c, rest.head? = some c → Scalar.Plain.endsInFlow c = true

theorem of_digits (holds : Char → Bool)
    (all : ['0', '1', '2', '3', '4', '5', '6', '7', '8', '9'].all holds = true) {c : Char}
    (digit : c.isDigit = true) : holds c = true := by
  have bounds : 48 ≤ c.toNat ∧ c.toNat ≤ 57 := by
    simpa [Char.isDigit, UInt32.le_iff_toNat_le] using digit
  have listed : ∀ value, value < 10 →
      Char.ofNat (48 + value) ∈ ['0', '1', '2', '3', '4', '5', '6', '7', '8', '9'] := by decide
  have member := listed (c.toNat - 48) (by omega)
  have same : 48 + (c.toNat - 48) = c.toNat := by omega
  rw [same, Char.ofNat_toNat] at member
  exact List.all_eq_true.mp all c member

def isNumeralChar (c : Char) : Bool := c.isDigit || c == '-'

theorem isNumeralChar_of_digit {c : Char} (digit : c.isDigit = true) : isNumeralChar c = true := by
  rw [isNumeralChar, digit, Bool.true_or]

theorem numeralChar_cases {c : Char} (numeral : isNumeralChar c = true) :
    isBlank c = false ∧ isBreak c = false ∧ c ≠ ':' ∧ Scalar.Plain.endsInFlow c = false := by
  rcases Bool.or_eq_true_iff.mp numeral with digit | minus
  · let ordinary (c : Char) : Bool :=
      isBlank c = false ∧ isBreak c = false ∧ c ≠ ':' ∧ Scalar.Plain.endsInFlow c = false
    have each : ordinary c = true := of_digits ordinary (by decide) digit
    exact of_decide_eq_true each
  · rw [eq_of_beq minus]
    decide

theorem closing_cases {c : Char} (closing : Scalar.Plain.endsInFlow c = true) :
    isBlank c = false ∧ isBreak c = false ∧ c ≠ ':' := by
  have listed : c ∈ [',', '[', ']', '\x7b', '\x7d'] := List.contains_iff_mem.mp closing
  simp only [List.mem_cons, List.not_mem_nil, or_false] at listed
  rcases listed with rfl | rfl | rfl | rfl | rfl
  all_goals decide

theorem scan_numeral {rest : Text} (closes : Closes rest) (indent : Nat) {numeral : Text}
    (chars : ∀ c ∈ numeral, isNumeralChar c = true) (place : Place) (read : Text) :
    Scalar.Plain.scan true indent (numeral ++ rest) place .empty read =
      some (read.reverse ++ numeral, ⟨rest, place.afterAll numeral⟩, false) := by
  induction numeral generalizing place read with
  | nil =>
    cases rest with
    | nil => simp [Scalar.Plain.scan, Place.afterAll, Scalar.Gap.empty]
    | cons c rest =>
      have closing : Scalar.Plain.endsInFlow c = true := closes c rfl
      obtain ⟨notBlank, notBreak, notColon⟩ := closing_cases closing
      simp [Scalar.Plain.scan, notBlank, notBreak, notColon, closing, Scalar.Gap.isOpen,
        Scalar.Gap.empty, Place.afterAll]
  | cons c numeral ih =>
    obtain ⟨here, later⟩ := List.forall_mem_cons.mp chars
    obtain ⟨notBlank, notBreak, notColon, stays⟩ := numeralChar_cases here
    have step : Scalar.Plain.scan true indent (c :: (numeral ++ rest)) place .empty read =
        Scalar.Plain.scan true indent (numeral ++ rest) (place.after c) .empty (c :: read) := by
      simp [Scalar.Plain.scan, notBlank, notBreak, notColon, stays, Scalar.Gap.isOpen,
        Scalar.Gap.empty, Scalar.Gap.text]
    rw [List.cons_append, step, ih later]
    simp [Place.afterAll]

inductive Numeral : Text → Prop where
  | digits {c : Char} {rest : Text} (digit : c.isDigit = true)
    (chars : ∀ c ∈ rest, isNumeralChar c = true) : Numeral (c :: rest)
  | signed {c : Char} {rest : Text} (digit : c.isDigit = true)
    (chars : ∀ c ∈ rest, isNumeralChar c = true) : Numeral ('-' :: c :: rest)

theorem Numeral.chars {numeral : Text} (written : Numeral numeral) :
    ∀ c ∈ numeral, isNumeralChar c = true := by
  cases written with
  | digits digit chars =>
    exact List.forall_mem_cons.mpr ⟨isNumeralChar_of_digit digit, chars⟩
  | signed digit chars =>
    exact List.forall_mem_cons.mpr ⟨rfl,
      List.forall_mem_cons.mpr ⟨isNumeralChar_of_digit digit, chars⟩⟩

theorem numeral_ofInt (n : Int) : Numeral (Decimal.ofInt n) := by
  have numeralChar : ∀ n : Nat, ∀ c ∈ Decimal.ofNat n, isNumeralChar c = true :=
    fun n c member => isNumeralChar_of_digit (isDigit_of_mem_ofNat n c member)
  cases n with
  | ofNat n =>
    obtain ⟨first, rest, spelled, digit⟩ := exists_digit_ofNat n
    have chars := numeralChar n
    rw [spelled] at chars
    rw [Decimal.ofInt, spelled]
    exact .digits digit (List.forall_mem_cons.mp chars).2
  | negSucc n =>
    obtain ⟨first, rest, spelled, digit⟩ := exists_digit_ofNat (n + 1)
    have chars := numeralChar (n + 1)
    rw [spelled] at chars
    rw [Decimal.ofInt, spelled]
    exact .signed digit (List.forall_mem_cons.mp chars).2

namespace Lexer

theorem noDocumentMark_of_numeral {numeral : Text} (written : Numeral numeral) (rest : Text) :
    startsWithDocumentMark (numeral ++ rest) = false := by
  cases written with
  | @digits c more digit chars =>
    rw [List.cons_append]
    unfold startsWithDocumentMark
    split
    next same =>
      obtain ⟨rfl, _⟩ := List.cons.inj same
      cases digit
    next same =>
      obtain ⟨rfl, _⟩ := List.cons.inj same
      cases digit
    next => rfl
  | @signed c more digit chars =>
    rw [List.cons_append, List.cons_append]
    unfold startsWithDocumentMark
    split
    next same =>
      obtain ⟨rfl, _⟩ := List.cons.inj (List.cons.inj same).2
      cases digit
    next same => cases (List.cons.inj same).1
    next => rfl

theorem token?_of_numeral {lexer : Lexer} (inFlow : lexer.inFlow = true) {numeral rest : Text}
    (written : Numeral numeral) (front : lexer.cursor.rest = numeral ++ rest) :
    lexer.token? = lexer.plainScalar? := by
  have unmarked : lexer.cursor.atDocumentMark = false := by
    rw [Cursor.atDocumentMark, front, noDocumentMark_of_numeral written, Bool.and_false]
  cases written with
  | @digits c more digit chars =>
    obtain ⟨notBlank, notBreak, _, _⟩ := numeralChar_cases (isNumeralChar_of_digit digit)
    -- Every other token begins with a mark of its own, and no digit is one.
    let marks : List Char := ['-', '?', ':', ',', '[', ']', '\x7b', '\x7d', '#', '&', '*', '!', '|',
      '>', '\'', '"', '%', '@', '\x60']
    have notMark : c ∉ marks :=
      of_decide_eq_true (of_digits (fun c => decide (c ∉ marks)) (by decide) digit)
    simp only [marks, List.mem_cons, List.not_mem_nil, or_false, not_or] at notMark
    simp [token?, front, unmarked, inFlow, Scalar.Plain.mayBegin, notBlank, notBreak, notMark]
  | @signed c more digit chars =>
    obtain ⟨notBlank, notBreak, _, _⟩ := numeralChar_cases (isNumeralChar_of_digit digit)
    simp [token?, front, unmarked, inFlow, Scalar.Plain.mayBegin, notBlank, notBreak, endsWord]

theorem At.inFlow {lexer : Lexer} {stage : Stage} (stands : At lexer stage)
    (inside : 0 < stage.depth) : lexer.inFlow = true := by
  have length := stands.depth
  unfold Lexer.inFlow
  cases around : lexer.enclosing with
  | nil =>
    rw [around, List.length_nil] at length
    omega
  | cons first rest => rfl

theorem Reaches.of_numeral {gap numeral rest : Text} (spaces : ∀ c ∈ gap, c = ' ')
    (written : Numeral numeral) (closes : Closes rest) (tokens : List Token) {depth : Nat}
    (inside : 0 < depth) (allowed : Bool) :
    Reaches ⟨gap ++ (numeral ++ rest), tokens, depth, allowed⟩
      ⟨rest, .scalar .plain numeral :: tokens, depth, false⟩ := by
  have begins : ∃ c more, numeral = c :: more ∧ Begins c := by
    cases written with
    | @digits c more digit chars =>
      have each := of_digits (fun c => decide (Begins c)) (by decide) digit
      exact ⟨c, more, rfl, of_decide_eq_true each⟩
    | @signed c more digit chars => exact ⟨'-', c :: more, rfl, by decide⟩
  obtain ⟨c, more, spelled, begins⟩ := begins
  have front : numeral ++ rest = c :: (more ++ rest) := by rw [spelled, List.cons_append]
  rw [front]
  refine Reaches.of_token gap spaces begins ?_ fun lexer stands => ?_
  · rw [List.length_append]
    exact Nat.le_add_left _ _
  · have ahead : lexer.cursor.rest = numeral ++ rest := stands.rest.trans front.symm
    have read : Scalar.Plain.read? true 0 lexer.cursor =
        some (numeral, ⟨rest, lexer.cursor.place.afterAll numeral⟩, false) := by
      rw [Scalar.Plain.read?, ahead, scan_numeral closes 0 written.chars]
      rfl
    have outside : lexer.indent? = none := by rw [indent?, stands.blocks, List.head?_nil]
    obtain ⟨candidate, saved, loose⟩ := exists_saveCandidate stands.toLoose
    rw [token?_of_numeral (stands.inFlow inside) written ahead]
    refine ⟨_, ?_, at_scalar stands loose (.scalar .plain numeral)
      ⟨rest, lexer.cursor.place.afterAll numeral⟩⟩
    unfold plainScalar?
    rw [saved]
    change (Scalar.Plain.read? lexer.inFlow (lexer.indent?.elim 0 (· + 1)) lexer.cursor).bind _ = _
    rw [stands.inFlow inside, outside]
    change (Scalar.Plain.read? true 0 lexer.cursor).bind _ = _
    rw [read]
    rfl

end Lexer

/-! Texts between double quotes -/

def Spells (piece : Text) (c : Char) : Prop :=
  ∀ (rest : Text) (place : Place) (read : Text),
    Scalar.Quoted.scan true (piece ++ rest) place .empty read =
      Scalar.Quoted.scan true rest (place.afterAll piece) .empty (c :: read)

theorem spells_symbol (c : Char) : Spells (Description.Flow.symbol c) c := by
  intro rest place read
  have length := Description.Flow.length_digits 8 c.toNat
  have value := ofDigits?_digits c
  unfold Description.Flow.symbol
  generalize Description.Flow.digits 8 c.toNat = digits at length value ⊢
  match digits, length with
  | [a, b, c', d, e, f, g, h], _ =>
    simp [Scalar.Quoted.scan, value, isBlank, isBreak, Scalar.Gap.isOpen, Scalar.Gap.empty,
      Scalar.Gap.text]

def isBare (c : Char) : Bool := !isBlank c && !isBreak c && c != '"' && c != '\\'

theorem spells_bare {c : Char} (bare : isBare c = true) : Spells [c] c := by
  intro rest place read
  simp only [isBare, Bool.and_eq_true, Bool.not_eq_true', bne_iff_ne] at bare
  obtain ⟨⟨⟨notBlank, notBreak⟩, notQuote⟩, notEscape⟩ := bare
  simp [Scalar.Quoted.scan, notBlank, notBreak, notQuote, notEscape, Scalar.Gap.isOpen,
    Scalar.Gap.empty, Scalar.Gap.text, Place.afterAll]

theorem scan_spelled {spell : Char → Text} {text : Text} (spells : ∀ c ∈ text, Spells (spell c) c)
    (rest : Text) (place : Place) (read : Text) :
    Scalar.Quoted.scan true (text.flatMap spell ++ '"' :: rest) place .empty read =
      some (read.reverse ++ text,
        ⟨rest, place.afterAll (text.flatMap spell ++ ['"'])⟩) := by
  induction text generalizing place read with
  | nil =>
    simp [Scalar.Quoted.scan, isBlank, isBreak, Scalar.Gap.isOpen, Scalar.Gap.empty,
      Scalar.Gap.text, Place.afterAll]
  | cons c text ih =>
    obtain ⟨here, later⟩ := List.forall_mem_cons.mp spells
    rw [List.flatMap_cons, List.append_assoc, here, ih later]
    simp [Place.afterAll]

def quoted (spell : Char → Text) (text : Text) : Text := '"' :: text.flatMap spell ++ ['"']

theorem read?_quoted {spell : Char → Text} {text : Text} (spells : ∀ c ∈ text, Spells (spell c) c)
    {cursor : Cursor} {rest : Text} (front : cursor.rest = quoted spell text ++ rest) :
    Scalar.Quoted.read? true cursor =
      some (text, ⟨rest, cursor.place.afterAll (quoted spell text)⟩) := by
  have ahead : cursor.advance 1 =
      ⟨text.flatMap spell ++ '"' :: rest, cursor.place.after '"'⟩ := by
    rw [Cursor.advance, front]
    simp [quoted, Place.afterAll]
  rw [Scalar.Quoted.read?, ahead, scan_spelled spells]
  rfl

namespace Lexer

theorem quoted_append (spell : Char → Text) (text rest : Text) :
    quoted spell text ++ rest = '"' :: (text.flatMap spell ++ '"' :: rest) := by
  simp [quoted]

/-- The token of a text between double quotes, wherever it may stand. -/
theorem token?_of_quoted {lexer : Lexer} {spell : Char → Text} {text rest : Text}
    (spells : ∀ c ∈ text, Spells (spell c) c)
    (front : lexer.cursor.rest = quoted spell text ++ rest) {candidate : Option Candidate}
    (saved : lexer.saveCandidate? = some { lexer with candidate }) :
    lexer.token? = some (emit (allowKey { lexer with candidate } false) (.scalar .quoted text)
      ⟨rest, lexer.cursor.place.afterAll (quoted spell text)⟩) := by
  have quote := front.trans (quoted_append spell text rest)
  rw [token?_of_indicated quote rfl, quotedScalar?, saved]
  change (Scalar.Quoted.read? true lexer.cursor).bind _ = _
  rw [read?_quoted spells front]
  rfl

theorem Reaches.of_quoted {gap : Text} (spaces : ∀ c ∈ gap, c = ' ') {spell : Char → Text}
    {text : Text} (spells : ∀ c ∈ text, Spells (spell c) c) (rest : Text) (tokens : List Token)
    (depth : Nat) (allowed : Bool) :
    Reaches ⟨gap ++ (quoted spell text ++ rest), tokens, depth, allowed⟩
      ⟨rest, .scalar .quoted text :: tokens, depth, false⟩ := by
  rw [quoted_append]
  refine Reaches.of_token gap spaces (by decide) ?_ fun lexer stands => ?_
  · change rest.length ≤ _
    rw [List.length_append, List.length_cons]
    omega
  · obtain ⟨candidate, saved, loose⟩ := exists_saveCandidate stands.toLoose
    have front := stands.rest.trans (quoted_append spell text rest).symm
    exact ⟨_, token?_of_quoted spells front saved, at_scalar stands loose _ _⟩

theorem line_afterAll (place : Place) (text : Text) : (place.afterAll text).line = place.line := by
  induction text generalizing place with
  | nil => rfl
  | cons c rest ih => exact ih (place.after c)

/-- A candidate is fresh behind a text that has no break and is no longer than a key may be. -/
theorem isStale_afterAll {text : Text} (short : (Text.Utf8.encode text).length ≤ 1024)
    (tokensBefore : Nat) (place : Place) (required : Bool) :
    (Candidate.mk tokensBefore place required).isStale (place.afterAll text) = false := by
  have line := line_afterAll place text
  have octets := Place.octets_afterAll place text
  simp only [Candidate.isStale, line, octets, Bool.or_eq_false_iff, decide_eq_false_iff_not]
  omega

theorem token?_colon {lexer : Lexer} (inFlow : lexer.inFlow = true) {rest : Text}
    (front : lexer.cursor.rest = ':' :: rest) : lexer.token? = lexer.value? := by
  simp [token?, front, Cursor.atDocumentMark, startsWithDocumentMark, inFlow]

/-- A colon behind a single token makes a key of it. -/
theorem exists_value {lexer : Lexer} {token : Token} {rest : Text} {tokens : List Token}
    {depth : Nat} {allowed : Bool}
    (stands : At lexer ⟨':' :: rest, token :: tokens, depth, allowed⟩) (inside : 0 < depth)
    {place : Place} (candidate : lexer.candidate = some ⟨tokens.length, place, false⟩) :
    ∃ next, lexer.value? = some next ∧
      At next ⟨rest, .value :: token :: .key :: tokens, depth, false⟩ := by
  have behind : lexer.tokens = token :: tokens := stands.tokens
  have opens : lexer.opensBlock place.column = false := by
    rw [opensBlock, stands.inFlow inside]
    rfl
  have confirmed : lexer.confirm ⟨tokens.length, place, false⟩ =
      { lexer with tokens := token :: .key :: tokens, candidate := none } := by
    simp [confirm, opens, behind]
  have announced : lexer.value? =
      some (emit (allowKey
        { lexer with tokens := token :: .key :: tokens, candidate := none } false) .value
        (lexer.cursor.advance 1)) := by
    rw [value?, candidate]
    simp only [confirmed]
  exact ⟨_, announced, ⟨stands.blocks, nofun, stands.enclosing⟩, stands.rest_advance, rfl,
    stands.depth, rfl⟩

theorem Reaches.of_key {gap : Text} (spaces : ∀ c ∈ gap, c = ' ') {spell : Char → Text}
    {text : Text} (spells : ∀ c ∈ text, Spells (spell c) c)
    (short : (Text.Utf8.encode (quoted spell text)).length ≤ 1024) (rest : Text)
    (tokens : List Token) {depth : Nat} (inside : 0 < depth) :
    Reaches ⟨gap ++ (quoted spell text ++ ':' :: rest), tokens, depth, true⟩
      ⟨rest, .value :: .scalar .quoted text :: .key :: tokens, depth, false⟩ := by
  intro lexer stands
  rw [quoted_append] at stands
  obtain ⟨settled, settles, front, _⟩ := exists_settle gap stands spaces (by decide)
  have ahead := front.rest.trans (quoted_append spell text (':' :: rest)).symm
  have saved := saveCandidate?_of_allowed front.toLoose front.allowed
  have moves := token?_of_quoted spells ahead saved
  have loose : Loose { settled with
      candidate := some ⟨settled.tokens.length, settled.cursor.place, false⟩ } :=
    ⟨front.blocks, fun _ same => by cases same; rfl, front.enclosing⟩
  have behind := at_scalar front loose (.scalar .quoted text)
    ⟨':' :: rest, settled.cursor.place.afterAll (quoted spell text)⟩
  -- The key that may be one is still fresh when the colon comes.
  obtain ⟨again, settles', colon, _, fresh⟩ :=
    exists_settle [] behind nofun (by decide)
  have candidate : again.candidate =
      some ⟨tokens.length, settled.cursor.place, false⟩ := by
    have kept := fresh (isStale_afterAll short _ _ _)
    rw [kept]
    exact congrArg (fun length => some (Candidate.mk length settled.cursor.place false))
      (congrArg List.length front.tokens)
  obtain ⟨next, announces, stands'⟩ := exists_value colon inside candidate
  have colonMoves := (token?_colon (colon.inFlow inside) colon.rest).trans announces
  refine ⟨next, ?_, stands'⟩
  rw [run?_eq settles front (List.cons_ne_nil _ _) moves ?_,
    run?_eq settles' colon (List.cons_ne_nil _ _) colonMoves ?_]
  · rw [stands'.rest]
    change rest.length < rest.length + 1
    omega
  · change (':' :: rest).length < _
    rw [stands.rest]
    change rest.length + 1 < (gap ++ '"' :: (text.flatMap spell ++ '"' :: ':' :: rest)).length
    simp only [List.length_append, List.length_cons]
    omega

end Lexer

end Acceptor.Yaml
