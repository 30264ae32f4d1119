import Acceptor.Command.Response
import Acceptor.Proofs.Json.Grammar
/-!
What is written in JSON reads back. Each piece spells the tokens that it stands for, whatever blanks
are between the pieces, so that verdicts denote the same list on one line as in lines of their own.
-/
namespace Acceptor

namespace Json

/-! Texts that spell tokens -/

/-- Whether a text begins, and with a character that does not go on a word in front of it. -/
def cutsWord : Text → Bool
  | [] => false
  | c :: _ => !isWordChar c

/-- A text spells tokens if, when it is read between tokens and up to a character that does not go
on a word, the reading comes to that character as it does behind the tokens. -/
def Spells (text : Text) (tokens : List Token) : Prop :=
  ∀ (done : List Token) (c : Char), isWordChar c = false →
    (text ++ [c]).foldlM Reading.take? ⟨done, .between⟩ =
      Reading.take? ⟨done ++ tokens, .between⟩ c

theorem cutsWord_of_structural {c : Char} {token : Token} (named : structural? c = some token)
    (rest : Text) : cutsWord (c :: rest) = true := by
  unfold structural? at named
  split at named
  iterate 6 rfl
  cases named

theorem cutsWord_of_blank {c : Char} (blank : isBlank c = true) (rest : Text) :
    cutsWord (c :: rest) = true := by
  simp only [isBlank, Bool.or_eq_true, beq_iff_eq] at blank
  rcases blank with ((rfl | rfl) | rfl) | rfl <;> rfl

theorem spells_nil : Spells [] [] := by
  intro done c _
  rw [List.nil_append, List.append_nil, List.foldlM_cons]
  exact bind_pure _

theorem Spells.append {before after : Text} {first second : List Token}
    (one : Spells before first) (two : Spells after second) (cuts : cutsWord after = true) :
    Spells (before ++ after) (first ++ second) := by
  cases after with
  | nil => cases cuts
  | cons next rest =>
    intro done c ends
    have early := one done next (by simpa [cutsWord] using cuts)
    calc (before ++ next :: rest ++ [c]).foldlM Reading.take? ⟨done, .between⟩
      _ = (before ++ [next] ++ (rest ++ [c])).foldlM Reading.take? ⟨done, .between⟩ := by simp
      _ = (Reading.take? ⟨done ++ first, .between⟩ next).bind
          fun reading => (rest ++ [c]).foldlM Reading.take? reading := by
        rw [List.foldlM_append, early]
        rfl
      _ = (next :: rest ++ [c]).foldlM Reading.take? ⟨done ++ first, .between⟩ := rfl
      _ = Reading.take? ⟨done ++ (first ++ second), .between⟩ c := by
        rw [two _ _ ends, List.append_assoc]

/-- A character that is read at once may stand before any text. -/
theorem Spells.cons {c : Char} {text : Text} {first second : List Token}
    (one : ∀ done, begin? done c = some ⟨done ++ first, .between⟩) (two : Spells text second) :
    Spells (c :: text) (first ++ second) := by
  intro done next ends
  rw [List.cons_append, List.foldlM_cons]
  change (begin? done c).bind _ = _
  rw [one, Option.bind_some, two _ _ ends, List.append_assoc]

theorem begin?_of_structural {c : Char} {token : Token} (named : structural? c = some token)
    (done : List Token) : begin? done c = some ⟨done ++ [token], .between⟩ := by
  unfold structural? at named
  split at named
  iterate 6
    · cases named
      rfl
  · cases named

theorem Spells.structural {c : Char} {token : Token} {text : Text} {tokens : List Token}
    (named : structural? c = some token) (rest : Spells text tokens) :
    Spells (c :: text) (token :: tokens) :=
  Spells.cons (begin?_of_structural named) rest

theorem Spells.blanks {blanks text : Text} {tokens : List Token}
    (blank : ∀ c ∈ blanks, isBlank c = true) (rest : Spells text tokens) :
    Spells (blanks ++ text) tokens := by
  induction blanks with
  | nil => exact rest
  | cons c blanks ih =>
    obtain ⟨here, later⟩ := List.forall_mem_cons.mp blank
    have skips (done : List Token) : begin? done c = some ⟨done ++ [], .between⟩ := by
      rw [begin?, if_pos here, List.append_nil]
    exact Spells.cons skips (ih later)

theorem Spells.feed {text : Text} {tokens : List Token} (spelled : Spells text tokens) :
    Spells (text ++ ['\n']) tokens := by
  have feed : Spells ['\n'] [] :=
    @Spells.blanks ['\n'] [] _ (List.forall_mem_singleton.mpr rfl) spells_nil
  have both := spelled.append feed rfl
  rwa [List.append_nil] at both

/-- A blank ends what a text may end with, and changes nothing else. -/
theorem Reading.tokens?_of_take? {reading : Reading} {tokens : List Token}
    (taken : reading.take? ' ' = some ⟨tokens, .between⟩) : reading.tokens? = some tokens := by
  obtain ⟨done, mode⟩ := reading
  cases mode with
  | between =>
    cases taken
    rfl
  | word letters =>
    change (ofWord? letters).bind _ = _ at taken
    obtain ⟨scalar, meant, rest⟩ := Option.bind_eq_some_iff.mp taken
    cases rest
    change (ofWord? letters).map _ = _
    rw [meant]
    rfl
  | string chars => cases taken
  | escape chars high =>
    cases high with
    | none => cases taken
    | some high => cases taken
  | unit chars high digits =>
    -- A blank is no digit.
    have outside : Yaml.hexadecimal? (digits ++ [' ']) = none := by
      rw [Yaml.hexadecimal?, List.foldlM_append]
      cases digits.foldlM (fun value c => (Yaml.hexDigit? c).map (value * 16 + ·)) 0 <;> rfl
    simp only [Reading.take?, outside] at taken
    split at taken
    next => cases taken
    next => cases taken
  | halfway chars high => cases taken

theorem Spells.tokens? {text : Text} {tokens : List Token} (spelled : Spells text tokens) :
    tokens? text = some tokens := by
  have read := spelled [] ' ' rfl
  rw [List.foldlM_append] at read
  obtain ⟨reading, reached, taken⟩ := Option.bind_eq_some_iff.mp read
  have last : reading.take? ' ' = some ⟨tokens, .between⟩ := by
    rw [List.foldlM_cons] at taken
    exact (bind_pure (reading.take? ' ')).symm.trans taken
  change (text.foldlM Reading.take? ⟨[], .between⟩).bind Reading.tokens? = _
  rw [reached]
  exact Reading.tokens?_of_take? last

/-! Scalars -/

theorem spells_truth (value : Bool) : Spells (truth value) [.scalar (.truth value)] := by
  intro done c ends
  have last (letters : Text) (scalar : Scalar) (meant : ofWord? letters = some scalar) :
      Reading.take? ⟨done, .word letters⟩ c =
        Reading.take? ⟨done ++ [.scalar scalar], .between⟩ c := by
    simp [Reading.take?, ends, meant]
  cases value with
  | false =>
    exact (bind_pure _).trans (last "false".toList (.truth false) (by decide))
  | true => exact (bind_pure _).trans (last "true".toList (.truth true) (by decide))

theorem control_digits : ∀ n < 32,
    (Nat.toDigits 16 n).leftpad 4 '0' = ['0', '0', Nat.digitChar (n / 16), Nat.digitChar (n % 16)] ∧
    Yaml.hexadecimal? ['0', '0', Nat.digitChar (n / 16), Nat.digitChar (n % 16)] = some n := by
  decide

theorem foldlM_codeUnit (done : List Token) (chars : Text) (a b c d : Char) :
    ['\\', 'u', a, b, c, d].foldlM Reading.take? ⟨done, .string chars⟩ =
      ((Yaml.hexadecimal? [a, b, c, d]).bind (unit? chars none)).map fun mode => ⟨done, mode⟩ := by
  let mode? := (Yaml.hexadecimal? [a, b, c, d]).bind (unit? chars none)
  exact bind_pure (mode?.map fun mode => (⟨done, mode⟩ : Reading))

/-- In a string, the form of a character is read as this character. -/
theorem foldlM_escaped (done : List Token) (chars : Text) (c : Char) :
    (escaped c).foldlM Reading.take? ⟨done, .string chars⟩ =
      some ⟨done, .string (chars ++ [c])⟩ := by
  unfold escaped
  split
  iterate 7 rfl
  next notQuote notBackslash _ _ _ _ _ =>
    split
    next control =>
      have small : c.toNat < 32 := control
      obtain ⟨spelled, value⟩ := control_digits c.toNat small
      have meant : unit? chars none c.toNat = some (.string (chars ++ [c])) := by
        rw [unit?, if_neg (by omega), if_neg (by omega), Char.ofNat_toNat]
      rw [spelled]
      refine (foldlM_codeUnit ..).trans ?_
      rw [value, Option.bind_some, meant]
      rfl
    next printable =>
      have taken : Reading.take? ⟨done, .string chars⟩ c =
          some ⟨done, .string (chars ++ [c])⟩ := by
        unfold Reading.take?
        exact (if_neg notQuote).trans ((if_neg notBackslash).trans (if_neg printable))
      exact (bind_pure _).trans taken

theorem spells_string (text : Text) : Spells (string text) [.scalar (.string text)] := by
  have inside (done : List Token) (text chars : Text) :
      (text.flatMap escaped).foldlM Reading.take? ⟨done, .string chars⟩ =
        some ⟨done, .string (chars ++ text)⟩ := by
    induction text generalizing chars with
    | nil =>
      rw [List.append_nil]
      rfl
    | cons c rest ih =>
      rw [List.flatMap_cons, List.foldlM_append, foldlM_escaped]
      have later := ih (chars ++ [c])
      rwa [List.append_assoc, List.singleton_append] at later
  intro done next _
  change (text.flatMap escaped ++ ['"'] ++ [next]).foldlM Reading.take? ⟨done, .string []⟩ = _
  rw [List.append_assoc, List.foldlM_append, inside]
  exact @bind_pure Option Reading _ _ _

/-! Collections -/

theorem itemTokens_eq (items : List Value) :
    itemTokens items = [.comma].intercalate (items.map Value.tokens) ++ [.closeList] := by
  induction items with
  | nil => simp [itemTokens]
  | cons first rest ih =>
    cases rest with
    | nil => simp [itemTokens, furtherItems]
    | cons second rest =>
      rw [itemTokens] at ih
      rw [itemTokens, furtherItems, ih]
      simp

def Value.field (name : Text) (value : Value) : List Token :=
  .scalar (.string name) :: .colon :: value.tokens

theorem fieldTokens_eq (fields : List (Text × Value)) :
    fieldTokens fields =
      [.comma].intercalate (fields.map fun field => field.2.field field.1) ++ [.closeRecord] := by
  induction fields with
  | nil => simp [fieldTokens]
  | cons first rest ih =>
    cases rest with
    | nil => simp [fieldTokens, furtherFields, Value.field]
    | cons second rest =>
      rw [fieldTokens] at ih
      rw [fieldTokens, furtherFields, ih]
      simp [Value.field]

section Parts

variable {α : Type} {parts : List α} {write : α → Text} {meant : α → List Token}

theorem spells_joined {blanks : Text} (blank : ∀ c ∈ blanks, isBlank c = true)
    (spelled : ∀ part ∈ parts, Spells (write part) (meant part)) :
    Spells (Text.joined (',' :: blanks) (parts.map write))
      ([.comma].intercalate (parts.map meant)) := by
  induction parts with
  | nil => exact spells_nil
  | cons first rest ih =>
    obtain ⟨here, later⟩ := List.forall_mem_cons.mp spelled
    cases rest with
    | nil => simpa [Text.joined] using here
    | cons second rest =>
      have comma : structural? ',' = some .comma := rfl
      have others := Spells.structural comma (Spells.blanks blank (ih later))
      have both := here.append others rfl
      simpa [Text.joined] using both

/-- Parts between an opening and a closing character, with blanks anywhere around them. -/
theorem spells_collection {opening closing : Char} {start stop : Token}
    (opens : structural? opening = some start) (closes : structural? closing = some stop)
    {before between after : Text} (blankBefore : ∀ c ∈ before, isBlank c = true)
    (blankBetween : ∀ c ∈ between, isBlank c = true) (blankAfter : ∀ c ∈ after, isBlank c = true)
    (spelled : ∀ part ∈ parts, Spells (write part) (meant part)) :
    Spells
      (opening :: before ++ Text.joined (',' :: between) (parts.map write) ++ after ++ [closing])
      (start :: ([.comma].intercalate (parts.map meant) ++ [stop])) := by
  have last : Spells (after ++ [closing]) [stop] :=
    Spells.blanks blankAfter (Spells.structural closes spells_nil)
  have cuts : cutsWord (after ++ [closing]) = true := by
    cases after with
    | nil => exact cutsWord_of_structural closes []
    | cons c after => exact cutsWord_of_blank (blankAfter c List.mem_cons_self) _
  have body := Spells.blanks blankBefore ((spells_joined blankBetween spelled).append last cuts)
  have whole := Spells.structural opens body
  simpa using whole

end Parts

theorem blank_newLine (levels : Nat) : ∀ c ∈ newLine levels, isBlank c = true := by
  intro c listed
  rcases List.mem_cons.mp listed with rfl | space
  · rfl
  · rw [List.eq_of_mem_replicate space]
    rfl

theorem spells_field {gap : Text} (blank : ∀ c ∈ gap, isBlank c = true) (name : Text) {text : Text}
    {value : Value} (spelled : Spells text value.tokens) :
    Spells (string name ++ (':' :: gap) ++ text) (value.field name) := by
  have colon : structural? ':' = some .colon := rfl
  have behind := Spells.structural colon (Spells.blanks blank spelled)
  have both := (spells_string name).append behind rfl
  rwa [← List.cons_append, ← List.append_assoc] at both

section Values

variable {α : Type} {parts : List α} {name write : α → Text} {value : α → Value}

theorem spells_compactList (spelled : ∀ part ∈ parts, Spells (write part) (value part).tokens) :
    Spells (compactList (parts.map write)) (Value.list (parts.map value)).tokens := by
  have whole := @spells_collection α parts write _ '[' ']' .openList .closeList rfl rfl [] [] []
    nofun nofun nofun spelled
  rw [Value.tokens, itemTokens_eq, List.map_map]
  simpa [compactList, Function.comp_def] using whole

theorem spells_compactRecord (spelled : ∀ part ∈ parts, Spells (write part) (value part).tokens) :
    Spells (compactRecord (parts.map fun part => (name part, write part)))
      (Value.record (parts.map fun part => (name part, value part))).tokens := by
  have fields (part : α) (listed : part ∈ parts) :=
    @spells_field [] nofun (name part) _ _ (spelled part listed)
  have whole := @spells_collection α parts _ _ '{' '}' .openRecord .closeRecord rfl rfl [] [] []
    nofun nofun nofun fields
  rw [Value.tokens, fieldTokens_eq, List.map_map]
  simpa [compactRecord, Function.comp_def] using whole

theorem spells_indentedList (levels : Nat)
    (spelled : ∀ part ∈ parts, Spells (write part) (value part).tokens) :
    Spells (indentedList levels (parts.map write)) (Value.list (parts.map value)).tokens := by
  rw [Value.tokens, itemTokens_eq, List.map_map]
  unfold indentedList
  split
  next empty =>
    cases parts with
    | nil => exact Spells.structural rfl (Spells.structural rfl spells_nil)
    | cons part rest => cases empty
  next =>
    exact spells_collection rfl rfl (blank_newLine (levels + 1)) (blank_newLine (levels + 1))
      (blank_newLine levels) spelled

theorem spells_indentedRecord (levels : Nat)
    (spelled : ∀ part ∈ parts, Spells (write part) (value part).tokens) :
    Spells (indentedRecord levels (parts.map fun part => (name part, write part)))
      (Value.record (parts.map fun part => (name part, value part))).tokens := by
  rw [Value.tokens, fieldTokens_eq, List.map_map]
  unfold indentedRecord
  split
  next empty =>
    cases parts with
    | nil => exact Spells.structural rfl (Spells.structural rfl spells_nil)
    | cons part rest => cases empty
  next =>
    have fields (part : α) (listed : part ∈ parts) :=
      @spells_field [' '] (List.forall_mem_singleton.mpr rfl) (name part) _ _ (spelled part listed)
    rw [List.map_map]
    exact spells_collection rfl rfl (blank_newLine (levels + 1)) (blank_newLine (levels + 1))
      (blank_newLine levels) fields

end Values

end Json

namespace Verdict

open Json (Denotes Spells)

def written (verdict : Verdict) : List (Text × Text × Json.Value) :=
  [("word".toList, Json.string verdict.word, .scalar (.string verdict.word)),
    ("accepted".toList, Json.truth verdict.accepted, .scalar (.truth verdict.accepted))]

def value (verdict : Verdict) : Json.Value :=
  .record (verdict.written.map fun field => (field.1, field.2.2))

theorem spells_written (verdict : Verdict) :
    ∀ field ∈ verdict.written, Spells field.2.1 field.2.2.tokens := by
  refine List.forall_mem_cons.mpr ⟨?_, List.forall_mem_singleton.mpr ?_⟩
  · rw [Json.Value.tokens]
    exact Json.spells_string verdict.word
  · rw [Json.Value.tokens]
    exact Json.spells_truth verdict.accepted

theorem spells_compactRecord (verdict : Verdict) :
    Spells (Json.compactRecord verdict.fields) verdict.value.tokens :=
  @Json.spells_compactRecord _ verdict.written Prod.fst (·.2.1) (·.2.2) verdict.spells_written

theorem spells_indentedRecord (verdict : Verdict) :
    Spells (Json.indentedRecord 1 verdict.fields) verdict.value.tokens :=
  @Json.spells_indentedRecord _ verdict.written Prod.fst (·.2.1) (·.2.2) 1 verdict.spells_written

theorem spells_compact (verdicts : List Verdict) :
    Spells (compact verdicts) (Json.Value.list (verdicts.map value)).tokens :=
  Json.spells_compactList fun verdict _ => verdict.spells_compactRecord

theorem spells_indented (verdicts : List Verdict) :
    Spells (indented verdicts) (Json.Value.list (verdicts.map value)).tokens :=
  Json.spells_indentedList 0 fun verdict _ => verdict.spells_indentedRecord

theorem spells_verdictLine (world : Command.World) (table : Table) (compact : Bool)
    (words : List Text) :
    Spells (Command.Invocation.verdictLine world table compact words)
      (Json.Value.list ((ofWords table words).map value)).tokens := by
  unfold Command.Invocation.verdictLine
  split
  next => exact (spells_indented (ofWords table words)).feed
  next => exact (spells_compact (ofWords table words)).feed

/-- Verdicts on one line, verdicts in lines of their own and the answer to a request for verdicts
denote one and the same list and nothing else: for each word, in the order of the words, a record of
the word itself and of whether the table recognizes it. -/
theorem verdicts_read_back (table : Table) (words : List Text) (world : Command.World)
    (palette : Palette) (onOneLine : Bool) {given : List Text}
    (asked : (if given.isEmpty then world.words else .ok given) = .ok words) :
    let listed : Json.Value := .list (words.map fun word =>
      .record [("word".toList, .scalar (.string word)),
        ("accepted".toList, .scalar (.truth (table.recognizes word)))])
    (∀ value, Denotes (compact (ofWords table words)) value ↔ value = listed) ∧
    (∀ value, Denotes (indented (ofWords table words)) value ↔ value = listed) ∧
    ∃ output,
      Command.Invocation.perform world palette table (.exec given onOneLine) = .success output ∧
      ∀ value, Denotes output value ↔ value = listed := by
  intro listed
  have same : listed = .list ((ofWords table words).map value) := by
    rw [ofWords, List.map_map]
    rfl
  have denotes {text : Text}
      (spelled : Spells text (Json.Value.list ((ofWords table words).map value)).tokens) :
      ∀ value, Denotes text value ↔ value = listed := by
    intro value
    have read : Denotes text listed := same ▸ spelled.tokens?
    exact ⟨fun other => other.unique read, fun equal => equal ▸ read⟩
  refine ⟨denotes (spells_compact _), denotes (spells_indented _), _, ?_,
    denotes (spells_verdictLine world table onOneLine words)⟩
  simp only [Command.Invocation.perform, asked]

/-- On a terminal: a word that is accepted, twice, around one that has to be escaped and the empty
one. -/
theorem verdicts_read_back_on_terminal :
    let table : Table := ⟨2, 0, [1], [('a', [1, 0])]⟩
    let world : Command.World := ⟨[], fun _ => .error .missing, true, true, fun _ => []⟩
    let words : List Text := [['a'], ['"', '\\', '\x1f', '\n', '😀'], [], ['a']]
    let verdict (word : Text) (accepted : Bool) : Json.Value :=
      .record [("word".toList, .scalar (.string word)),
        ("accepted".toList, .scalar (.truth accepted))]
    ∃ output,
      Command.Invocation.perform world (.choose true) table (.exec words false) =
        .success output ∧
      ∀ value, Denotes output value ↔
        value = .list [verdict ['a'] true, verdict ['"', '\\', '\x1f', '\n', '😀'] false,
          verdict [] false, verdict ['a'] true] := by
  intro table world words verdict
  exact (verdicts_read_back table words world (.choose true) false rfl).2.2

end Verdict

end Acceptor
