import Acceptor.Proofs.Fallible
import Acceptor.Yaml.Token.Lexer
/-!
What a lexer does where no block is open and no candidate has to be a key, as it is everywhere in a
document on one line between brackets. A token is read in two moves, up to its beginning and past
it, and each leaves the lexer in such a place again.
-/
namespace Acceptor.Yaml.Lexer

/-- No block is open, and nothing that may turn out to be a key has to be one. -/
structure Loose (lexer : Lexer) : Prop where
  blocks : lexer.blocks = []
  candidate : ∀ candidate, lexer.candidate = some candidate → candidate.required = false
  enclosing : ∀ candidate, some candidate ∈ lexer.enclosing → candidate.required = false

/-- A stage of a text: what lies ahead, the tokens behind, newest first, the number of collections
around, and whether a key may begin. -/
structure Stage where
  rest : Text
  tokens : List Token
  depth : Nat
  allowed : Bool

structure At (lexer : Lexer) (stage : Stage) : Prop extends Loose lexer where
  rest : lexer.cursor.rest = stage.rest
  tokens : lexer.tokens = stage.tokens
  depth : lexer.enclosing.length = stage.depth
  allowed : lexer.keyAllowed = stage.allowed

/-- The run from one stage leads to another: what it gives is decided there. -/
def Reaches (stage later : Stage) : Prop :=
  ∀ lexer : Lexer, At lexer stage → ∃ next : Lexer, lexer.run? = next.run? ∧ At next later

theorem Reaches.refl (stage : Stage) : Reaches stage stage := fun lexer stands =>
  ⟨lexer, rfl, stands⟩

theorem Reaches.trans {first second third : Stage} (earlier : Reaches first second)
    (later : Reaches second third) : Reaches first third := by
  intro lexer stands
  obtain ⟨next, same, stands⟩ := earlier lexer stands
  obtain ⟨last, same', stands⟩ := later next stands
  exact ⟨last, same.trans same', stands⟩

theorem At.rest_advance {lexer : Lexer} {c : Char} {rest : Text} {tokens : List Token}
    {depth : Nat} {allowed : Bool} (stands : At lexer ⟨c :: rest, tokens, depth, allowed⟩) :
    (lexer.cursor.advance 1).rest = rest := by
  change lexer.cursor.rest.drop 1 = rest
  rw [stands.rest]
  rfl

/-! Giving up candidates -/

theorem giveUp?_of_not_required {candidate : Option Candidate}
    (loose : ∀ found, candidate = some found → found.required = false) :
    giveUp? candidate = some none := by
  cases candidate with
  | none => rfl
  | some found => simp [giveUp?, loose found rfl]

theorem dropCandidate?_of_loose {lexer : Lexer} (loose : Loose lexer) :
    lexer.dropCandidate? = some { lexer with candidate := none } := by
  rw [dropCandidate?, giveUp?_of_not_required loose.candidate]
  rfl

/-- What remains of candidates when the stale ones are given up. -/
def keep (place : Place) (candidate : Option Candidate) : Option (Option Candidate) :=
  if candidate.any (·.isStale place) then giveUp? candidate else some candidate

theorem exists_keep (place : Place) {candidate : Option Candidate}
    (loose : ∀ found, candidate = some found → found.required = false) :
    ∃ kept, keep place candidate = some kept ∧ (kept = none ∨ kept = candidate) ∧
      (candidate.any (·.isStale place) = false → kept = candidate) := by
  unfold keep
  by_cases stale : candidate.any (·.isStale place) = true
  · rw [if_pos stale, giveUp?_of_not_required loose]
    refine ⟨none, rfl, .inl rfl, fun fresh => ?_⟩
    rw [stale] at fresh
    cases fresh
  · rw [if_neg stale]
    exact ⟨candidate, rfl, .inr rfl, fun _ => rfl⟩

theorem exists_mapM_keep (place : Place) {enclosing : List (Option Candidate)}
    (loose : ∀ found, some found ∈ enclosing → found.required = false) :
    ∃ kept, enclosing.mapM (keep place) = some kept ∧ kept.length = enclosing.length ∧
      ∀ found, some found ∈ kept → found.required = false := by
  induction enclosing with
  | nil => exact ⟨[], rfl, rfl, fun _ member => nomatch member⟩
  | cons first rest ih =>
    have looseHere : ∀ found, first = some found → found.required = false := fun found same =>
      loose found (same ▸ List.mem_cons_self)
    obtain ⟨kept, here, cases, _⟩ := exists_keep place looseHere
    obtain ⟨later, rest, length, looseLater⟩ := ih fun found member =>
      loose found (List.mem_cons_of_mem _ member)
    refine ⟨kept :: later, ?_, congrArg (· + 1) length, ?_⟩
    · rw [List.mapM_cons, here, rest]
      rfl
    · intro found member
      rcases List.mem_cons.mp member with same | member
      · rcases cases with none | keeps
        · rw [none] at same
          cases same
        · exact looseHere found (keeps ▸ same.symm)
      · exact looseLater found member

/-- Giving up stale candidates changes nothing but candidates, and spares those that are fresh. -/
theorem exists_dropStale {lexer : Lexer} (loose : Loose lexer) :
    ∃ candidate enclosing,
      lexer.dropStale? = some { lexer with candidate, enclosing } ∧
      enclosing.length = lexer.enclosing.length ∧
      Loose { lexer with candidate, enclosing } ∧
      (lexer.candidate.any (·.isStale lexer.cursor.place) = false →
        candidate = lexer.candidate) := by
  obtain ⟨candidate, here, cases, fresh⟩ := exists_keep lexer.cursor.place loose.candidate
  obtain ⟨enclosing, around, length, looseAround⟩ :=
    exists_mapM_keep lexer.cursor.place loose.enclosing
  refine ⟨candidate, enclosing, ?_, length, ⟨loose.blocks, ?_, looseAround⟩, fresh⟩
  · change (keep lexer.cursor.place lexer.candidate).bind (fun candidate =>
      (lexer.enclosing.mapM (keep lexer.cursor.place)).bind fun enclosing =>
        some { lexer with candidate, enclosing }) = _
    rw [here, around]
    rfl
  · intro found same
    rcases cases with none | keeps
    · rw [show candidate = Option.none from none] at same
      cases same
    · exact loose.candidate found (keeps ▸ same)

/-! Up to a token -/

def Begins (c : Char) : Prop := c ≠ '\uFEFF' ∧ isBlank c = false ∧ isBreak c = false ∧ c ≠ '#'

instance (c : Char) : Decidable (Begins c) := inferInstanceAs (Decidable (_ ∧ _))

theorem pastGap_spaces {gap : Text} (spaces : ∀ c ∈ gap, c = ' ') (inFlow : Bool) (rest : Text)
    (place : Place) (allowed : Bool) :
    Cursor.pastGap inFlow (gap ++ rest) place allowed =
      Cursor.pastGap inFlow rest (place.afterAll gap) allowed := by
  induction gap generalizing place with
  | nil => rfl
  | cons c gap ih =>
    obtain ⟨rfl, later⟩ := List.forall_mem_cons.mp spaces
    have step : Cursor.pastGap inFlow (' ' :: (gap ++ rest)) place allowed =
        Cursor.pastGap inFlow (gap ++ rest) (place.after ' ') allowed := by
      simp [Cursor.pastGap]
    exact step.trans (ih later (place.after ' '))

theorem closeBlocks_of_loose {lexer : Lexer} (loose : Loose lexer) (deeper : Nat → Bool) :
    lexer.closeBlocks deeper = lexer := by
  unfold closeBlocks
  split
  · rfl
  · rw [loose.blocks]
    have same := loose.blocks
    cases lexer
    simp only at same
    rw [same]
    rfl

theorem settle?_eq {lexer : Lexer} {cursor : Cursor} {allowed : Bool} (loose : Loose lexer)
    (past : Cursor.pastGap lexer.inFlow lexer.cursor.rest lexer.cursor.place lexer.keyAllowed =
      (cursor, allowed)) :
    ∃ settled, lexer.settle? = some settled ∧ Loose settled ∧ settled.cursor = cursor ∧
      settled.tokens = lexer.tokens ∧ settled.enclosing.length = lexer.enclosing.length ∧
      settled.keyAllowed = allowed ∧
      (lexer.candidate.any (·.isStale cursor.place) = false →
        settled.candidate = lexer.candidate) := by
  have moved : Loose { lexer with cursor, keyAllowed := allowed } :=
    ⟨loose.blocks, loose.candidate, loose.enclosing⟩
  obtain ⟨candidate, enclosing, dropped, length, kept, fresh⟩ := exists_dropStale moved
  refine ⟨{ lexer with cursor, keyAllowed := allowed, candidate, enclosing }, ?_, kept, rfl, rfl,
    length, rfl, fresh⟩
  unfold settle?
  rw [past]
  change (dropStale? { lexer with cursor, keyAllowed := allowed }).bind _ = _
  rw [dropped, Option.bind_some]
  exact congrArg some (closeBlocks_of_loose kept _)

/-- The way to a token leads over spaces only, and a fresh candidate survives it. -/
theorem exists_settle {lexer : Lexer} (gap : Text) {rest : Text} {c : Char} {tokens : List Token}
    {depth : Nat} {allowed : Bool} (stands : At lexer ⟨gap ++ c :: rest, tokens, depth, allowed⟩)
    (spaces : ∀ c ∈ gap, c = ' ') (begins : Begins c) :
    ∃ settled, lexer.settle? = some settled ∧ At settled ⟨c :: rest, tokens, depth, allowed⟩ ∧
      settled.cursor.place = lexer.cursor.place.afterAll gap ∧
      (lexer.candidate.any (·.isStale (lexer.cursor.place.afterAll gap)) = false →
        settled.candidate = lexer.candidate) := by
  obtain ⟨notMark, notBlank, notBreak, notComment⟩ := begins
  have past : Cursor.pastGap lexer.inFlow lexer.cursor.rest lexer.cursor.place lexer.keyAllowed =
      (⟨c :: rest, lexer.cursor.place.afterAll gap⟩, allowed) := by
    rw [stands.rest, stands.allowed, pastGap_spaces spaces,
      Cursor.pastGap_of_token rest _ _ notMark notBlank notBreak notComment]
  obtain ⟨settled, settles, loose, cursor, tokens, depth, keyAllowed, fresh⟩ :=
    settle?_eq stands.toLoose past
  exact ⟨settled, settles,
    { loose with
      rest := by rw [cursor]
      tokens := tokens.trans stands.tokens
      depth := depth.trans stands.depth
      allowed := keyAllowed },
    by rw [cursor], fresh⟩

/-! Past a token -/

theorem run?_eq {lexer settled next : Lexer} {stage : Stage}
    (settles : lexer.settle? = some settled) (stands : At settled stage)
    (something : stage.rest ≠ []) (moves : settled.token? = some next)
    (shorter : next.cursor.rest.length < lexer.cursor.rest.length) : lexer.run? = next.run? := by
  have more : settled.cursor.rest.isEmpty = false := by
    rw [stands.rest]
    exact List.isEmpty_eq_false_iff.mpr something
  rw [run?, settles]
  simp only [more, moves, if_pos shorter]
  rfl

theorem run?_end {lexer : Lexer} {tokens : List Token} {depth : Nat} {allowed : Bool}
    (stands : At lexer ⟨[], tokens, depth, allowed⟩) : lexer.run? = some tokens.reverse := by
  have past : Cursor.pastGap lexer.inFlow lexer.cursor.rest lexer.cursor.place lexer.keyAllowed =
      (⟨[], lexer.cursor.place⟩, allowed) := by
    rw [stands.rest, stands.allowed, Cursor.pastGap]
  obtain ⟨settled, settles, loose, cursor, same, _⟩ := settle?_eq stands.toLoose past
  have finished : settled.cursor.rest.isEmpty = true := by
    rw [cursor]
    rfl
  rw [run?, settles]
  simp only [finished, leaveContent?, closeBlocks_of_loose loose, dropCandidate?_of_loose loose]
  change some settled.tokens.reverse = _
  rw [same, stands.tokens]

theorem tokens?_of_reaches {text : Text} {tokens : List Token} {depth : Nat} {allowed : Bool}
    (reaches : Reaches ⟨text, [], 0, true⟩ ⟨[], tokens, depth, allowed⟩) :
    tokens? text = some tokens.reverse := by
  have start : At { cursor := { rest := text } } ⟨text, [], 0, true⟩ :=
    { blocks := rfl
      candidate := fun _ same => nomatch same
      enclosing := fun _ member => nomatch member
      rest := rfl
      tokens := rfl
      depth := rfl
      allowed := rfl }
  obtain ⟨last, same, stands⟩ := reaches _ start
  exact same.trans (run?_end stands)

/-- A token is read over spaces and from its first character on. -/
theorem Reaches.of_token (gap : Text) {rest : Text} {c : Char} {tokens : List Token} {depth : Nat}
    {allowed : Bool} {later : Stage} (spaces : ∀ c ∈ gap, c = ' ') (begins : Begins c)
    (shorter : later.rest.length ≤ rest.length)
    (moves : ∀ lexer : Lexer, At lexer ⟨c :: rest, tokens, depth, allowed⟩ →
      ∃ next, lexer.token? = some next ∧ At next later) :
    Reaches ⟨gap ++ c :: rest, tokens, depth, allowed⟩ later := by
  intro lexer stands
  obtain ⟨settled, settles, front, _⟩ := exists_settle gap stands spaces begins
  obtain ⟨next, moves, behind⟩ := moves settled front
  refine ⟨next, run?_eq settles front (List.cons_ne_nil c rest) moves ?_, behind⟩
  rw [behind.rest, stands.rest, List.length_append, List.length_cons]
  omega

/-! Indicators -/

def indicated? : Char → Option (Lexer → Option Lexer)
  | '[' => some (openFlow? · .flowSequenceStart)
  | ']' => some (closeFlow? · .flowSequenceEnd)
  | '\x7b' => some (openFlow? · .flowMappingStart)
  | '\x7d' => some (closeFlow? · .flowMappingEnd)
  | ',' => some comma?
  | '"' => some (quotedScalar? · true)
  | _ => none

theorem token?_of_indicated {lexer : Lexer} {c : Char} {rest : Text}
    (front : lexer.cursor.rest = c :: rest) {read : Lexer → Option Lexer}
    (indicated : indicated? c = some read) : lexer.token? = read lexer := by
  unfold indicated? at indicated
  split at indicated <;> cases indicated
  all_goals simp [token?, front, Cursor.atDocumentMark, startsWithDocumentMark]

/-- Without an open block, no node has to be a key. -/
theorem saveCandidate?_of_allowed {lexer : Lexer} (loose : Loose lexer)
    (allowed : lexer.keyAllowed = true) :
    lexer.saveCandidate? =
      some { lexer with candidate := some ⟨lexer.tokens.length, lexer.cursor.place, false⟩ } := by
  rw [saveCandidate?, if_pos allowed, dropCandidate?_of_loose loose]
  simp [indent?, loose.blocks]

theorem exists_saveCandidate {lexer : Lexer} (loose : Loose lexer) :
    ∃ candidate, lexer.saveCandidate? = some { lexer with candidate } ∧
      Loose { lexer with candidate } := by
  by_cases allowed : lexer.keyAllowed = true
  · refine ⟨_, saveCandidate?_of_allowed loose allowed, loose.blocks, ?_, loose.enclosing⟩
    rintro candidate same
    cases same
    rfl
  · exact ⟨lexer.candidate, if_neg allowed, loose⟩

theorem exists_openFlow {lexer : Lexer} {c : Char} {rest : Text} {tokens : List Token}
    {depth : Nat} {allowed : Bool} (stands : At lexer ⟨c :: rest, tokens, depth, allowed⟩)
    (token : Token) :
    ∃ next, lexer.openFlow? token = some next ∧
      At next ⟨rest, token :: tokens, depth + 1, true⟩ := by
  obtain ⟨candidate, saved, loose⟩ := exists_saveCandidate stands.toLoose
  have opened : lexer.openFlow? token =
      some (emit (allowKey
        { lexer with candidate := none, enclosing := candidate :: lexer.enclosing } true)
        token (lexer.cursor.advance 1)) := by
    rw [openFlow?, saved]
    rfl
  -- The candidate that is put aside stays loose among those around.
  have around : ∀ found, some found ∈ candidate :: lexer.enclosing → found.required = false := by
    intro found member
    rcases List.mem_cons.mp member with same | member
    · exact loose.candidate found same.symm
    · exact loose.enclosing found member
  exact ⟨_, opened, ⟨loose.blocks, nofun, around⟩, stands.rest_advance,
    congrArg (token :: ·) stands.tokens, congrArg (· + 1) stands.depth, rfl⟩

theorem exists_closeFlow {lexer : Lexer} {c : Char} {rest : Text} {tokens : List Token}
    {depth : Nat} {allowed : Bool} (stands : At lexer ⟨c :: rest, tokens, depth + 1, allowed⟩)
    (token : Token) :
    ∃ next, lexer.closeFlow? token = some next ∧
      At next ⟨rest, token :: tokens, depth, false⟩ := by
  have inside : lexer.enclosing.length = depth + 1 := stands.depth
  have loose := stands.enclosing
  obtain ⟨candidate, enclosing, listed⟩ := List.exists_cons_of_length_eq_add_one inside
  rw [listed] at inside loose
  have closed : lexer.closeFlow? token =
      some (emit (allowKey { lexer with candidate, enclosing } false) token
        (lexer.cursor.advance 1)) := by
    rw [closeFlow?, dropCandidate?_of_loose stands.toLoose]
    simp only [listed, Option.bind_eq_bind, Option.bind_some, Option.pure_def]
  have here : ∀ found, candidate = some found → found.required = false := fun found same =>
    loose found (same ▸ List.mem_cons_self)
  have around : ∀ found, some found ∈ enclosing → found.required = false := fun found member =>
    loose found (List.mem_cons_of_mem _ member)
  exact ⟨_, closed, ⟨stands.blocks, here, around⟩, stands.rest_advance,
    congrArg (token :: ·) stands.tokens, Nat.succ.inj inside, rfl⟩

theorem exists_comma {lexer : Lexer} {c : Char} {rest : Text} {tokens : List Token} {depth : Nat}
    {allowed : Bool} (stands : At lexer ⟨c :: rest, tokens, depth, allowed⟩) :
    ∃ next, lexer.comma? = some next ∧ At next ⟨rest, .comma :: tokens, depth, true⟩ := by
  have passed : lexer.comma? =
      some (emit (allowKey { lexer with candidate := none } true) .comma
        (lexer.cursor.advance 1)) := by
    rw [comma?, dropCandidate?_of_loose stands.toLoose]
    rfl
  exact ⟨_, passed, ⟨stands.blocks, nofun, stands.enclosing⟩, stands.rest_advance,
    congrArg (Token.comma :: ·) stands.tokens, stands.depth, rfl⟩

theorem at_scalar {lexer : Lexer} {stage : Stage} (stands : At lexer stage)
    {candidate : Option Candidate} (loose : Loose { lexer with candidate }) (token : Token)
    (cursor : Cursor) :
    At (emit (allowKey { lexer with candidate } false) token cursor)
      ⟨cursor.rest, token :: stage.tokens, stage.depth, false⟩ :=
  { blocks := loose.blocks
    candidate := loose.candidate
    enclosing := loose.enclosing
    rest := rfl
    tokens := congrArg (token :: ·) stands.tokens
    depth := stands.depth
    allowed := rfl }

/-! Steps between stages -/

theorem Reaches.of_openFlow {gap : Text} (spaces : ∀ c ∈ gap, c = ' ') {c : Char} {token : Token}
    (indicated : indicated? c = some (openFlow? · token)) (begins : Begins c) (rest : Text)
    (tokens : List Token) (depth : Nat) (allowed : Bool) :
    Reaches ⟨gap ++ c :: rest, tokens, depth, allowed⟩
      ⟨rest, token :: tokens, depth + 1, true⟩ := by
  refine Reaches.of_token gap spaces begins (Nat.le_refl _) fun lexer stands => ?_
  rw [token?_of_indicated stands.rest indicated]
  exact exists_openFlow stands token

theorem Reaches.of_closeFlow {c : Char} {token : Token}
    (indicated : indicated? c = some (closeFlow? · token)) (begins : Begins c) (rest : Text)
    (tokens : List Token) (depth : Nat) (allowed : Bool) :
    Reaches ⟨c :: rest, tokens, depth + 1, allowed⟩ ⟨rest, token :: tokens, depth, false⟩ := by
  refine Reaches.of_token [] nofun begins (Nat.le_refl _) fun lexer stands => ?_
  rw [token?_of_indicated stands.rest indicated]
  exact exists_closeFlow stands token

theorem Reaches.of_comma (rest : Text) (tokens : List Token) (depth : Nat) (allowed : Bool) :
    Reaches ⟨',' :: rest, tokens, depth, allowed⟩ ⟨rest, .comma :: tokens, depth, true⟩ := by
  refine Reaches.of_token [] nofun (by decide) (Nat.le_refl _) fun lexer stands => ?_
  rw [token?_of_indicated stands.rest rfl]
  exact exists_comma stands

end Acceptor.Yaml.Lexer
