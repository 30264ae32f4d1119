import Acceptor.Yaml.Scalar.Block
import Acceptor.Yaml.Scalar.Plain
import Acceptor.Yaml.Scalar.Quoted
import Acceptor.Yaml.Token
/-!
From text to tokens. Indentation is kept as the columns of the open blocks. Whether a node is a key
is known only when the colon behind it is met, so the place of a node that could be one is
remembered, one for every open flow collection, and the key token is put in front of it later.
-/
namespace Acceptor.Yaml

/-- A node that may turn out to be a key: how many tokens stand before it and where it begins. It is
required to be one if a block mapping cannot go on otherwise. -/
structure Candidate where
  tokensBefore : Nat
  start : Place
  required : Bool
deriving DecidableEq, Repr

/-- Whether a candidate can no longer be a key at the given place: a key stands on one line with its
colon, and at most 1024 octets lie between its beginning and the colon. -/
def Candidate.isStale (candidate : Candidate) (place : Place) : Bool :=
  candidate.start.line < place.line || candidate.start.octets + 1024 < place.octets

/-- Lexing under way. Tokens are kept newest first, and so are the columns of the open blocks and
the candidates of the enclosing flow collections. -/
structure Lexer where
  cursor : Cursor
  tokens : List Token := []
  blocks : List Nat := []
  keyAllowed : Bool := true
  candidate : Option Candidate := none
  enclosing : List (Option Candidate) := []
deriving DecidableEq, Repr

namespace Lexer

def inFlow (lexer : Lexer) : Bool := !lexer.enclosing.isEmpty

def indent? (lexer : Lexer) : Option Nat := lexer.blocks.head?

def emit (lexer : Lexer) (token : Token) (cursor : Cursor) : Lexer :=
  { lexer with tokens := token :: lexer.tokens, cursor }

def allowKey (lexer : Lexer) (keyAllowed : Bool) : Lexer := { lexer with keyAllowed }

def giveUp? : Option Candidate → Option (Option Candidate)
  | some candidate => if candidate.required then none else some none
  | none => some none

def dropCandidate? (lexer : Lexer) : Option Lexer :=
  (giveUp? lexer.candidate).map fun candidate => { lexer with candidate }

def dropStale? (lexer : Lexer) : Option Lexer := do
  let keep (candidate : Option Candidate) : Option (Option Candidate) :=
    if candidate.any (·.isStale lexer.cursor.place) then giveUp? candidate else some candidate
  return { lexer with
    candidate := ← keep lexer.candidate, enclosing := ← lexer.enclosing.mapM keep }

def saveCandidate? (lexer : Lexer) : Option Lexer :=
  if lexer.keyAllowed then do
    let lexer ← lexer.dropCandidate?
    return { lexer with
      candidate := some
        { tokensBefore := lexer.tokens.length
          start := lexer.cursor.place
          required := !lexer.inFlow && lexer.indent? == some lexer.cursor.place.column } }
  else some lexer

/-- Closes the blocks whose columns a condition picks out, from the innermost on. Inside flow
collections indentation means nothing. -/
def closeBlocks (lexer : Lexer) (deeper : Nat → Bool) : Lexer :=
  if lexer.inFlow then lexer
  else
    { lexer with
      tokens := List.replicate (lexer.blocks.takeWhile deeper).length .blockEnd ++ lexer.tokens
      blocks := lexer.blocks.dropWhile deeper }

def opensBlock (lexer : Lexer) (column : Nat) : Bool :=
  !lexer.inFlow && lexer.indent?.all (· < column)

def openBlock (lexer : Lexer) (token : Token) : Lexer :=
  if lexer.opensBlock lexer.cursor.place.column then
    { lexer with
      tokens := token :: lexer.tokens
      blocks := lexer.cursor.place.column :: lexer.blocks }
  else lexer

def settle? (lexer : Lexer) : Option Lexer := do
  let (cursor, keyAllowed) :=
    Cursor.pastGap lexer.inFlow lexer.cursor.rest lexer.cursor.place lexer.keyAllowed
  let lexer ← { lexer with cursor, keyAllowed }.dropStale?
  return lexer.closeBlocks (cursor.place.column < ·)

def directive? (cursor : Cursor) : Option (Token × Cursor) := do
  let text := cursor.rest.drop 1
  let name := text.takeWhile isWord
  let rest := text.dropWhile isWord
  if name.isEmpty || !endsWord rest then none
  else if name = "YAML".toList then
    let (major, rest) ← number? (rest.dropWhile isBlank)
    match rest with
    | '.' :: rest =>
      let (minor, rest) ← number? rest
      return (.version major minor, ← (cursor.upTo rest).pastLineEnd?)
    | _ => none
  else if name = "TAG".toList then
    let (handle, start, rest) ← Tag.declaration? rest
    return (.tagStart handle start, ← (cursor.upTo rest).pastLineEnd?)
  else none
where
  number? (text : Text) : Option (Nat × Text) :=
    let digits := text.takeWhile Char.isDigit
    if digits.isEmpty || 9 < digits.length then none
    else some (digits.foldl (fun value c => value * 10 + (c.toNat - '0'.toNat)) 0,
      text.dropWhile Char.isDigit)

/-- Ends all blocks before a token that does not belong to a document's content. -/
def leaveContent? (lexer : Lexer) : Option Lexer := do
  return (← (lexer.closeBlocks fun _ => true).dropCandidate?).allowKey false

def openFlow? (lexer : Lexer) (token : Token) : Option Lexer := do
  let lexer ← lexer.saveCandidate?
  return { lexer with candidate := none, enclosing := lexer.candidate :: lexer.enclosing }
    |>.allowKey true |>.emit token (lexer.cursor.advance 1)

def closeFlow? (lexer : Lexer) (token : Token) : Option Lexer := do
  let lexer ← lexer.dropCandidate?
  -- A bracket that closes nothing is still a token; the composer has no place for it.
  let lexer := match lexer.enclosing with
    | [] => lexer
    | candidate :: enclosing => { lexer with candidate, enclosing }
  return lexer.allowKey false |>.emit token (lexer.cursor.advance 1)

def comma? (lexer : Lexer) : Option Lexer := do
  let lexer ← lexer.dropCandidate?
  return lexer.allowKey true |>.emit .comma (lexer.cursor.advance 1)

def entry? (lexer : Lexer) : Option Lexer := do
  if !lexer.inFlow && !lexer.keyAllowed then none
  else
    let lexer ← (lexer.openBlock .blockSequenceStart).dropCandidate?
    return lexer.allowKey true |>.emit .entry (lexer.cursor.advance 1)

def key? (lexer : Lexer) : Option Lexer := do
  if !lexer.inFlow && !lexer.keyAllowed then none
  else
    let lexer ← (lexer.openBlock .blockMappingStart).dropCandidate?
    return lexer.allowKey (!lexer.inFlow) |>.emit .key (lexer.cursor.advance 1)

def confirm (lexer : Lexer) (candidate : Candidate) : Lexer :=
  -- Tokens are newest first: those that were read since the candidate are at the front.
  let since := lexer.tokens.length - candidate.tokensBefore
  let opens := lexer.opensBlock candidate.start.column
  { lexer with
    tokens := lexer.tokens.take since ++ .key ::
      (if opens then [.blockMappingStart] else []) ++ lexer.tokens.drop since
    blocks := if opens then candidate.start.column :: lexer.blocks else lexer.blocks
    candidate := none }

/-- A colon before a value. Either the candidate before it is its key, or the key is empty or was
announced by a question mark. -/
def value? (lexer : Lexer) : Option Lexer :=
  match lexer.candidate with
  | some candidate =>
    some (lexer.confirm candidate |>.allowKey false |>.emit .value (lexer.cursor.advance 1))
  | none =>
    if !lexer.inFlow && !lexer.keyAllowed then none
    else
      some (lexer.openBlock .blockMappingStart |>.allowKey (!lexer.inFlow)
        |>.emit .value (lexer.cursor.advance 1))

def mayFollowName (c : Char) : Bool := "?:,]\x7d%@\x60".toList.contains c

def named? (lexer : Lexer) (token : Text → Token) : Option Lexer := do
  let lexer ← lexer.saveCandidate?
  let text := lexer.cursor.rest.drop 1
  let name := text.takeWhile isWord
  let rest := text.dropWhile isWord
  if name.isEmpty || !(endsWord rest || rest.head?.any mayFollowName) then none
  else return lexer.allowKey false |>.emit (token name) (lexer.cursor.upTo rest)

def tag? (lexer : Lexer) : Option Lexer := do
  let lexer ← lexer.saveCandidate?
  let (tag, rest) ← Tag.read? lexer.cursor.rest
  if endsWord rest || lexer.inFlow && rest.head? == some ',' then
    return lexer.allowKey false |>.emit (.tag tag) (lexer.cursor.upTo rest)
  else none

def blockScalar? (lexer : Lexer) (folded : Bool) : Option Lexer := do
  let lexer ← lexer.dropCandidate?
  let (text, cursor) ← Scalar.Block.read? folded lexer.indent? lexer.cursor
  return lexer.allowKey true |>.emit (.scalar (if folded then .folded else .literal) text) cursor

def quotedScalar? (lexer : Lexer) (double : Bool) : Option Lexer := do
  let lexer ← lexer.saveCandidate?
  let (text, cursor) ← Scalar.Quoted.read? double lexer.cursor
  return lexer.allowKey false |>.emit (.scalar .quoted text) cursor

/-- A plain scalar. If it ends on a new line, a key may begin there. -/
def plainScalar? (lexer : Lexer) : Option Lexer := do
  let lexer ← lexer.saveCandidate?
  let (text, cursor, newLine) ←
    Scalar.Plain.read? lexer.inFlow (lexer.indent?.elim 0 (· + 1)) lexer.cursor
  return lexer.allowKey newLine |>.emit (.scalar .plain text) cursor

def token? (lexer : Lexer) : Option Lexer :=
  match lexer.cursor.rest with
  | [] => none
  | c :: rest =>
    if lexer.cursor.place.column = 0 && c = '%' then do
      let lexer ← lexer.leaveContent?
      let (token, cursor) ← directive? lexer.cursor
      return lexer.emit token cursor
    else if lexer.cursor.atDocumentMark then do
      return (← lexer.leaveContent?).emit
        (if c = '-' then .documentStart else .documentEnd) (lexer.cursor.advance 3)
    else if c = '[' then lexer.openFlow? .flowSequenceStart
    else if c = '{' then lexer.openFlow? .flowMappingStart
    else if c = ']' then lexer.closeFlow? .flowSequenceEnd
    else if c = '}' then lexer.closeFlow? .flowMappingEnd
    else if c = ',' then lexer.comma?
    else if c = '-' && endsWord rest then lexer.entry?
    else if c = '?' && (lexer.inFlow || endsWord rest) then lexer.key?
    else if c = ':' && (lexer.inFlow || endsWord rest) then lexer.value?
    else if c = '*' then lexer.named? .alias
    else if c = '&' then lexer.named? .anchor
    else if c = '!' then lexer.tag?
    else if c = '|' && !lexer.inFlow then lexer.blockScalar? false
    else if c = '>' && !lexer.inFlow then lexer.blockScalar? true
    else if c = '\'' then lexer.quotedScalar? false
    else if c = '"' then lexer.quotedScalar? true
    else if Scalar.Plain.mayBegin lexer.inFlow lexer.cursor.rest then lexer.plainScalar?
    else none

/-- All tokens from here to the end of the text. Every token uses up some of the text, so that a
step that did not would be no step at all. -/
def run? (lexer : Lexer) : Option (List Token) :=
  match lexer.settle? with
  | none => none
  | some settled =>
    if settled.cursor.rest.isEmpty then
      settled.leaveContent?.map (·.tokens.reverse)
    else
      match settled.token? with
      | none => none
      | some next =>
        if next.cursor.rest.length < lexer.cursor.rest.length then next.run? else none
termination_by lexer.cursor.rest.length

end Lexer

def tokens? (text : Text) : Option (List Token) := Lexer.run? { cursor := { rest := text } }

end Acceptor.Yaml
