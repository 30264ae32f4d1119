import Acceptor.Yaml.Node
import Acceptor.Yaml.Token.Lexer
/-!
From tokens to the tree of the one document that a stream may hold. The tokens are folded over a
stack of collections under way: each token either completes something or is put on the stack, so
that a sequence of tokens means what its parts mean one after the other.
-/
namespace Acceptor.Yaml

inductive BlockPlace where
  | between
  | key
  | afterKey (key : Node)
  | value (key : Node)

/-- Where a flow mapping stands. An open place takes a key, with or without a question mark. -/
inductive FlowPlace where
  | «open»
  | key
  | afterKey (key : Node)
  | value (key : Node)
  | closed

/-- Where a flow sequence stands. An item may be a mapping of one key without brackets. -/
inductive ItemPlace where
  | «open»
  | pairKey
  | pairAfterKey (key : Node)
  | pairValue (key : Node)
  | closed

/-- A collection under way, its items or entries newest first; at the bottom, the document. -/
inductive Frame where
  | document (content : Option Node)
  | blockSequence (anchor : Option Nat) (items : List Node) (awaiting : Bool)
  /-- A list of dashes that are not indented against the mapping around them. -/
  | flatSequence (anchor : Option Nat) (items : List Node) (awaiting : Bool)
  | blockMapping (anchor : Option Nat) (entries : List (Node × Node)) (place : BlockPlace)
  | flowSequence (anchor : Option Nat) (items : List Node) (place : ItemPlace)
  | flowMapping (anchor : Option Nat) (entries : List (Node × Node)) (place : FlowPlace)

namespace Frame

def takesBlocks : Frame → Bool
  | flowSequence .. | flowMapping .. => false
  | _ => true

/-- Whether a list that is not indented may begin where this frame awaits a node. -/
def takesFlat : Frame → Bool
  | blockMapping .. => true
  | _ => false

def deliver? (node : Node) : Frame → Option Frame
  | document none => some (document (some node))
  | blockSequence anchor items true => some (blockSequence anchor (node :: items) false)
  | flatSequence anchor items true => some (flatSequence anchor (node :: items) false)
  | blockMapping anchor entries .key => some (blockMapping anchor entries (.afterKey node))
  | blockMapping anchor entries (.value key) =>
    some (blockMapping anchor ((key, node) :: entries) .between)
  | flowSequence anchor items .open => some (flowSequence anchor (node :: items) .closed)
  | flowSequence anchor items .pairKey => some (flowSequence anchor items (.pairAfterKey node))
  | flowSequence anchor items (.pairValue key) =>
    some (flowSequence anchor (.mapping none [(key, node)] :: items) .closed)
  | flowMapping anchor entries .open =>
    some (flowMapping anchor ((node, .empty) :: entries) .closed)
  | flowMapping anchor entries .key => some (flowMapping anchor entries (.afterKey node))
  | flowMapping anchor entries (.value key) =>
    some (flowMapping anchor ((key, node) :: entries) .closed)
  | _ => none

end Frame

structure Properties where
  anchor : Option Nat := none
  tag : Option Text := none
deriving DecidableEq, Repr

namespace Properties

def isEmpty (properties : Properties) : Bool :=
  properties.anchor.isNone && properties.tag.isNone

-- A lone exclamation mark stays as a tag, on plain scalars too: a command that is run on
-- `states: ! ~` refuses it and does not take the scalar for an absent value.
def scalar (properties : Properties) (style : Style) (text : Text) : Node :=
  .scalar properties.anchor properties.tag style text

def emptyNode (properties : Properties) : Node := properties.scalar .plain []

end Properties

/-- Building a tree under way: the frames from the innermost on, properties of the node to come,
the numbers of the anchors known by name, and what tag handles stand for. -/
structure Composer where
  frames : List Frame := [.document none]
  properties : Properties := {}
  anchors : List (Text × Nat) := []
  handles : List (Text × Text) := []

namespace Composer

def deliver? (composer : Composer) (node : Node) : Option Composer :=
  match composer.frames with
  | [] => none
  | frame :: frames => do
    return { composer with frames := (← frame.deliver? node) :: frames, properties := {} }

def «open» (composer : Composer) (frame : Option Nat → Frame) : Composer :=
  { composer with
    frames := frame composer.properties.anchor :: composer.frames, properties := {} }

def close? (composer : Composer) (node : Node) : Option Composer :=
  { composer with frames := composer.frames.drop 1 }.deliver? node

def replace (composer : Composer) (frame : Frame) : Composer :=
  { composer with frames := frame :: composer.frames.drop 1 }

/-- Names the node to come. A number is the count of names known before, so that a name that is
given again leaves its number to the next new one. -/
def anchor (composer : Composer) (name : Text) : Composer :=
  let number := composer.anchors.length
  { composer with
    anchors := (name, number) :: composer.anchors.filter (·.1 ≠ name)
    properties := { composer.properties with anchor := some number } }

def node? (composer : Composer) (token : Token) : Option Composer :=
  let frame? := composer.frames.head?
  match token with
  | .alias name =>
    if composer.properties.isEmpty then
      (composer.anchors.lookup name).bind fun number => composer.deliver? (.alias number)
    else none
  | .anchor name =>
    if composer.properties.anchor.isNone then some (composer.anchor name) else none
  | .tag tag =>
    if composer.properties.tag.isNone then
      (tag.resolve? composer.handles).map fun tag =>
        { composer with properties := { composer.properties with tag := some tag } }
    else none
  | .scalar style text => composer.deliver? (composer.properties.scalar style text)
  | .flowSequenceStart => some (composer.open (.flowSequence · [] .open))
  | .flowMappingStart => some (composer.open (.flowMapping · [] .open))
  | .blockSequenceStart =>
    if frame?.any (·.takesBlocks) then some (composer.open (.blockSequence · [] false)) else none
  | .blockMappingStart =>
    if frame?.any (·.takesBlocks) then some (composer.open (.blockMapping · [] .between))
    else none
  | .entry =>
    if frame?.any (·.takesFlat) then some (composer.open (.flatSequence · [] true)) else none
  | _ => none

def blockKey? (composer : Composer) (anchor : Option Nat) (entries : List (Node × Node)) :
    Token → Option Composer
  | .key => some (composer.replace (.blockMapping anchor entries .key))
  | .blockEnd => composer.close? (.mapping anchor entries.reverse)
  | _ => none

def blockValue? (composer : Composer) (anchor : Option Nat) (entries : List (Node × Node))
    (key : Node) : Token → Option Composer
  | .value => some (composer.replace (.blockMapping anchor entries (.value key)))
  | token => composer.blockKey? anchor ((key, .empty) :: entries) token

def blockMapping? (composer : Composer) (anchor : Option Nat) (entries : List (Node × Node))
    (place : BlockPlace) (token : Token) : Option Composer :=
  let leavesOut := token matches .key | .value | .blockEnd
  match place with
  | .between => composer.blockKey? anchor entries token
  | .key =>
    if leavesOut then composer.blockValue? anchor entries .empty token else composer.node? token
  | .afterKey key => composer.blockValue? anchor entries key token
  | .value key =>
    if leavesOut then composer.blockKey? anchor ((key, .empty) :: entries) token
    else composer.node? token

def itemEnd? (composer : Composer) (anchor : Option Nat) (items : List Node) :
    Token → Option Composer
  | .flowSequenceEnd => composer.close? (.sequence anchor items.reverse)
  | .comma => some (composer.replace (.flowSequence anchor items .open))
  | _ => none

/-- A token in a flow sequence. An empty key behind a question mark takes the token that shows it
to be empty. -/
def flowSequence? (composer : Composer) (anchor : Option Nat) (items : List Node)
    (place : ItemPlace) (token : Token) : Option Composer :=
  let pair (key value : Node) : Node := .mapping none [(key, value)]
  match place with
  | .open =>
    match token with
    | .flowSequenceEnd => composer.itemEnd? anchor items token
    | .key => some (composer.replace (.flowSequence anchor items .pairKey))
    | _ => composer.node? token
  | .pairKey =>
    match token with
    | .value | .comma | .flowSequenceEnd =>
      some (composer.replace (.flowSequence anchor items (.pairAfterKey .empty)))
    | _ => composer.node? token
  | .pairAfterKey key =>
    match token with
    | .value => some (composer.replace (.flowSequence anchor items (.pairValue key)))
    | _ => composer.itemEnd? anchor (pair key .empty :: items) token
  | .pairValue key =>
    match token with
    | .comma | .flowSequenceEnd => composer.itemEnd? anchor (pair key .empty :: items) token
    | _ => composer.node? token
  | .closed => composer.itemEnd? anchor items token

def entryEnd? (composer : Composer) (anchor : Option Nat) (entries : List (Node × Node)) :
    Token → Option Composer
  | .flowMappingEnd => composer.close? (.mapping anchor entries.reverse)
  | .comma => some (composer.replace (.flowMapping anchor entries .open))
  | _ => none

def flowValue? (composer : Composer) (anchor : Option Nat) (entries : List (Node × Node))
    (key : Node) : Token → Option Composer
  | .value => some (composer.replace (.flowMapping anchor entries (.value key)))
  | token => composer.entryEnd? anchor ((key, .empty) :: entries) token

def flowMapping? (composer : Composer) (anchor : Option Nat) (entries : List (Node × Node))
    (place : FlowPlace) (token : Token) : Option Composer :=
  match place with
  | .open =>
    match token with
    | .flowMappingEnd => composer.entryEnd? anchor entries token
    | .key => some (composer.replace (.flowMapping anchor entries .key))
    | _ => composer.node? token
  | .key =>
    match token with
    | .value | .comma | .flowMappingEnd => composer.flowValue? anchor entries .empty token
    | _ => composer.node? token
  | .afterKey key => composer.flowValue? anchor entries key token
  | .value key =>
    match token with
    | .comma | .flowMappingEnd => composer.entryEnd? anchor ((key, .empty) :: entries) token
    | _ => composer.node? token
  | .closed => composer.entryEnd? anchor entries token

def blockSequence? (composer : Composer) (anchor : Option Nat) (items : List Node)
    (awaiting : Bool) (token : Token) : Option Composer :=
  let before := if awaiting then .empty :: items else items
  match token with
  | .entry => some (composer.replace (.blockSequence anchor before true))
  | .blockEnd => composer.close? (.sequence anchor before.reverse)
  | _ => if awaiting then composer.node? token else none

/-- A token in a list of dashes that is not indented. Every token that cannot belong to the list
ends it and goes to the mapping around it. -/
def flatSequence? (composer : Composer) (anchor : Option Nat) (items : List Node)
    (awaiting : Bool) (token : Token) : Option Composer :=
  let before := if awaiting then .empty :: items else items
  if token = .entry then some (composer.replace (.flatSequence anchor before true))
  else if awaiting && !(token matches .key | .value | .blockEnd) then composer.node? token
  else do
    let composer ← composer.close? (.sequence anchor before.reverse)
    match composer.frames with
    | .blockMapping anchor entries place :: _ =>
      composer.blockMapping? anchor entries place token
    | _ => none

def token? (composer : Composer) (token : Token) : Option Composer :=
  match composer.frames with
  | .document none :: _ => composer.node? token
  | .blockSequence anchor items awaiting :: _ =>
    composer.blockSequence? anchor items awaiting token
  | .flatSequence anchor items awaiting :: _ => composer.flatSequence? anchor items awaiting token
  | .blockMapping anchor entries place :: _ => composer.blockMapping? anchor entries place token
  | .flowSequence anchor items place :: _ => composer.flowSequence? anchor items place token
  | .flowMapping anchor entries place :: _ => composer.flowMapping? anchor entries place token
  | _ => none

/-- Takes a token in. Properties that no node follows belong to an empty one. -/
def take? (composer : Composer) (token : Token) : Option Composer :=
  if composer.properties.isEmpty then composer.token? token
  else if canFollow composer token then composer.node? token
  else do (← composer.deliver? composer.properties.emptyNode).token? token
where
  canFollow (composer : Composer) : Token → Bool
    | .anchor _ => composer.properties.anchor.isNone
    | .tag _ => composer.properties.tag.isNone
    | .scalar .. | .flowSequenceStart | .flowMappingStart => true
    | .blockSequenceStart | .blockMappingStart => composer.frames.head?.any (·.takesBlocks)
    | .entry => composer.frames.head?.any (·.takesFlat)
    | _ => false

/-- The tree, once the tokens have come to an end. Where there was nothing but properties, or
nothing at all, the root is empty. -/
def root? (composer : Composer) : Option Node :=
  match composer.frames with
  | [.document (some root)] => some root
  | [.document none] => some composer.properties.emptyNode
  | _ => none

end Composer

def Node.ofTokens? (handles : List (Text × Text)) (tokens : List Token) : Option Node :=
  (tokens.foldlM Composer.take? { handles }).bind Composer.root?

/-- What the declarations in front of a document say of tag handles. The version may be declared
once and must be one that is known; no handle may be declared twice. -/
def handles? (declarations : List Token) : Option (List (Text × Text)) := do
  let versions := declarations.filter (· matches .version ..)
  let handles := declarations.filterMap fun
    | .tagStart handle start => some (handle, start)
    | _ => none
  if 1 < versions.length || !versions.all known then none
  else if handles.any fun (handle, _) => 1 < handles.countP (·.1 = handle) then none
  else some handles
where
  known : Token → Bool
    | .version major minor => major == 1 && (minor == 1 || minor == 2)
    | _ => false

/-- A stream of one document, or of none. -/
structure Document where
  root : Option Node

namespace Document

def content? (handles : List (Text × Text)) (tokens : List Token) : Option Document :=
  if (tokens.dropWhile (· ≠ .documentEnd)).all (· = .documentEnd) then
    (Node.ofTokens? handles (tokens.takeWhile (· ≠ .documentEnd))).map (⟨some ·⟩)
  else none

/-- The document of a sequence of tokens. A document without content has an empty root if its start
is marked; without a mark there is no document. -/
def ofTokens? (tokens : List Token) : Option Document :=
  let declares (token : Token) : Bool := token matches .version .. | .tagStart ..
  match tokens with
  | [] => some ⟨none⟩
  | .documentEnd :: _ => none
  | _ =>
    match tokens.takeWhile declares, tokens.dropWhile declares with
    | declarations, .documentStart :: rest => do content? (← handles? declarations) rest
    | [], rest => content? [] rest
    | _, _ => none

def parse? (text : Text) : Option Document := (tokens? text).bind ofTokens?

def targets (document : Document) : List (Nat × Node) :=
  (document.root.elim [] Node.anchored).reverse

def size (document : Document) : Nat := document.root.elim 1 Node.size

end Document

end Acceptor.Yaml
