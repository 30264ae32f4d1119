import Acceptor.Yaml.Tag
/-!
Tokens of a document: indicators, the boundaries of blocks that indentation shows, node properties
and scalars.
-/
namespace Acceptor.Yaml

inductive Style where
  | plain
  | quoted
  | literal
  | folded
deriving DecidableEq, Repr

inductive Token where
  | version (major minor : Nat)
  | tagStart (handle start : Text)
  | documentStart
  | documentEnd
  /-- A list, or a mapping, begins with the indentation here. -/
  | blockSequenceStart
  | blockMappingStart
  | blockEnd
  | flowSequenceStart
  | flowSequenceEnd
  | flowMappingStart
  | flowMappingEnd
  | entry
  | comma
  /-- A key follows, whether a question mark says so or the colon behind it. -/
  | key
  | value
  | alias (name : Text)
  | anchor (name : Text)
  | tag (tag : Tag.Written)
  | scalar (style : Style) (text : Text)
deriving DecidableEq, Repr

end Acceptor.Yaml
