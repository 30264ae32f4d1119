import Acceptor.Yaml.Cursor
/-!
Tags as they are written: a handle, which names a declared beginning of tags, and a suffix; or a
whole tag between angle brackets. A suffix may hold any octets, which are written as a percent sign
and two hexadecimal digits and must group as UTF-8 does.
-/
namespace Acceptor.Yaml.Tag

/-- A handle with a suffix. The empty handle stands before tags that need no completion. -/
structure Written where
  handle : Text
  suffix : Text
deriving DecidableEq, Repr

/-- Characters of a suffix that stand for themselves. Those of flow collections may occur only in
whole tags and in declarations. -/
def isSuffixChar (whole : Bool) (c : Char) : Bool :=
  isWord c || ";/?:@&=+$.!~*'()".toList.contains c || whole && ",[]".toList.contains c

def groupTail? (octet : Nat) : Option Nat :=
  if octet < 0x80 then some 0
  else if octet < 0xC0 then none
  else if octet < 0xE0 then some 1
  else if octet < 0xF0 then some 2
  else if octet < 0xF8 then some 3
  else none

/-- Reads the characters of a suffix, of which the last `owed` must be octets that complete a group.
Gives what was read and what follows. -/
def suffix? (whole : Bool) : Nat → Text → Option (Text × Text)
  | owed, '%' :: a :: b :: rest =>
    match hexadecimal? [a, b] with
    | none => none
    | some octet =>
      let owed? := match owed with
        | 0 => groupTail? octet
        | owed + 1 => if 0x80 ≤ octet && octet < 0xC0 then some owed else none
      match owed? with
      | none => none
      | some owed => (suffix? whole owed rest).map fun (read, rest) => (.ofNat octet :: read, rest)
  | 0, c :: rest =>
    if c = '%' then none
    else if isSuffixChar whole c then
      (suffix? whole 0 rest).map fun (read, rest) => (c :: read, rest)
    else some ([], c :: rest)
  | 0, [] => some ([], [])
  | _ + 1, _ => none

def upToNull (text : Text) : Text := text.takeWhile (· ≠ '\x00')

def nonemptySuffix? (whole : Bool) (text : Text) : Option (Text × Text) := do
  let (read, rest) ← suffix? whole 0 text
  if read.isEmpty then none else some (upToNull read, rest)

def handle? : Text → Option (Text × Text)
  | '!' :: rest =>
    let name := rest.takeWhile isWord
    match rest.dropWhile isWord with
    | '!' :: rest => some ('!' :: name ++ ['!'], rest)
    | rest => some ('!' :: name, rest)
  | _ => none

/-- Reads a tag. A lone exclamation mark is a tag of its own. -/
def read? (text : Text) : Option (Written × Text) :=
  match text with
  | '!' :: '<' :: rest => do
    match ← nonemptySuffix? true rest with
    | (suffix, '>' :: rest) => some (⟨[], suffix⟩, rest)
    | _ => none
  | _ => do
    let (handle, rest) ← handle? text
    if 1 < handle.length && handle.getLast? == some '!' then
      let (suffix, rest) ← nonemptySuffix? false rest
      return (⟨handle, suffix⟩, rest)
    else
      let (read, rest) ← suffix? false 0 rest
      match upToNull (handle.drop 1 ++ read) with
      | [] => return (⟨[], ['!']⟩, rest)
      | suffix => return (⟨['!'], suffix⟩, rest)

def declaration? (text : Text) : Option (Text × Text × Text) := do
  let (handle, rest) ← handle? (text.dropWhile isBlank)
  if handle ≠ ['!'] && handle.getLast? != some '!' then none
  else if !rest.head?.any isBlank then none
  else
    let (start, rest) ← nonemptySuffix? true (rest.dropWhile isBlank)
    if endsWord rest then some (handle, start, rest) else none

def defaults : List (Text × Text) :=
  [(['!'], ['!']), (['!', '!'], "tag:yaml.org,2002:".toList)]

def absent : Text := "tag:yaml.org,2002:null".toList

def integer : Text := "tag:yaml.org,2002:int".toList

def Written.resolve? (written : Written) (declared : List (Text × Text)) : Option Text :=
  if written.handle.isEmpty then some written.suffix
  else ((declared ++ defaults).lookup written.handle).map (· ++ written.suffix)

example : read? "! a".toList = some (⟨[], ['!']⟩, " a".toList) := by decide

example : read? "!!int 5".toList = some (⟨"!!".toList, "int".toList⟩, " 5".toList) := by
  decide

end Acceptor.Yaml.Tag
