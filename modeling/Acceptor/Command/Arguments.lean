import Acceptor.Command.Invocation
/-!
Reading command lines. Options and other arguments may be mixed; behind two dashes no argument is
an option. The first argument that is wrong, or that asks for help, decides. Arguments are texts:
one that is not UTF-8, which would have its wrong octets replaced, is not considered here.
-/
namespace Acceptor.Command

inductive Stop where
  | misused
  | helpWanted
deriving DecidableEq, Repr

inductive Name where
  | check
  | dump
  | exec
  | trace
  | repl
deriving DecidableEq, Repr

namespace Name

def text : Name → Text
  | check => "check".toList
  | dump => "dump".toList
  | exec => "exec".toList
  | trace => "trace".toList
  | repl => "repl".toList

def all : List Name := [check, dump, exec, trace, repl]

def ofText? (called : Text) : Option Name := all.find? (·.text == called)

def takesNegativeNumbers : Name → Bool
  | exec | trace => true
  | _ => false

def limit? : Name → Option Nat
  | exec => none
  | trace => some 2
  | _ => some 1

end Name

/-- Numerals behind a minus sign: digits, perhaps a point and more digits, perhaps an exponent. -/
def isNumeral (text : Text) : Bool :=
  match text with
  | [] => false
  | first :: _ =>
    first.isDigit &&
      match text.dropWhile Char.isDigit with
      | '.' :: rest => isExponent (rest.dropWhile Char.isDigit)
      | rest => isExponent rest
where
  isExponent : Text → Bool
    | [] => true
    | mark :: digits =>
      (mark == 'e' || mark == 'E') && !digits.isEmpty && digits.all Char.isDigit

/-- Where the arguments that are no options are put as they come: the first in a place for a path,
and all others in one for words. -/
structure Slots where
  path : Option Text := none
  words : List Text := []
deriving DecidableEq, Repr

namespace Slots

def put (slots : Slots) (text : Text) : Slots :=
  match slots.path with
  | none => { slots with path := some text }
  | some _ => { slots with words := slots.words ++ [text] }

def shift (slots : Slots) : Slots :=
  match slots.path with
  | some path => ⟨none, path :: slots.words⟩
  | none => slots

/-- What was taken for a path becomes the word, unless there is one. -/
def shiftAlone (slots : Slots) : Slots :=
  match slots.words with
  | [] => slots.shift
  | _ :: _ => slots

theorem foldl_put_filled (path : Text) (words texts : List Text) :
    texts.foldl put ⟨some path, words⟩ = ⟨some path, words ++ texts⟩ := by
  induction texts generalizing words with
  | nil => rw [List.foldl_nil, List.append_nil]
  | cons text texts ih =>
    rw [List.foldl_cons, put, ih, List.append_assoc, List.singleton_append]

theorem foldl_put (texts : List Text) : texts.foldl put {} = ⟨texts.head?, texts.tail⟩ := by
  cases texts with
  | nil => rfl
  | cons path words => exact foldl_put_filled path [] words

theorem shift_filled (texts : List Text) :
    shift ⟨texts.head?, texts.tail⟩ = ⟨none, texts⟩ := by
  cases texts <;> rfl

theorem shiftAlone_of_few {texts : List Text} (few : texts.length ≤ 1) :
    shiftAlone ⟨texts.head?, texts.tail⟩ = ⟨none, texts⟩ := by
  have noWords : texts.tail = [] := by
    apply List.eq_nil_of_length_eq_zero
    rw [List.length_tail]
    omega
  rw [shiftAlone, ← shift_filled texts, noWords]

theorem shiftAlone_of_many {texts : List Text} (many : 1 < texts.length) :
    shiftAlone ⟨texts.head?, texts.tail⟩ = ⟨texts.head?, texts.tail⟩ := by
  match texts with
  | path :: word :: more => rfl

end Slots

inductive ValueOption where
  | description
  | color
deriving DecidableEq, Repr

/-- The arguments understood so far; those that are no options stand newest first. An option whose
value is the next argument is awaiting it. -/
structure Arguments where
  inline : Option Text := none
  color : Option ColorChoice := none
  compact : Bool := false
  verbose : Nat := 0
  positionals : List Text := []
  awaiting : Option ValueOption := none
  optionsEnded : Bool := false
deriving DecidableEq, Repr

namespace Arguments

def colorChoice? (text : Text) : Option ColorChoice :=
  [("auto".toList, .auto), ("always".toList, .always), ("never".toList, .never)].lookup text

def assign (arguments : Arguments) (option : ValueOption) (value : Text) : Except Stop Arguments :=
  match option with
  | .description =>
    if arguments.inline.isSome then .error .misused
    else .ok { arguments with inline := some value, awaiting := none }
  | .color =>
    match arguments.color, colorChoice? value with
    | none, some choice => .ok { arguments with color := some choice, awaiting := none }
    | _, _ => .error .misused

def assignOrAwait (arguments : Arguments) (option : ValueOption) :
    Option Text → Except Stop Arguments
  | some value => arguments.assign option value
  | none => .ok { arguments with awaiting := some option }

/-- An argument that is no option. The first names a file, and no file has the empty name. -/
def positional (name : Name) (arguments : Arguments) (text : Text) : Except Stop Arguments :=
  if name.limit?.any (· ≤ arguments.positionals.length) then .error .misused
  else if arguments.positionals.isEmpty && text.isEmpty then .error .misused
  else .ok { arguments with positionals := text :: arguments.positionals }

def long (name : Name) (arguments : Arguments) (body : Text) : Except Stop Arguments :=
  let option := body.takeWhile (· ≠ '=')
  let value? := match body.dropWhile (· ≠ '=') with
    | _ :: value => some value
    | [] => none
  if option = "description".toList then arguments.assignOrAwait .description value?
  else if option = "color".toList then arguments.assignOrAwait .color value?
  else if value?.isSome then .error .misused
  else if option = "help".toList then .error .helpWanted
  else if option = "compact".toList && name = .exec && !arguments.compact then
    .ok { arguments with compact := true }
  else .error .misused

/-- Options of one letter, behind their common dash. The letter of an option with a value takes the
rest of the argument, with or without a sign of equality. -/
def short (name : Name) : Arguments → Text → Except Stop Arguments
  | arguments, [] => .ok arguments
  | arguments, 'd' :: rest =>
    arguments.assignOrAwait .description <|
      match rest with
      | [] => none
      | '=' :: value => some value
      | value => some value
  | arguments, letter :: rest =>
    if letter = 'h' then .error .helpWanted
    else if letter = 'v' && name = .trace then
      short name { arguments with verbose := arguments.verbose + 1 } rest
    else .error .misused

def plain (name : Name) (arguments : Arguments) (text : Text) : Except Stop Arguments :=
  match arguments.awaiting with
  | some option => arguments.assign option text
  | none => arguments.positional name text

/-- Takes an argument in. An option that awaits a value does not find it in another option. -/
def take (name : Name) (arguments : Arguments) (text : Text) : Except Stop Arguments :=
  if arguments.optionsEnded then arguments.positional name text
  else match text with
    | '-' :: '-' :: body =>
      if arguments.awaiting.isSome then .error .misused
      else if body.isEmpty then .ok { arguments with optionsEnded := true }
      else arguments.long name body
    | '-' :: letter :: letters =>
      if name.takesNegativeNumbers && isNumeral (letter :: letters) then arguments.plain name text
      else if arguments.awaiting.isSome then .error .misused
      else arguments.short name (letter :: letters)
    | _ => arguments.plain name text

def verbosity (arguments : Arguments) : Verbosity :=
  match arguments.verbose with
  | 0 => .brief
  | 1 => .verbose
  | _ => .veryVerbose

def slots (arguments : Arguments) : Slots := arguments.positionals.reverse.foldl Slots.put {}

/-- The invocation that the arguments of a command amount to. With a description on the command
line, what was put in the place for a path may turn out to be a word. -/
def invocation (name : Name) (arguments : Arguments) : Invocation :=
  let slots := arguments.slots
  let inline := arguments.inline
  let color := arguments.color.getD .auto
  match name with
  | .check => ⟨.check, ⟨slots.path, inline⟩, color⟩
  | .dump => ⟨.dump, ⟨slots.path, inline⟩, color⟩
  | .repl => ⟨.repl, ⟨slots.path, inline⟩, color⟩
  | .exec =>
    let shifted := if inline.isSome then slots.shift else slots
    ⟨.exec shifted.words arguments.compact, ⟨shifted.path, inline⟩, color⟩
  | .trace =>
    let shifted := if inline.isSome then slots.shiftAlone else slots
    ⟨.trace (shifted.words.head?.getD []) arguments.verbosity, ⟨shifted.path, inline⟩, color⟩

def parse (name : Name) (texts : List Text) : Except Stop Invocation := do
  let arguments ← texts.foldlM (take name) {}
  if arguments.awaiting.isSome then .error .misused
  else return arguments.invocation name

end Arguments

def parseHelp : List Text → Stop
  | [] => .helpWanted
  | [called] =>
    if (Name.ofText? called).isSome || called = "help".toList then .helpWanted else .misused
  | _ => .misused

def Invocation.parse : List Text → Except Stop Invocation
  | [] => .error .misused
  | first :: rest =>
    match Name.ofText? first with
    | some name => Arguments.parse name rest
    | none =>
      if first = "help".toList then .error (parseHelp rest)
      else match first with
        | '-' :: 'h' :: _ => .error .helpWanted
        | _ => .error (if first = "--help".toList then .helpWanted else .misused)

example : isNumeral "1.E5".toList = true := by decide

example : isNumeral "1e".toList = false := by decide

end Acceptor.Command
