import Acceptor.Json
import Acceptor.Yaml.Character
/-!
The grammar of JSON. A text is a sequence of tokens with blanks between them; it is read one
character after the other, and strings and numerals are decoded as they are read. A value is spelled
by one sequence of tokens only, and no other value by the same sequence, so that a text denotes at
most one value.
-/
namespace Acceptor.Json

/-- A value without parts. A number is kept as its numeral. -/
inductive Scalar where
  | null
  | truth (value : Bool)
  | number (numeral : Text)
  | string (text : Text)
deriving DecidableEq, Repr

/-- A value. The fields of a record keep their order, and a name may have several. -/
inductive Value where
  | scalar (scalar : Scalar)
  | list (items : List Value)
  | record (fields : List (Text × Value))

inductive Token where
  | scalar (scalar : Scalar)
  | openList
  | closeList
  | openRecord
  | closeRecord
  | comma
  | colon
deriving DecidableEq, Repr

/-! Numerals and names -/

def isDigits (text : Text) : Bool := !text.isEmpty && text.all Char.isDigit

def isWhole (text : Text) : Bool := isDigits text && (text.length == 1 || text.head? != some '0')

def isFraction : Text → Bool
  | [] => true
  | point :: digits => point == '.' && isDigits digits

def isExponent : Text → Bool
  | [] => true
  | mark :: sign :: digits =>
    (mark == 'e' || mark == 'E') &&
      (isDigits (sign :: digits) || (sign == '+' || sign == '-') && isDigits digits)
  | _ => false

/-- Whether a text is a numeral: perhaps a minus sign, a whole number, perhaps a fraction and
perhaps an exponent. -/
def isNumeral (text : Text) : Bool :=
  let unsigned := if text.head? = some '-' then text.tail else text
  let mantissa := unsigned.takeWhile fun c => c != 'e' && c != 'E'
  let exponent := unsigned.dropWhile fun c => c != 'e' && c != 'E'
  isWhole (mantissa.takeWhile (· != '.')) && isFraction (mantissa.dropWhile (· != '.')) &&
    isExponent exponent

def ofWord? (word : Text) : Option Scalar :=
  if word = "null".toList then some .null
  else if word = "true".toList then some (.truth true)
  else if word = "false".toList then some (.truth false)
  else if isNumeral word then some (.number word)
  else none

/-! Characters -/

def isBlank (c : Char) : Bool := c == ' ' || c == '\t' || c == '\n' || c == '\r'

def isWordChar (c : Char) : Bool := c.isAlphanum || c == '+' || c == '-' || c == '.'

def structural? : Char → Option Token
  | '[' => some .openList
  | ']' => some .closeList
  | '{' => some .openRecord
  | '}' => some .closeRecord
  | ',' => some .comma
  | ':' => some .colon
  | _ => none

def letter? : Char → Option Char
  | '"' => some '"'
  | '\\' => some '\\'
  | '/' => some '/'
  | 'b' => some '\x08'
  | 'f' => some '\x0c'
  | 'n' => some '\n'
  | 'r' => some '\r'
  | 't' => some '\t'
  | _ => none

/-! Reading -/

inductive Mode where
  | between
  | word (letters : Text)
  | string (chars : Text)
  | escape (chars : Text) (high : Option Nat)
  | unit (chars : Text) (high : Option Nat) (digits : Text)
  /-- Behind the first half of a pair, which only the second half may follow. -/
  | halfway (chars : Text) (high : Nat)
deriving DecidableEq, Repr

/-- What a code unit of sixteen bits adds to a string. Two halves of a pair are one character, and
a half that is alone is none. -/
def unit? (chars : Text) (high : Option Nat) (value : Nat) : Option Mode :=
  let isLow := 0xDC00 ≤ value ∧ value < 0xE000
  match high with
  | none =>
    if 0xD800 ≤ value ∧ value < 0xDC00 then some (.halfway chars value)
    else if isLow then none
    else some (.string (chars ++ [Char.ofNat value]))
  | some high =>
    if isLow then
      some (.string (chars ++ [Char.ofNat (0x10000 + (high - 0xD800) * 0x400 + (value - 0xDC00))]))
    else none

structure Reading where
  tokens : List Token
  mode : Mode
deriving DecidableEq, Repr

def begin? (tokens : List Token) (c : Char) : Option Reading :=
  if isBlank c then some ⟨tokens, .between⟩
  else if c = '"' then some ⟨tokens, .string []⟩
  else if isWordChar c then some ⟨tokens, .word [c]⟩
  else (structural? c).map fun token => ⟨tokens ++ [token], .between⟩

def Reading.take? (reading : Reading) (c : Char) : Option Reading :=
  match reading.mode with
  | .between => begin? reading.tokens c
  | .word letters =>
    if isWordChar c then some { reading with mode := .word (letters ++ [c]) }
    else (ofWord? letters).bind fun scalar => begin? (reading.tokens ++ [.scalar scalar]) c
  | .string chars =>
    if c = '"' then some ⟨reading.tokens ++ [.scalar (.string chars)], .between⟩
    else if c = '\\' then some { reading with mode := .escape chars none }
    else if c < ' ' then none
    else some { reading with mode := .string (chars ++ [c]) }
  | .escape chars high =>
    if c = 'u' then some { reading with mode := .unit chars high [] }
    else if high.isSome then none
    else (letter? c).map fun meant => { reading with mode := .string (chars ++ [meant]) }
  | .unit chars high digits =>
    if digits.length < 3 then some { reading with mode := .unit chars high (digits ++ [c]) }
    else ((Yaml.hexadecimal? (digits ++ [c])).bind (unit? chars high)).map fun mode =>
      { reading with mode := mode }
  | .halfway chars high =>
    if c = '\\' then some { reading with mode := .escape chars (some high) } else none

def Reading.tokens? (reading : Reading) : Option (List Token) :=
  match reading.mode with
  | .between => some reading.tokens
  | .word letters => (ofWord? letters).map fun scalar => reading.tokens ++ [.scalar scalar]
  | _ => none

def tokens? (text : Text) : Option (List Token) :=
  (text.foldlM Reading.take? ⟨[], .between⟩).bind Reading.tokens?

/-! Values -/

mutual

def Value.tokens : Value → List Token
  | .scalar scalar => [.scalar scalar]
  | .list items => .openList :: itemTokens items
  | .record fields => .openRecord :: fieldTokens fields

def itemTokens : List Value → List Token
  | [] => [.closeList]
  | item :: rest => item.tokens ++ furtherItems rest

def furtherItems : List Value → List Token
  | [] => [.closeList]
  | item :: rest => .comma :: (item.tokens ++ furtherItems rest)

def fieldTokens : List (Text × Value) → List Token
  | [] => [.closeRecord]
  | (name, value) :: rest =>
    .scalar (.string name) :: .colon :: (value.tokens ++ furtherFields rest)

def furtherFields : List (Text × Value) → List Token
  | [] => [.closeRecord]
  | (name, value) :: rest =>
    .comma :: .scalar (.string name) :: .colon :: (value.tokens ++ furtherFields rest)

end

def Denotes (text : Text) (value : Value) : Prop := tokens? text = some value.tokens

instance (text : Text) (value : Value) : Decidable (Denotes text value) :=
  inferInstanceAs (Decidable (_ = _))

example :
    Denotes "\x7b \"\\ud83d\\uDE00\\/\" : [-0.5e+3, null],\n\"\":\"\\u0041\" \x7d ".toList
      (.record [(['😀', '/'],
        .list [.scalar (.number "-0.5e+3".toList), .scalar .null]),
        ([], .scalar (.string ['A']))]) := by decide

example : tokens? "[01]".toList = none := by decide

/-! Unique readability -/

/-- The tokens that can stand first in a value. Separators and ends of collections cannot. -/
def Token.begins : Token → Bool
  | .scalar _ | .openList | .openRecord => true
  | _ => false

theorem Value.exists_first (value : Value) :
    ∃ first rest, value.tokens = first :: rest ∧ first.begins = true := by
  cases value with
  | scalar scalar => exact ⟨_, _, by rw [Value.tokens], rfl⟩
  | list items => exact ⟨_, _, by rw [Value.tokens], rfl⟩
  | record fields => exact ⟨_, _, by rw [Value.tokens], rfl⟩

theorem Value.tokens_append_ne (value : Value) (rest : List Token) {token : Token}
    (no : token.begins = false) (later : List Token) : value.tokens ++ rest ≠ token :: later := by
  obtain ⟨first, others, spelled, begins⟩ := value.exists_first
  intro same
  rw [spelled, List.cons_append] at same
  injection same with same _
  rw [same, no] at begins
  cases begins

mutual

theorem Value.tokens_append_inj : ∀ (one two : Value) (rest other : List Token),
    one.tokens ++ rest = two.tokens ++ other → one = two ∧ rest = other
  | .scalar one, two, rest, other, same => by
    cases two with
    | scalar two =>
      simp only [Value.tokens, List.cons_append, List.cons.injEq, Token.scalar.injEq] at same
      exact ⟨congrArg _ same.1, same.2⟩
    | list items => simp [Value.tokens] at same
    | record fields => simp [Value.tokens] at same
  | .list one, two, rest, other, same => by
    cases two with
    | scalar two => simp [Value.tokens] at same
    | list two =>
      simp only [Value.tokens, List.cons_append, List.cons.injEq, true_and] at same
      obtain ⟨items, later⟩ := itemTokens_append_inj one two rest other same
      exact ⟨congrArg _ items, later⟩
    | record fields => simp [Value.tokens] at same
  | .record one, two, rest, other, same => by
    cases two with
    | scalar two => simp [Value.tokens] at same
    | list items => simp [Value.tokens] at same
    | record two =>
      simp only [Value.tokens, List.cons_append, List.cons.injEq, true_and] at same
      obtain ⟨fields, later⟩ := fieldTokens_append_inj one two rest other same
      exact ⟨congrArg _ fields, later⟩

theorem itemTokens_append_inj : ∀ (one two : List Value) (rest other : List Token),
    itemTokens one ++ rest = itemTokens two ++ other → one = two ∧ rest = other
  | [], [], rest, other, same => by
    simp only [itemTokens, List.cons_append, List.cons.injEq, true_and] at same
    exact ⟨rfl, same⟩
  | [], item :: two, rest, other, same => by
    rw [itemTokens, itemTokens, List.append_assoc] at same
    exact absurd same.symm (item.tokens_append_ne _ rfl _)
  | item :: one, [], rest, other, same => by
    rw [itemTokens, itemTokens, List.append_assoc] at same
    exact absurd same (item.tokens_append_ne _ rfl _)
  | item :: one, item' :: two, rest, other, same => by
    rw [itemTokens, itemTokens, List.append_assoc, List.append_assoc] at same
    obtain ⟨rfl, further⟩ := Value.tokens_append_inj item item' _ _ same
    obtain ⟨items, later⟩ := furtherItems_append_inj one two rest other further
    exact ⟨congrArg _ items, later⟩

theorem furtherItems_append_inj : ∀ (one two : List Value) (rest other : List Token),
    furtherItems one ++ rest = furtherItems two ++ other → one = two ∧ rest = other
  | [], [], rest, other, same => by
    simp only [furtherItems, List.cons_append, List.cons.injEq, true_and] at same
    exact ⟨rfl, same⟩
  | [], item :: two, rest, other, same => by simp [furtherItems] at same
  | item :: one, [], rest, other, same => by simp [furtherItems] at same
  | item :: one, item' :: two, rest, other, same => by
    simp only [furtherItems, List.cons_append, List.append_assoc, List.cons.injEq, true_and] at same
    obtain ⟨rfl, further⟩ := Value.tokens_append_inj item item' _ _ same
    obtain ⟨items, later⟩ := furtherItems_append_inj one two rest other further
    exact ⟨congrArg _ items, later⟩

theorem fieldTokens_append_inj : ∀ (one two : List (Text × Value)) (rest other : List Token),
    fieldTokens one ++ rest = fieldTokens two ++ other → one = two ∧ rest = other
  | [], [], rest, other, same => by
    simp only [fieldTokens, List.cons_append, List.cons.injEq, true_and] at same
    exact ⟨rfl, same⟩
  | [], (name, value) :: two, rest, other, same => by simp [fieldTokens] at same
  | (name, value) :: one, [], rest, other, same => by simp [fieldTokens] at same
  | (name, value) :: one, (name', value') :: two, rest, other, same => by
    simp only [fieldTokens, List.cons_append, List.append_assoc, List.cons.injEq, Token.scalar.injEq,
      Scalar.string.injEq, true_and] at same
    obtain ⟨rfl, same⟩ := same
    obtain ⟨rfl, further⟩ := Value.tokens_append_inj value value' _ _ same
    obtain ⟨fields, later⟩ := furtherFields_append_inj one two rest other further
    exact ⟨congrArg _ fields, later⟩

theorem furtherFields_append_inj : ∀ (one two : List (Text × Value)) (rest other : List Token),
    furtherFields one ++ rest = furtherFields two ++ other → one = two ∧ rest = other
  | [], [], rest, other, same => by
    simp only [furtherFields, List.cons_append, List.cons.injEq, true_and] at same
    exact ⟨rfl, same⟩
  | [], (name, value) :: two, rest, other, same => by simp [furtherFields] at same
  | (name, value) :: one, [], rest, other, same => by simp [furtherFields] at same
  | (name, value) :: one, (name', value') :: two, rest, other, same => by
    simp only [furtherFields, List.cons_append, List.append_assoc, List.cons.injEq,
      Token.scalar.injEq, Scalar.string.injEq, true_and] at same
    obtain ⟨rfl, same⟩ := same
    obtain ⟨rfl, further⟩ := Value.tokens_append_inj value value' _ _ same
    obtain ⟨fields, later⟩ := furtherFields_append_inj one two rest other further
    exact ⟨congrArg _ fields, later⟩

end

theorem Value.tokens_injective : Function.Injective Value.tokens := by
  intro one two same
  have ended : one.tokens ++ [] = two.tokens ++ [] := by rw [same]
  exact (Value.tokens_append_inj one two [] [] ended).1

theorem Denotes.unique {text : Text} {one two : Value} (first : Denotes text one)
    (second : Denotes text two) : one = two :=
  Value.tokens_injective (Option.some.inj (first.symm.trans second))

end Acceptor.Json
