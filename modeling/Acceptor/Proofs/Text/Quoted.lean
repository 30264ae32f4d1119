import Acceptor.Proofs.Yaml.Numeral
import Acceptor.Text.Quoted
/-!
Quoted symbols read back. The form of a symbol shows where it ends, and no two symbols have one
form, whichever characters are chosen to stand for themselves. So a symbol is read off the front of
a text together with the rest of the text, whatever that is.
-/
namespace Acceptor.Text.Quoted

/-- The form of one character, where `shown` chooses the characters that stand for themselves. The
ones with a short form never do. -/
def escapedBy (shown : Char → Bool) (c : Char) : Text :=
  match shortForm? c with
  | some letter => ['\\', letter]
  | none => if shown c then [c] else braced c

/-- A symbol between single quotes, where `shown` chooses the characters that stand for
themselves. -/
def quoteBy (shown : Char → Bool) (c : Char) : Text := '\'' :: escapedBy shown c ++ ['\'']

def longForm? : Char → Option Char
  | '0' => some '\x00'
  | 't' => some '\t'
  | 'n' => some '\n'
  | 'r' => some '\r'
  | '\'' => some '\''
  | '"' => some '"'
  | '\\' => some '\\'
  | _ => none

def unbrace? (text : Text) : Option (Char × Text) :=
  match text.dropWhile (· ≠ '\x7d') with
  | [] => none
  | _ :: rest => (Yaml.Scalar.Quoted.ofDigits? (text.takeWhile (· ≠ '\x7d'))).map (·, rest)

def unescape? : Text → Option (Char × Text)
  | [] => none
  | '\\' :: 'u' :: '\x7b' :: rest => unbrace? rest
  | '\\' :: letter :: rest => (longForm? letter).map (·, rest)
  | c :: rest => some (c, rest)

def unquote? : Text → Option (Char × Text)
  | '\'' :: text =>
    match unescape? text with
    | some (c, '\'' :: rest) => some (c, rest)
    | _ => none
  | _ => none

variable {shown : Char → Bool} {c : Char}

theorem quote_eq_quoteBy (c : Char) : quote c = quoteBy visible c := rfl

/-- The closing brace is no digit, so the digits end where it stands. -/
theorem unbrace?_toDigits (c : Char) (rest : Text) :
    unbrace? (Nat.toDigits 16 c.toNat ++ '\x7d' :: rest) = some (c, rest) := by
  have apart : ∀ digit, digit < 16 → Nat.digitChar digit ≠ '\x7d' := by decide
  have passed : ∀ d ∈ Nat.toDigits 16 c.toNat, decide (d ≠ '\x7d') = true := by
    intro d member
    obtain ⟨digit, small, rfl⟩ := Decimal.exists_digit_of_mem_toDigits (by decide) member
    exact decide_eq_true (apart digit small)
  have read := Yaml.ofDigits?_of_hexadecimal? (Yaml.hexadecimal?_toDigits c.toNat)
  rw [unbrace?, List.dropWhile_append_of_pos passed, List.takeWhile_append_of_pos passed,
    List.dropWhile_cons_of_neg (by decide), List.takeWhile_cons_of_neg (by decide),
    List.append_nil, read]
  rfl

theorem unescape?_cons (differ : c ≠ '\\') (rest : Text) :
    unescape? (c :: rest) = some (c, rest) := by
  unfold unescape?
  split
  next same => cases same
  next same =>
    injection same with same
    exact absurd same differ
  next same =>
    injection same with same
    exact absurd same differ
  next same =>
    cases same
    rfl

theorem unescape?_escapedBy (shown : Char → Bool) (c : Char) (rest : Text) :
    unescape? (escapedBy shown c ++ rest) = some (c, rest) := by
  unfold escapedBy
  split
  next letter short =>
    unfold shortForm? at short
    split at short
    all_goals cases short
    all_goals rfl
  next plain =>
    split
    next =>
      have differ : c ≠ '\\' := by
        rintro rfl
        cases plain
      exact unescape?_cons differ rest
    next =>
      rw [braced, List.append_assoc, List.append_assoc]
      exact unbrace?_toDigits c rest

/-- A quoted symbol is read back, and what follows it is left as it is. -/
theorem unquote?_quoteBy (shown : Char → Bool) (c : Char) (rest : Text) :
    unquote? (quoteBy shown c ++ rest) = some (c, rest) := by
  have body : quoteBy shown c ++ rest = '\'' :: (escapedBy shown c ++ '\'' :: rest) := by
    rw [quoteBy, List.append_assoc, List.cons_append, List.singleton_append]
  rw [body, unquote?, unescape?_escapedBy]
  rfl

theorem unquote?_quote (c : Char) (rest : Text) :
    unquote? (quote c ++ rest) = some (c, rest) := by
  rw [quote_eq_quoteBy, unquote?_quoteBy]

/-- In front of two texts, two labels can only be told apart or be one and the same: reading gives
the symbol together with all that follows it. -/
theorem quoteBy_append_inj (shown : Char → Bool) {c d : Char} {x y : Text} :
    quoteBy shown c ++ x = quoteBy shown d ++ y ↔ c = d ∧ x = y := by
  constructor
  · intro same
    have read := congrArg unquote? same
    rw [unquote?_quoteBy, unquote?_quoteBy] at read
    exact Prod.mk.inj (Option.some.inj read)
  · rintro ⟨rfl, rfl⟩
    rfl

/-- Labels are uniquely readable, whichever characters are chosen to stand for themselves: a text
that begins with a label begins with one label only, and goes on behind it in one way. In
particular, no label is that of two symbols, and none is the beginning of another. The labels of a
listing or a trace are the ones for the choice that is made there. -/
theorem labels_are_uniquely_readable :
    (∀ (shown : Char → Bool) (c d : Char) (x y : Text),
        quoteBy shown c ++ x = quoteBy shown d ++ y ↔ c = d ∧ x = y) ∧
      (∀ (shown : Char → Bool) (c d : Char), quoteBy shown c <+: quoteBy shown d ↔ c = d) ∧
      ∀ (c d : Char) (x y : Text), quote c ++ x = quote d ++ y ↔ c = d ∧ x = y := by
  refine ⟨fun shown c d x y => quoteBy_append_inj shown, ?_, ?_⟩
  · intro shown c d
    constructor
    · rintro ⟨rest, goesOn⟩
      rw [← List.append_nil (quoteBy shown d)] at goesOn
      exact ((quoteBy_append_inj shown).mp goesOn).1
    · rintro rfl
      exact List.prefix_rfl
  · intro c d x y
    rw [quote_eq_quoteBy, quote_eq_quoteBy]
    exact quoteBy_append_inj visible

end Acceptor.Text.Quoted
