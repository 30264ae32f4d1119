import Acceptor.Proofs.Command.Sources
import Mathlib.Data.List.TakeWhile
/-!
Command lines as they are spelled. Options may stand anywhere among the other arguments, in every
form that they have, and two dashes end them. What a list of arguments spells is said here without
a word on how it is read. Reading agrees: a list that is understood spells something, and whatever
it spells is what it is understood as.
-/
namespace Acceptor.Command

inductive Piece where
  | description (text : Text)
  | setting (setting : Setting)
  | positional (text : Text)
deriving DecidableEq

namespace ValueOption

def longName : ValueOption → Text
  | description => "description".toList
  | color => "color".toList

def piece? (option : ValueOption) (value : Text) : Option Piece :=
  match option with
  | description => some (.description value)
  | color => (Arguments.colorChoice? value).map fun choice => .setting (.color choice)

end ValueOption

/-- Letters behind a common dash. The letter of an option with a value stands last: its value is the
rest of the argument, with or without a sign of equality, or else the next argument. -/
inductive Letters : Text → List Piece → Option ValueOption → Prop
  | done : Letters [] [] none
  | verbose {letters : Text} {pieces : List Piece} {awaited : Option ValueOption}
      (later : Letters letters pieces awaited) :
      Letters ('v' :: letters) (.setting .verbose :: pieces) awaited
  | attached {value : Text} (filled : value ≠ []) (unsigned : value.head? ≠ some '=') :
      Letters ('d' :: value) [.description value] none
  | signed (value : Text) : Letters ('d' :: '=' :: value) [.description value] none
  | apart : Letters ['d'] [] (some .description)

/-- What is said by an argument with options in it, and which option has its value in the next one,
if any. -/
inductive Says : Text → List Piece → Option ValueOption → Prop
  | short {letter : Char} {letters : Text} {pieces : List Piece} {awaited : Option ValueOption}
      (listed : Letters (letter :: letters) pieces awaited) :
      Says ('-' :: letter :: letters) pieces awaited
  | long {option : ValueOption} {value : Text} {piece : Piece}
      (fits : option.piece? value = some piece) :
      Says ('-' :: '-' :: (option.longName ++ '=' :: value)) [piece] none
  | longApart (option : ValueOption) : Says ('-' :: '-' :: option.longName) [] (some option)
  | compact : Says Setting.compact.argument [.setting .compact] none

inductive Spelled (name : Name) : List Piece → List Text → Prop
  | nil : Spelled name [] []
  | positional {text : Text} {pieces : List Piece} {texts : List Text} (loose : Loose name text)
      (later : Spelled name pieces texts) :
      Spelled name (.positional text :: pieces) (text :: texts)
  | options {text : Text} {first pieces : List Piece} {texts : List Text}
      (said : Says text first none) (later : Spelled name pieces texts) :
      Spelled name (first ++ pieces) (text :: texts)
  | withValue {text value : Text} {option : ValueOption} {piece : Piece} {first pieces : List Piece}
      {texts : List Text} (said : Says text first (some option)) (loose : Loose name value)
      (fits : option.piece? value = some piece) (later : Spelled name pieces texts) :
      Spelled name (first ++ piece :: pieces) (text :: value :: texts)
  | ended (words : List Text) : Spelled name (words.map .positional) (['-', '-'] :: words)

namespace Arguments

def add (name : Name) (arguments : Arguments) : Piece → Except Stop Arguments
  | .description text =>
    if arguments.inline.isSome then .error .misused
    else .ok { arguments with inline := some text }
  | .setting (.color choice) =>
    if arguments.color.isSome then .error .misused
    else .ok { arguments with color := some choice }
  | .setting .compact =>
    if name = .exec && !arguments.compact then .ok { arguments with compact := true }
    else .error .misused
  | .setting .verbose =>
    if name = .trace then .ok { arguments with verbose := arguments.verbose + 1 }
    else .error .misused
  | .positional text => arguments.positional name text

structure Ready (arguments : Arguments) : Prop where
  going : arguments.optionsEnded = false
  settled : arguments.awaiting = none

def await (awaited : Option ValueOption) (arguments : Arguments) : Arguments :=
  { arguments with awaiting := awaited }

def close (ended : Bool) (arguments : Arguments) : Arguments :=
  { arguments with optionsEnded := ended }

variable {name : Name} {arguments result : Arguments} {text value : Text} {piece : Piece}
  {pieces : List Piece} {awaited : Option ValueOption} {option : ValueOption}

theorem add_keeps (admitted : arguments.add name piece = .ok result) :
    result.optionsEnded = arguments.optionsEnded ∧ result.awaiting = arguments.awaiting := by
  unfold add at admitted
  split at admitted
  case h_5 text =>
    rw [(positional_eq_ok_iff.mp admitted).2]
    exact ⟨rfl, rfl⟩
  all_goals
    split at admitted
    all_goals cases admitted
    all_goals exact ⟨rfl, rfl⟩

theorem Ready.add (ready : arguments.Ready) (admitted : arguments.add name piece = .ok result) :
    result.Ready := by
  obtain ⟨ended, awaiting⟩ := add_keeps admitted
  exact ⟨ended.trans ready.going, awaiting.trans ready.settled⟩

theorem Ready.foldlM_add (ready : arguments.Ready)
    (admitted : pieces.foldlM (Arguments.add name) arguments = .ok result) : result.Ready := by
  induction pieces generalizing arguments with
  | nil =>
    cases admitted
    exact ready
  | cons piece pieces ih =>
    rw [List.foldlM_cons] at admitted
    obtain ⟨next, first, later⟩ := Fallible.bind_eq_ok_iff.mp admitted
    exact ih (ready.add first) later

theorem assign_of_fits (settled : arguments.awaiting = none)
    (fits : option.piece? value = some piece) (awaited : Option ValueOption) :
    (arguments.await awaited).assign option value = arguments.add name piece := by
  obtain ⟨inline, color, compact, verbose, positionals, awaiting, ended⟩ := arguments
  cases settled
  cases option with
  | description =>
    cases fits
    rfl
  | color =>
    obtain ⟨choice, called, rfl⟩ := Option.map_eq_some_iff.mp fits
    cases color with
    | none => simp only [await, assign, called, add]; rfl
    | some other => rfl

theorem long_unsigned {body : Text} (unsigned : '=' ∉ body) :
    arguments.long name body =
      if body = ValueOption.description.longName then .ok (arguments.await (some .description))
      else if body = ValueOption.color.longName then .ok (arguments.await (some .color))
      else if body = "help".toList then .error .helpWanted
      else if body = "compact".toList && name = .exec && !arguments.compact then
        .ok { arguments with compact := true }
      else .error .misused := by
  have passed : ∀ c ∈ body, decide (c ≠ '=') = true := by
    intro c member
    apply decide_eq_true
    rintro rfl
    exact unsigned member
  have front : body.takeWhile (· ≠ '=') = body := List.takeWhile_eq_self_iff.mpr passed
  have back : body.dropWhile (· ≠ '=') = [] := List.dropWhile_eq_nil_iff.mpr passed
  rw [long, front, back]
  rfl

theorem unsigned_longName (option : ValueOption) : '=' ∉ option.longName := by
  cases option <;> decide

theorem long_of_fits (settled : arguments.awaiting = none)
    (fits : option.piece? value = some piece) :
    arguments.long name (option.longName ++ '=' :: value) = arguments.add name piece := by
  rw [← assign_of_fits settled fits arguments.awaiting, long_signed (unsigned_longName option)]
  cases option with
  | description => rfl
  | color => rfl

theorem long_apart : arguments.long name option.longName = .ok (arguments.await (some option)) := by
  cases option <;> rfl

theorem Ready.await_none (ready : arguments.Ready) : arguments.await none = arguments := by
  rw [await, ← ready.settled]

theorem map_await_add (ready : arguments.Ready) (piece : Piece) :
    arguments.add name piece =
      ([piece].foldlM (add name) arguments).map (await none) := by
  cases admitted : arguments.add name piece with
  | error stop =>
    rw [List.foldlM_cons, admitted]
    rfl
  | ok next =>
    rw [Fallible.foldlM_cons_of_ok admitted]
    exact congrArg Except.ok (ready.add admitted).await_none.symm

theorem short_verbose_cons (letters : Text) :
    short name arguments ('v' :: letters) =
      arguments.add name (.setting .verbose) >>= fun next => short name next letters := by
  have read : short name arguments ('v' :: letters) =
      if name = .trace then
        short name { arguments with verbose := arguments.verbose + 1 } letters
      else .error .misused := by
    simp [short]
  rw [read, add]
  by_cases tracing : name = .trace
  · rw [if_pos tracing, if_pos tracing]
    rfl
  · rw [if_neg tracing, if_neg tracing]
    rfl

/-- The rest of the argument is the value, without a sign of equality in front of it. -/
theorem short_description {rest : Text} (ready : arguments.Ready)
    (valued : rest = '=' :: value ∨ rest = value ∧ value ≠ [] ∧ value.head? ≠ some '=') :
    short name arguments ('d' :: rest) = arguments.add name (.description value) := by
  have assigned : (arguments.await none).assign .description value =
      arguments.add name (.description value) := assign_of_fits ready.settled rfl none
  rw [← assigned, ready.await_none]
  rcases valued with rfl | ⟨rfl, filled, unsigned⟩
  · rfl
  · cases rest with
    | nil => exact absurd rfl filled
    | cons letter letters =>
      have other : letter ≠ '=' := by
        rintro rfl
        exact unsigned rfl
      simp [short, assignOrAwait, other]

theorem short_of_letters {letters : Text} (listed : Letters letters pieces awaited)
    (ready : arguments.Ready) :
    short name arguments letters =
      (pieces.foldlM (add name) arguments).map (await awaited) := by
  induction listed generalizing arguments with
  | done => exact congrArg Except.ok ready.await_none.symm
  | verbose later ih =>
    rw [List.foldlM_cons, short_verbose_cons]
    cases first : arguments.add name (.setting .verbose) with
    | error stop => rfl
    | ok next => exact ih (ready.add first)
  | attached filled unsigned =>
    rw [short_description ready (.inr ⟨rfl, filled, unsigned⟩)]
    exact map_await_add ready _
  | signed value =>
    rw [short_description ready (.inl rfl)]
    exact map_await_add ready _
  | apart => rfl

/-- An argument with options in it adds what it says, and then it awaits what it says. -/
theorem take_of_said (said : Says text pieces awaited) (ready : arguments.Ready) :
    take name arguments text = (pieces.foldlM (add name) arguments).map (await awaited) := by
  cases said with
  | @short letter letters _ _ listed =>
    have noDash : letter ≠ '-' := by
      rintro rfl
      cases listed
    have noNumeral : isNumeral (letter :: letters) = false := by
      cases listed <;> rfl
    rw [take_short ready.going ready.settled noDash noNumeral, short_of_letters listed ready]
  | @long option value piece fits =>
    have filled : option.longName ++ '=' :: value ≠ [] := by simp
    rw [take_long ready.going ready.settled filled, long_of_fits ready.settled fits]
    exact map_await_add ready piece
  | longApart option =>
    have filled : option.longName ≠ [] := by
      cases option <;> decide
    rw [take_long ready.going ready.settled filled, long_apart]
    rfl
  | compact =>
    rw [Setting.argument, take_long ready.going ready.settled (by decide),
      ← map_await_add ready, add]
    simp [long]

theorem add_close (ended : Bool) :
    (arguments.close ended).add name piece = (arguments.add name piece).map (close ended) := by
  -- What is looked at is the same with the mark and without it, so the branches correspond.
  have branches (condition : Prop) [Decidable condition] (first second : Except Stop Arguments) :
      (if condition then first else second).map (close ended) =
        if condition then first.map (close ended) else second.map (close ended) :=
    apply_ite _ _ _ _
  unfold add
  split
  case h_5 text =>
    rw [positional, positional, branches, branches]
    rfl
  all_goals
    rw [branches]
    rfl

theorem foldlM_add_close (ended : Bool) (pieces : List Piece) :
    pieces.foldlM (add name) (arguments.close ended) =
      (pieces.foldlM (add name) arguments).map (close ended) := by
  induction pieces generalizing arguments with
  | nil => rfl
  | cons piece pieces ih =>
    rw [List.foldlM_cons, List.foldlM_cons, add_close]
    cases arguments.add name piece with
    | error stop => rfl
    | ok next => exact ih

theorem foldlM_take_behind_end (ended : arguments.optionsEnded = true) (words : List Text) :
    words.foldlM (take name) arguments = (words.map .positional).foldlM (add name) arguments := by
  induction words generalizing arguments with
  | nil => rfl
  | cons word words ih =>
    rw [List.map_cons, List.foldlM_cons, List.foldlM_cons, take_behind_end ended, add]
    cases taken : arguments.positional name word with
    | error stop => rfl
    | ok next =>
      have kept : next.optionsEnded = true := by
        rw [(positional_eq_ok_iff.mp taken).2]
        exact ended
      exact ih kept

/-- Arguments are understood as the pieces that they spell, and all that is left of their form is
whether there were two dashes. -/
theorem foldlM_take_of_spelled {texts : List Text} (spelled : Spelled name pieces texts)
    (ready : arguments.Ready) :
    ∃ ended, texts.foldlM (take name) arguments =
      (pieces.foldlM (add name) arguments).map (close ended) := by
  -- What is kept is that an option may stand here. Only an option that awaits its value interrupts
  -- that, and the value is taken in the same step.
  induction spelled generalizing arguments with
  | nil =>
    refine ⟨arguments.optionsEnded, rfl⟩
  | @positional text pieces texts loose later ih =>
    have taken : take name arguments text = arguments.add name (.positional text) := by
      rw [take_loose ready.going loose, plain, ready.settled, add]
    rw [List.foldlM_cons, List.foldlM_cons, taken]
    cases admitted : arguments.add name (.positional text) with
    | error stop => exact ⟨false, rfl⟩
    | ok next => exact ih (ready.add admitted)
  | @options text first pieces texts said later ih =>
    rw [List.foldlM_cons, List.foldlM_append, take_of_said said ready]
    cases admitted : first.foldlM (add name) arguments with
    | error stop => exact ⟨false, rfl⟩
    | ok next =>
      have behind := ready.foldlM_add admitted
      change ∃ ended, texts.foldlM (take name) (next.await none) =
        (pieces.foldlM (add name) next).map (close ended)
      rw [behind.await_none]
      exact ih behind
  | @withValue text value option piece first pieces texts said loose fits later ih =>
    rw [List.foldlM_cons, List.foldlM_append, take_of_said said ready]
    cases admitted : first.foldlM (add name) arguments with
    | error stop => exact ⟨false, rfl⟩
    | ok next =>
      have behind := ready.foldlM_add admitted
      have valued : take name (next.await (some option)) value = next.add name piece := by
        have going : (next.await (some option)).optionsEnded = false := behind.going
        rw [take_loose going loose]
        exact assign_of_fits behind.settled fits (some option)
      change ∃ ended, (value :: texts).foldlM (take name) (next.await (some option)) =
        ((piece :: pieces).foldlM (add name) next).map (close ended)
      rw [List.foldlM_cons, List.foldlM_cons, valued]
      cases given : next.add name piece with
      | error stop => exact ⟨false, rfl⟩
      | ok further => exact ih (behind.add given)
  | ended words =>
    refine ⟨true, ?_⟩
    rw [Fallible.foldlM_cons_of_ok (take_end ready.going ready.settled),
      foldlM_take_behind_end rfl]
    exact foldlM_add_close true _

theorem ready_empty : ({} : Arguments).Ready := ⟨rfl, rfl⟩

theorem parse_of_spelled {texts : List Text} (spelled : Spelled name pieces texts) :
    parse name texts = (pieces.foldlM (add name) {}).map (invocation name) := by
  obtain ⟨ended, same⟩ := foldlM_take_of_spelled spelled ready_empty
  rw [parse, same]
  cases admitted : pieces.foldlM (add name) {} with
  | error stop => rfl
  | ok result =>
    have ready := ready_empty.foldlM_add admitted
    have settled : ((result.close ended).awaiting.isSome) = false := by
      change result.awaiting.isSome = false
      rw [ready.settled]
      rfl
    change (if (result.close ended).awaiting.isSome then _ else _) = _
    rw [settled, if_neg Bool.false_ne_true]
    cases name <;> rfl

end Arguments

end Acceptor.Command
