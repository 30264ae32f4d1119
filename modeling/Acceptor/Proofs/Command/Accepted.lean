import Acceptor.Proofs.Command.Spelling
/-!
What is understood is spelled. Every argument that a command takes in is one that no option can be,
or the two dashes, or one with options in it, and so a whole list that it understands spells some
pieces.
-/
namespace Acceptor.Command.Arguments

variable {name : Name} {arguments result : Arguments} {text value : Text} {option : ValueOption}

theorem letter_of_short {letter : Char} {letters : Text}
    (taken : short name arguments (letter :: letters) = .ok result) :
    letter = 'd' ∨ letter = 'v' := by
  by_cases valued : letter = 'd'
  · exact .inl valued
  · right
    rw [short] at taken
    · split at taken
      · cases taken
      · split at taken
        next found => exact of_decide_eq_true (Bool.and_eq_true_iff.mp found).1
        next => cases taken
    · exact valued

theorem letters_of_short {letters : Text} (ready : arguments.Ready)
    (taken : short name arguments letters = .ok result) :
    ∃ pieces, Letters letters pieces result.awaiting ∧ result.optionsEnded = false := by
  induction letters generalizing arguments with
  | nil =>
    cases taken
    refine ⟨[], ?_, ready.going⟩
    rw [ready.settled]
    exact .done
  | cons letter rest ih =>
    rcases letter_of_short taken with rfl | rfl
    · cases rest with
      | nil =>
        cases taken
        exact ⟨[], .apart, ready.going⟩
      | cons first more =>
        by_cases sign : first = '='
        · subst sign
          rw [short_description ready (.inl rfl)] at taken
          have behind := ready.add taken
          rw [behind.settled]
          exact ⟨_, .signed more, behind.going⟩
        · have unsigned : (first :: more).head? ≠ some '=' := fun same => sign (Option.some.inj same)
          have filled : first :: more ≠ [] := List.cons_ne_nil first more
          rw [short_description ready (.inr ⟨rfl, filled, unsigned⟩)] at taken
          have behind := ready.add taken
          rw [behind.settled]
          exact ⟨_, .attached filled unsigned, behind.going⟩
    · rw [short_verbose_cons] at taken
      obtain ⟨next, admitted, later⟩ := Fallible.bind_eq_ok_iff.mp taken
      obtain ⟨pieces, listed, going⟩ := ih (ready.add admitted) later
      exact ⟨_, .verbose listed, going⟩

/-- A value that is taken is one of its option's, and no other is awaited then. -/
theorem fits_of_assign (going : arguments.optionsEnded = false)
    (assigned : arguments.assign option value = .ok result) :
    (∃ piece, option.piece? value = some piece) ∧ result.Ready := by
  cases option with
  | description =>
    rw [assign] at assigned
    split at assigned
    · cases assigned
    · cases assigned
      exact ⟨⟨_, rfl⟩, going, rfl⟩
  | color =>
    rw [assign] at assigned
    split at assigned
    next choice _ called =>
      cases assigned
      exact ⟨⟨_, congrArg (Option.map _) called⟩, going, rfl⟩
    next => cases assigned

theorem said_of_assign (going : arguments.optionsEnded = false)
    (assigned : arguments.assign option value = .ok result) :
    ∃ pieces, Says ('-' :: '-' :: (option.longName ++ '=' :: value)) pieces result.awaiting ∧
      result.optionsEnded = false := by
  obtain ⟨⟨piece, fits⟩, behind⟩ := fits_of_assign going assigned
  rw [behind.settled]
  exact ⟨_, .long fits, behind.going⟩

/-- A long option that is understood has one of the names, and a value only where one belongs. -/
theorem said_of_long {body : Text} (ready : arguments.Ready)
    (taken : arguments.long name body = .ok result) :
    ∃ pieces, Says ('-' :: '-' :: body) pieces result.awaiting ∧ result.optionsEnded = false := by
  by_cases signed : '=' ∈ body
  · obtain ⟨front, value, rfl, unsigned⟩ := List.eq_append_cons_of_mem signed
    rw [long_signed unsigned] at taken
    split at taken
    next named =>
      subst named
      exact said_of_assign ready.going taken
    next =>
      split at taken
      next named =>
        subst named
        exact said_of_assign ready.going taken
      next => cases taken
  · rw [long_unsigned signed] at taken
    split at taken
    next named =>
      cases taken
      subst named
      exact ⟨[], .longApart .description, ready.going⟩
    next =>
      split at taken
      next named =>
        cases taken
        subst named
        exact ⟨[], .longApart .color, ready.going⟩
      next =>
        split at taken
        next => cases taken
        next =>
          split at taken
          next known =>
            rw [Bool.and_eq_true, Bool.and_eq_true, decide_eq_true_eq] at known
            cases taken
            rw [known.1.1, ready.settled]
            exact ⟨_, .compact, ready.going⟩
          next => cases taken

/-- An argument that is understood is loose, or it ends the options, or it has options in it. -/
theorem loose_or_said (going : arguments.optionsEnded = false)
    (taken : take name arguments text = .ok result) :
    Loose name text ∨ arguments.awaiting = none ∧ (text = ['-', '-'] ∨
      ∃ pieces, Says text pieces result.awaiting ∧ result.optionsEnded = false) := by
  unfold take at taken
  rw [going, if_neg Bool.false_ne_true] at taken
  split at taken
  next body =>
    right
    cases awaiting : arguments.awaiting with
    | some option =>
      rw [awaiting] at taken
      cases taken
    | none =>
      refine ⟨rfl, ?_⟩
      cases body with
      | nil => exact .inl rfl
      | cons letter letters =>
        rw [awaiting] at taken
        exact .inr (said_of_long ⟨going, awaiting⟩ taken)
  next letter letters noDash =>
    split at taken
    next negative =>
      rw [Bool.and_eq_true] at negative
      exact .inl fun _ => .inr negative
    next =>
      right
      cases awaiting : arguments.awaiting with
      | some option =>
        rw [awaiting] at taken
        cases taken
      | none =>
        rw [awaiting] at taken
        obtain ⟨pieces, listed, going⟩ := letters_of_short ⟨going, awaiting⟩ taken
        exact ⟨rfl, .inr ⟨pieces, .short listed, going⟩⟩
  next noOption noLetters =>
    left
    intro dash
    obtain ⟨rest, rfl⟩ := List.head?_eq_some_iff.mp dash
    cases rest with
    | nil => exact .inl rfl
    | cons letter letters => exact absurd rfl (noLetters letter letters)

/-- What is understood spells something: if no value is awaited, pieces, and otherwise that value
and pieces behind it. -/
theorem exists_spelled {texts : List Text} (going : arguments.optionsEnded = false)
    (taken : texts.foldlM (take name) arguments = .ok result) (settled : result.awaiting = none) :
    (arguments.awaiting = none → ∃ pieces, Spelled name pieces texts) ∧
      ∀ option, arguments.awaiting = some option → ∃ value piece later pieces,
        texts = value :: later ∧ Loose name value ∧ option.piece? value = some piece ∧
          Spelled name pieces later := by
  -- Both cases go through one induction: an option may leave the next argument to be its value,
  -- and a value leaves none.
  induction texts generalizing arguments with
  | nil =>
    cases taken
    refine ⟨fun _ => ⟨[], .nil⟩, ?_⟩
    intro option awaited
    cases settled.symm.trans awaited
  | cons text texts ih =>
    obtain ⟨next, first, later⟩ := Fallible.bind_eq_ok_iff.mp taken
    rcases loose_or_said going first with loose | ⟨noneAwaited, closed | said⟩
    · rw [take_loose going loose, plain] at first
      constructor
      · intro noneAwaited
        rw [noneAwaited] at first
        have admitted : arguments.add name (.positional text) = .ok next := first
        have behind := Ready.add ⟨going, noneAwaited⟩ admitted
        obtain ⟨pieces, spelled⟩ := (ih behind.going later).1 behind.settled
        exact ⟨_, .positional loose spelled⟩
      · intro option awaited
        rw [awaited] at first
        obtain ⟨⟨piece, fits⟩, behind⟩ := fits_of_assign going first
        obtain ⟨pieces, spelled⟩ := (ih behind.going later).1 behind.settled
        exact ⟨text, piece, texts, pieces, rfl, loose, fits, spelled⟩
    · refine ⟨fun _ => ?_, fun option awaited => ?_⟩
      · rw [closed]
        exact ⟨_, .ended texts⟩
      · cases noneAwaited.symm.trans awaited
    · refine ⟨fun _ => ?_, fun option awaited => ?_⟩
      · obtain ⟨pieces, said, going⟩ := said
        obtain ⟨nothing, something⟩ := ih going later
        cases awaited : next.awaiting with
        | none =>
          rw [awaited] at said
          obtain ⟨more, spelled⟩ := nothing awaited
          exact ⟨_, .options said spelled⟩
        | some option =>
          rw [awaited] at said
          obtain ⟨value, piece, texts, more, rfl, loose, fits, spelled⟩ :=
            something option awaited
          exact ⟨_, .withValue said loose fits spelled⟩
      · cases noneAwaited.symm.trans awaited

theorem exists_spelled_of_parse {texts : List Text} {invocation : Invocation}
    (parsed : parse name texts = .ok invocation) : ∃ pieces, Spelled name pieces texts := by
  rw [parse] at parsed
  obtain ⟨result, taken, finished⟩ := Fallible.bind_eq_ok_iff.mp parsed
  have settled : result.awaiting = none := by
    split at finished
    next => cases finished
    next none => exact Option.not_isSome_iff_eq_none.mp none
  exact (exists_spelled rfl taken settled).1 rfl

end Acceptor.Command.Arguments
