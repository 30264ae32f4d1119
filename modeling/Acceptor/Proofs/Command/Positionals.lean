import Acceptor.Proofs.Command.Accepted
/-!
Which of the arguments beside the options is what. The parser has two places for them, the first for
a path and the second for words, and when the description was on the command line they are put right
afterwards. In the end they are the path and the words in the order in which they were written, and
what the options say does not depend on where these stand.
-/
namespace Acceptor.Command

namespace Piece

def description? : Piece → Option Text
  | description text => some text
  | _ => none

def setting? : Piece → Option Setting
  | setting said => some said
  | _ => none

def positional? : Piece → Option Text
  | positional text => some text
  | _ => none

def descriptions (pieces : List Piece) : List Text := pieces.filterMap description?

def settings (pieces : List Piece) : List Setting := pieces.filterMap setting?

def positionals (pieces : List Piece) : List Text := pieces.filterMap positional?

def options (pieces : List Piece) : List Piece := pieces.filter (·.positional?.isNone)

def apply (arguments : Arguments) : Piece → Arguments
  | description text => { arguments with inline := some text }
  | setting said => said.apply arguments
  | positional text => { arguments with positionals := text :: arguments.positionals }

/-- Pieces for which there is room behind the arguments that are there. Of descriptions there is at
most one, the settings are taken together, and no more words stand beside them than the command
takes. -/
structure Fit (name : Name) (arguments : Arguments) (pieces : List Piece) : Prop where
  described : arguments.inline.toList.length + (descriptions pieces).length ≤ 1
  admitted : Setting.Admitted name arguments (settings pieces)
  takes : Arguments.Takes name arguments (positionals pieces)

variable {name : Name} {arguments result : Arguments} {piece : Piece}
  {pieces others : List Piece}

theorem filterMap_options {α : Type} {said : Piece → Option α}
    (silent : ∀ text, said (positional text) = none) (pieces : List Piece) :
    (options pieces).filterMap said = pieces.filterMap said := by
  rw [options, List.filterMap_filter]
  congr 1
  funext piece
  cases piece with
  | description text => rfl
  | setting said => rfl
  | positional text => exact (silent text).symm

theorem admitted_withGiven_iff {settings : List Setting} (inline : Option Text)
    (positionals : List Text) :
    Setting.Admitted name (arguments.withGiven inline positionals) settings ↔
      Setting.Admitted name arguments settings := by
  constructor
  · intro admitted
    have back : (arguments.withGiven inline positionals).withGiven arguments.inline
        arguments.positionals = arguments := rfl
    rw [← back]
    exact Arguments.admitted_withGiven admitted
  · exact Arguments.admitted_withGiven

theorem fit_cons :
    Fit name arguments (piece :: pieces) ↔
      Fit name arguments [piece] ∧ Fit name (apply arguments piece) pieces := by
  -- A piece counts towards one of three bounds, and the other two are handed on as they are.
  cases piece with
  | description text =>
    constructor
    · rintro ⟨described, admitted, takes⟩
      have one : arguments.inline.toList.length + ((descriptions pieces).length + 1) ≤ 1 := described
      refine ⟨⟨?_, trivial, Arguments.takes_nil takes⟩, ?_,
        (admitted_withGiven_iff (some text) arguments.positionals).mpr admitted,
        takes.fewEnough, takes.firstFilled⟩
      · change arguments.inline.toList.length + 1 ≤ 1
        omega
      · change 1 + (descriptions pieces).length ≤ 1
        omega
    · rintro ⟨⟨first, _, _⟩, described, admitted, takes⟩
      have free : arguments.inline.toList.length + 1 ≤ 1 := first
      have later : 1 + (descriptions pieces).length ≤ 1 := described
      refine ⟨?_, (admitted_withGiven_iff (some text) arguments.positionals).mp admitted,
        takes.fewEnough, takes.firstFilled⟩
      change arguments.inline.toList.length + ((descriptions pieces).length + 1) ≤ 1
      omega
  | setting said =>
    obtain ⟨inline, positionals, _⟩ := Arguments.kept_foldl_apply [said] arguments
    have inline : (apply arguments (setting said)).inline = arguments.inline := inline
    have positionals :
        (apply arguments (setting said)).positionals = arguments.positionals := positionals
    constructor
    · rintro ⟨described, admitted, takes⟩
      refine ⟨⟨Nat.le_trans (Nat.add_le_add_left (Nat.zero_le _) _) described,
        ⟨admitted.1, trivial⟩, Arguments.takes_nil takes⟩, ?_, admitted.2, ?_⟩
      · rw [inline]
        exact described
      · rw [Arguments.takes_iff, positionals]
        exact Arguments.takes_iff.mp takes
    · rintro ⟨⟨_, first, _⟩, described, admitted, takes⟩
      rw [inline] at described
      rw [Arguments.takes_iff, positionals] at takes
      exact ⟨described, ⟨first.1, admitted⟩, Arguments.takes_iff.mpr takes⟩
  | positional text =>
    constructor
    · rintro ⟨described, admitted, takes⟩
      obtain ⟨first, later⟩ := Arguments.takes_cons.mp takes
      exact ⟨⟨Nat.le_trans (Nat.add_le_add_left (Nat.zero_le _) _) described, trivial, first⟩,
        described, (admitted_withGiven_iff arguments.inline _).mpr admitted, later⟩
    · rintro ⟨⟨_, _, first⟩, described, admitted, later⟩
      exact ⟨described, (admitted_withGiven_iff arguments.inline _).mp admitted,
        Arguments.takes_cons.mpr ⟨first, later⟩⟩

theorem add_setting_eq_ok_iff {said : Setting} :
    arguments.add name (setting said) = .ok result ↔
      Setting.Admitted name arguments [said] ∧ result = said.apply arguments := by
  cases said with
  | color choice =>
    rw [Arguments.add, Fallible.refusal_eq_ok_iff, Except.ok.injEq, @eq_comm _ _ result]
    simp [Setting.Admitted, Setting.apply]
  | compact =>
    rw [Arguments.add, Fallible.guard_eq_ok_iff]
    simp [Setting.Admitted, Setting.apply]
  | verbose =>
    rw [Arguments.add, Fallible.guard_eq_ok_iff]
    simp [Setting.Admitted, Setting.apply]

theorem add_eq_ok_iff (start : Fit name arguments []) :
    arguments.add name piece = .ok result ↔
      Fit name arguments [piece] ∧ result = apply arguments piece := by
  cases piece with
  | description text =>
    rw [Arguments.add, Fallible.refusal_eq_ok_iff]
    have room : ¬ arguments.inline.isSome ↔ arguments.inline.toList.length + 1 ≤ 1 := by
      cases arguments.inline <;> simp
    rw [room]
    constructor
    · rintro ⟨first, same⟩
      exact ⟨⟨first, trivial, start.takes⟩, (Except.ok.inj same).symm⟩
    · rintro ⟨fit, rfl⟩
      exact ⟨fit.described, rfl⟩
  | setting said =>
    rw [add_setting_eq_ok_iff]
    constructor
    · rintro ⟨admitted, same⟩
      exact ⟨⟨start.described, admitted, start.takes⟩, same⟩
    · rintro ⟨fit, same⟩
      exact ⟨fit.admitted, same⟩
  | positional text =>
    rw [Arguments.add, Arguments.positional_eq_ok_iff]
    constructor
    · rintro ⟨takes, same⟩
      exact ⟨⟨start.described, trivial, takes⟩, same⟩
    · rintro ⟨fit, same⟩
      exact ⟨fit.takes, same⟩

/-- Pieces are taken in if there is room for them, and then each adds what it says. -/
theorem foldlM_add_eq_ok_iff (start : Fit name arguments []) :
    pieces.foldlM (Arguments.add name) arguments = .ok result ↔
      Fit name arguments pieces ∧ result = pieces.foldl apply arguments := by
  induction pieces generalizing arguments with
  | nil =>
    constructor
    · intro taken
      cases taken
      exact ⟨start, rfl⟩
    · rintro ⟨_, rfl⟩
      rfl
  | cons piece pieces ih =>
    rw [List.foldlM_cons, Fallible.bind_eq_ok_iff, fit_cons]
    constructor
    · rintro ⟨next, first, later⟩
      obtain ⟨here, rfl⟩ := (add_eq_ok_iff start).mp first
      obtain ⟨fit, same⟩ := (ih (fit_cons.mp here).2).mp later
      exact ⟨⟨here, fit⟩, same⟩
    · rintro ⟨⟨here, fit⟩, same⟩
      exact ⟨_, (add_eq_ok_iff start).mpr ⟨here, rfl⟩,
        (ih (fit_cons.mp here).2).mpr ⟨fit, same⟩⟩

theorem foldl_apply (pieces : List Piece) (arguments : Arguments) :
    pieces.foldl apply arguments =
      ((settings pieces).foldl Setting.apply arguments).withGiven
        ((descriptions pieces).getLast?.or arguments.inline)
        ((positionals pieces).reverse ++ arguments.positionals) := by
  induction pieces generalizing arguments with
  | nil => rfl
  | cons piece pieces ih =>
    rw [List.foldl_cons, ih]
    cases piece with
    | description text =>
      have last : (descriptions (description text :: pieces)).getLast?.or arguments.inline =
          (descriptions pieces).getLast?.or (some text) := by
        change (text :: descriptions pieces).getLast?.or arguments.inline = _
        rw [List.getLast?_cons]
        cases (descriptions pieces).getLast? <;> rfl
      rw [last]
      change ((settings pieces).foldl Setting.apply (arguments.withGiven _ _)).withGiven _ _ = _
      rw [Arguments.foldl_apply_withGiven]
      rfl
    | setting said =>
      cases said with
      | color choice => rfl
      | compact => rfl
      | verbose => rfl
    | positional text =>
      change ((settings pieces).foldl Setting.apply (arguments.withGiven _ _)).withGiven _ _ = _
      have order : (positionals (positional text :: pieces)).reverse =
          (positionals pieces).reverse ++ [text] := List.reverse_cons
      rw [Arguments.foldl_apply_withGiven, order, List.append_assoc]
      rfl

end Piece

/-- Settings of two kinds have nothing to do with each other, and of those that may stand twice it
makes no difference which comes first. -/
theorem Setting.admitted_swap {name : Name} {one other : Setting} {rest : List Setting}
    {arguments : Arguments} (admitted : Admitted name arguments (one :: other :: rest)) :
    Admitted name arguments (other :: one :: rest) ∧
      one.apply (other.apply arguments) = other.apply (one.apply arguments) := by
  obtain ⟨first, second, later⟩ := admitted
  cases one with
  | color choice =>
    cases other with
    | color choice => cases second
    | compact => exact ⟨⟨second, first, later⟩, rfl⟩
    | verbose => exact ⟨⟨second, first, later⟩, rfl⟩
  | compact =>
    cases other with
    | color choice => exact ⟨⟨second, first, later⟩, rfl⟩
    | compact => cases second.2
    | verbose => exact ⟨⟨second, first, later⟩, rfl⟩
  | verbose =>
    cases other with
    | color choice => exact ⟨⟨second, first, later⟩, rfl⟩
    | compact => exact ⟨⟨second, first, later⟩, rfl⟩
    | verbose => exact ⟨⟨second, first, later⟩, rfl⟩

theorem Setting.Admitted.perm {name : Name} {first second : List Setting}
    (moved : first.Perm second) {arguments : Arguments} (admitted : Admitted name arguments first) :
    Admitted name arguments second ∧
      second.foldl Setting.apply arguments = first.foldl Setting.apply arguments := by
  induction moved generalizing arguments with
  | nil => exact ⟨trivial, rfl⟩
  | cons said moved ih =>
    obtain ⟨later, same⟩ := ih admitted.2
    exact ⟨⟨admitted.1, later⟩, same⟩
  | swap one other rest =>
    obtain ⟨swapped, same⟩ := admitted_swap admitted
    exact ⟨swapped, congrArg (rest.foldl Setting.apply) same⟩
  | trans _ _ before after =>
    obtain ⟨halfway, same⟩ := before admitted
    obtain ⟨there, again⟩ := after halfway
    exact ⟨there, again.trans same⟩

namespace Arguments

theorem said_invocation (arguments : Arguments) (name : Name) :
    (arguments.invocation name).source.inline = arguments.inline ∧
      (arguments.invocation name).color = arguments.color.getD .auto := by
  cases name <;> exact ⟨rfl, rfl⟩

end Arguments

namespace Setting

variable {name : Name} {arguments : Arguments} {settings : List Setting}

theorem color_foldl_apply (admitted : Admitted name arguments settings) (choice : ColorChoice) :
    (settings.foldl Setting.apply arguments).color = some choice ↔
      arguments.color = some choice ∨ color choice ∈ settings := by
  induction settings generalizing arguments with
  | nil => simp
  | cons said later ih =>
    rw [List.foldl_cons, ih admitted.2]
    cases said with
    | color other => simp [apply, admitted.1, eq_comm]
    | compact => simp [apply]
    | verbose => simp [apply]

theorem compact_foldl_apply (settings : List Setting) (arguments : Arguments) :
    (settings.foldl Setting.apply arguments).compact =
      (arguments.compact || decide (compact ∈ settings)) := by
  induction settings generalizing arguments with
  | nil => simp
  | cons said later ih =>
    rw [List.foldl_cons, ih]
    cases said with
    | color other => simp [apply]
    | compact => simp [apply]
    | verbose => simp [apply]

theorem verbose_foldl_apply (settings : List Setting) (arguments : Arguments) :
    (settings.foldl Setting.apply arguments).verbose =
      arguments.verbose + settings.count verbose := by
  induction settings generalizing arguments with
  | nil => rfl
  | cons said later ih =>
    rw [List.foldl_cons, ih, List.count_cons]
    cases said with
    | color other => rfl
    | compact => rfl
    | verbose => simp [apply]; omega

end Setting

namespace Piece

variable {name : Name} {pieces others : List Piece} {texts : List Text} {invocation : Invocation}

theorem fit_nothing : Fit name {} [] := by
  refine ⟨Nat.zero_le 1, trivial, Arguments.takes_iff.mpr ⟨?_, fun _ => nofun⟩⟩
  intro bound _
  exact Nat.zero_le bound

theorem parse_named (name : Name) (texts : List Text) :
    Invocation.parse (name.text :: texts) = Arguments.parse name texts := by
  have called : Name.ofText? name.text = some name := by
    cases name <;> decide
  simp only [Invocation.parse, called]

theorem exists_spelled_of_parse
    (parsed : Invocation.parse (name.text :: texts) = .ok invocation) :
    ∃ pieces, Spelled name pieces texts :=
  Arguments.exists_spelled_of_parse (parse_named name texts ▸ parsed)

/-- A command line that spells pieces is understood if there is room for them. -/
theorem parse_eq_ok_iff (spelled : Spelled name pieces texts) :
    Invocation.parse (name.text :: texts) = .ok invocation ↔
      Fit name {} pieces ∧ invocation = (pieces.foldl apply {}).invocation name := by
  rw [parse_named, Arguments.parse_of_spelled spelled]
  constructor
  · intro parsed
    cases taken : pieces.foldlM (Arguments.add name) {} with
    | error stop =>
      rw [taken] at parsed
      cases parsed
    | ok result =>
      rw [taken] at parsed
      obtain ⟨fit, rfl⟩ := (foldlM_add_eq_ok_iff fit_nothing).mp taken
      exact ⟨fit, (Except.ok.inj parsed).symm⟩
  · rintro ⟨fit, rfl⟩
    rw [(foldlM_add_eq_ok_iff fit_nothing).mpr ⟨fit, rfl⟩]
    rfl

/-- Pieces amount to the same if their options change places, among each other and with words. -/
theorem Fit.moved (fit : Fit name {} pieces) (words : positionals others = positionals pieces)
    (moved : (options others).Perm (options pieces)) :
    Fit name {} others ∧ others.foldl apply {} = pieces.foldl apply {} := by
  have said : (settings pieces).Perm (settings others) := by
    rw [settings, settings, ← filterMap_options (fun _ => rfl) pieces,
      ← filterMap_options (fun _ => rfl) others]
    exact (moved.filterMap setting?).symm
  have described : descriptions others = descriptions pieces := by
    have perm : (descriptions others).Perm (descriptions pieces) := by
      rw [descriptions, descriptions, ← filterMap_options (fun _ => rfl) pieces,
        ← filterMap_options (fun _ => rfl) others]
      exact moved.filterMap description?
    have one := fit.described
    cases known : descriptions pieces with
    | nil => exact List.perm_nil.mp (known ▸ perm)
    | cons text more =>
      rw [known] at one perm
      have none : more = [] := by
        apply List.eq_nil_of_length_eq_zero
        rw [List.length_cons] at one
        omega
      rw [none] at perm ⊢
      exact List.perm_singleton.mp perm
  obtain ⟨admitted, same⟩ := fit.admitted.perm said
  refine ⟨⟨described ▸ fit.described, admitted, words ▸ fit.takes⟩, ?_⟩
  rw [foldl_apply, foldl_apply, same, described, words]

theorem inline_foldl_apply (pieces : List Piece) :
    (pieces.foldl apply {}).inline = (descriptions pieces).getLast? := by
  rw [foldl_apply]
  exact Option.or_none

theorem Fit.inline (fit : Fit name {} pieces) (text : Text) :
    (pieces.foldl apply {}).inline = some text ↔ text ∈ descriptions pieces := by
  have described := fit.described
  rw [inline_foldl_apply]
  generalize descriptions pieces = texts at described
  match texts with
  | [] => simp
  | [only] => simp [eq_comm]
  | _ :: _ :: more =>
    change 0 + (more.length + 1 + 1) ≤ 1 at described
    omega

theorem Fit.color (fit : Fit name {} pieces) (choice : ColorChoice) :
    (pieces.foldl apply {}).color = some choice ↔ .color choice ∈ settings pieces := by
  have given : (pieces.foldl apply {}).color =
      ((settings pieces).foldl Setting.apply {}).color := by
    rw [foldl_apply]
    rfl
  rw [given, Setting.color_foldl_apply fit.admitted]
  exact or_iff_right nofun

theorem compact_foldl_apply (pieces : List Piece) :
    (pieces.foldl apply {}).compact = decide (.compact ∈ settings pieces) := by
  rw [foldl_apply]
  exact (Setting.compact_foldl_apply (settings pieces) {}).trans (Bool.false_or _)

theorem verbosity_foldl_apply (pieces : List Piece) :
    (pieces.foldl apply {}).verbosity =
      Arguments.verbosity { verbose := (settings pieces).count .verbose } := by
  have counted : (pieces.foldl apply {}).verbose = (settings pieces).count .verbose := by
    rw [foldl_apply]
    exact (Setting.verbose_foldl_apply (settings pieces) {}).trans (Nat.zero_add _)
  rw [Arguments.verbosity, Arguments.verbosity, counted]

theorem slots_foldl_apply (pieces : List Piece) :
    (pieces.foldl apply {}).slots = ⟨(positionals pieces).head?, (positionals pieces).tail⟩ := by
  have order : (pieces.foldl apply {}).positionals.reverse = positionals pieces := by
    rw [foldl_apply]
    change ((positionals pieces).reverse ++ []).reverse = _
    rw [List.append_nil, List.reverse_reverse]
  rw [Arguments.slots, order, Slots.foldl_put]

/-- What the options among pieces say, in whatever order they stand and between which words. -/
structure Tells (pieces : List Piece) (invocation : Invocation) : Prop where
  inline (text : Text) : invocation.source.inline = some text ↔ text ∈ descriptions pieces
  color (choice : ColorChoice) : invocation.color = choice ↔
    .color choice ∈ settings pieces ∨
      choice = .auto ∧ ∀ other, .color other ∉ settings pieces

/-- The arguments of `exec` that are no options: all of them are words if the description is on the
command line, and otherwise the first is the path. -/
structure SharedByExec (pieces : List Piece) (invocation : Invocation) (words : List Text) :
    Prop where
  action : invocation.action = .exec words (decide (.compact ∈ settings pieces))
  whole : invocation.source.path.toList ++ words = positionals pieces
  described : descriptions pieces ≠ [] →
    invocation.source.path = none ∧ words = positionals pieces
  filed : descriptions pieces = [] →
    invocation.source.path = (positionals pieces).head? ∧ words = (positionals pieces).tail

/-- The arguments of `trace` that are no options: a path and a word, or the word alone if the
description is on the command line. -/
structure SharedByTrace (pieces : List Piece) (invocation : Invocation) (word : Text) : Prop where
  action : invocation.action =
    .trace word (Arguments.verbosity { verbose := (settings pieces).count .verbose })
  few : (positionals pieces).length ≤ 2
  alone : descriptions pieces ≠ [] → (positionals pieces).length ≤ 1 →
    invocation.source.path = none ∧ word = (positionals pieces).head?.getD []
  otherwise : descriptions pieces = [] ∨ 1 < (positionals pieces).length →
    invocation.source.path = (positionals pieces)[0]? ∧ word = (positionals pieces)[1]?.getD []

theorem Fit.tells (fit : Fit name {} pieces) :
    Tells pieces ((pieces.foldl apply {}).invocation name) := by
  obtain ⟨inline, color⟩ := Arguments.said_invocation (pieces.foldl apply {}) name
  refine ⟨?_, ?_⟩
  · intro text
    rw [inline, fit.inline]
  · intro choice
    have known := fit.color
    rw [color]
    cases given : (pieces.foldl apply {}).color with
    | none =>
      have absent : ∀ other, Setting.color other ∉ settings pieces := by
        intro other member
        cases given.symm.trans ((known other).mpr member)
      simp [absent, eq_comm]
    | some chosen =>
      have present := (known chosen).mp given
      constructor
      · rintro rfl
        exact .inl present
      · rintro (member | ⟨_, absent⟩)
        · exact Option.some.inj (given.symm.trans ((known choice).mpr member))
        · exact absurd present (absent chosen)

theorem shared_by_exec (pieces : List Piece) :
    ∃ words, SharedByExec pieces ((pieces.foldl apply {}).invocation .exec) words := by
  simp only [Arguments.invocation, slots_foldl_apply, compact_foldl_apply, inline_foldl_apply]
  by_cases filed : descriptions pieces = []
  · rw [filed]
    refine ⟨_, rfl, ?_, fun described => absurd filed described, fun _ => ⟨rfl, rfl⟩⟩
    cases positionals pieces <;> rfl
  · have described : (descriptions pieces).getLast?.isSome := List.getLast?_isSome.mpr filed
    rw [if_pos described, Slots.shift_filled]
    exact ⟨_, rfl, rfl, fun _ => ⟨rfl, rfl⟩, fun none => absurd none filed⟩

theorem Fit.shared_by_trace (fit : Fit .trace {} pieces) :
    ∃ word, SharedByTrace pieces ((pieces.foldl apply {}).invocation .trace) word := by
  have few : (positionals pieces).length ≤ 2 :=
    Nat.le_trans (Nat.le_add_left _ _) ((Arguments.takes_iff.mp fit.takes).1 2 rfl)
  have path : (positionals pieces).head? = (positionals pieces)[0]? := List.head?_eq_getElem?
  have word : (positionals pieces).tail.head? = (positionals pieces)[1]? := List.head?_tail
  simp only [Arguments.invocation, slots_foldl_apply, verbosity_foldl_apply, inline_foldl_apply]
  by_cases filed : descriptions pieces = []
  · rw [filed]
    exact ⟨_, rfl, few, fun described => absurd filed described,
      fun _ => ⟨path, congrArg (Option.getD · []) word⟩⟩
  · have described : (descriptions pieces).getLast?.isSome := List.getLast?_isSome.mpr filed
    rw [if_pos described]
    by_cases single : (positionals pieces).length ≤ 1
    · rw [Slots.shiftAlone_of_few single]
      exact ⟨_, rfl, few, fun _ _ => ⟨rfl, rfl⟩,
        fun other => other.elim (absurd · filed) (absurd single ∘ Nat.not_le.mpr)⟩
    · rw [Slots.shiftAlone_of_many (Nat.not_le.mp single)]
      exact ⟨_, rfl, few, fun _ one => absurd one single,
        fun _ => ⟨path, congrArg (Option.getD · []) word⟩⟩

/-- What a command takes its arguments for. Whatever it understands spells something; and in
whatever way the options are spelled and mixed with other arguments, with or without two dashes,
they say what they say, and the other arguments are taken in the order in which they stand. With a
description on the command line, `exec` takes all of them for words and `trace` takes a single one
for its word; otherwise the first is the path, and words follow. If the options change places,
among each other or with other arguments, the command line still asks for the same. -/
theorem positionals_are_shared_out {name : Name} {texts : List Text} {invocation : Invocation}
    (parsed : Invocation.parse (name.text :: texts) = .ok invocation) :
    (∃ pieces, Spelled name pieces texts) ∧
      ∀ pieces, Spelled name pieces texts →
        Tells pieces invocation ∧
        (name = .exec → ∃ words, SharedByExec pieces invocation words) ∧
        (name = .trace → ∃ word, SharedByTrace pieces invocation word) ∧
        ∀ others moved, Spelled name others moved → positionals others = positionals pieces →
          (options others).Perm (options pieces) →
            Invocation.parse (name.text :: moved) = .ok invocation := by
  refine ⟨exists_spelled_of_parse parsed, ?_⟩
  intro pieces spelled
  obtain ⟨fit, rfl⟩ := (parse_eq_ok_iff spelled).mp parsed
  refine ⟨fit.tells, ?_, ?_, ?_⟩
  · rintro rfl
    exact shared_by_exec pieces
  · rintro rfl
    exact fit.shared_by_trace
  · intro others moved spelled words options
    obtain ⟨fits, same⟩ := fit.moved words options
    exact (parse_eq_ok_iff spelled).mpr ⟨fits, by rw [same]⟩

/-- A negative number in front of the options, one as a description, and an option behind the two
dashes that is a word; and a bundle of letters in front of the only word. -/
theorem positionals_are_shared_out_among_numbers :
    let texts : List Text := ["-7".toList, "--color".toList, "never".toList, "-d".toList,
      "-1".toList, "--".toList, "-d".toList]
    let moved : List Text := ["-d=-1".toList, "--color=never".toList, "-7".toList, "--".toList,
      "-d".toList]
    let traced : List Text := ["-vd".toList, "x".toList, "w".toList, "-v".toList]
    (∃ invocation words, Invocation.parse ("exec".toList :: texts) = .ok invocation ∧
        Invocation.parse ("exec".toList :: moved) = .ok invocation ∧
        invocation.action = .exec words false ∧ words = ["-7".toList, "-d".toList] ∧
        invocation.source.path = none ∧ invocation.color = .never) ∧
      ∃ invocation word, Invocation.parse ("trace".toList :: traced) = .ok invocation ∧
        invocation.action = .trace word .veryVerbose ∧ word = "w".toList ∧
        invocation.source.path = none := by
  intro texts moved traced
  constructor
  · let pieces : List Piece := [positional "-7".toList, setting (.color .never),
      description "-1".toList, positional "-d".toList]
    let others : List Piece := [description "-1".toList, setting (.color .never),
      positional "-7".toList, positional "-d".toList]
    have number : ∀ text, isNumeral text.tail = true → Loose .exec text :=
      fun text numeral _ => .inr ⟨rfl, numeral⟩
    have word : Loose .exec "never".toList := fun dash => nomatch dash
    have spelled : Spelled .exec pieces texts :=
      .positional (number _ rfl) (.withValue (.longApart .color) word rfl
        (.withValue (.short .apart) (number _ rfl) rfl (.ended ["-d".toList])))
    have again : Spelled .exec others moved :=
      .options (.short (.signed "-1".toList)) (.options (@Says.long .color "never".toList _ rfl)
        (.positional (number _ rfl) (.ended ["-d".toList])))
    have parsed : Invocation.parse ("exec".toList :: texts) =
        .ok ⟨.exec ["-7".toList, "-d".toList] false, ⟨none, some "-1".toList⟩, .never⟩ := rfl
    obtain ⟨_, holds⟩ := @positionals_are_shared_out .exec _ _ parsed
    obtain ⟨tells, exec, _, elsewhere⟩ := holds pieces spelled
    obtain ⟨words, shared⟩ := exec rfl
    have swapped : (options others).Perm (options pieces) := List.Perm.swap _ _ []
    obtain ⟨noPath, all⟩ := shared.described nofun
    exact ⟨_, words, parsed, elsewhere others moved again rfl swapped, shared.action, all, noPath,
      (tells.color .never).mpr (.inl (List.mem_singleton.mpr rfl))⟩
  · let pieces : List Piece := [setting .verbose, description "x".toList, positional "w".toList,
      setting .verbose]
    have plain : ∀ text : Text, text.head? ≠ some '-' → Loose .trace text :=
      fun text other dash => absurd dash other
    have spelled : Spelled .trace pieces traced :=
      .withValue (.short (.verbose .apart)) (plain _ (by decide)) rfl
        (.positional (plain _ (by decide)) (.options (.short (.verbose .done)) .nil))
    have parsed : Invocation.parse ("trace".toList :: traced) =
        .ok ⟨.trace "w".toList .veryVerbose, ⟨none, some "x".toList⟩, .auto⟩ := rfl
    obtain ⟨_, holds⟩ := @positionals_are_shared_out .trace _ _ parsed
    obtain ⟨_, _, trace, _⟩ := holds pieces spelled
    obtain ⟨word, shared⟩ := trace rfl
    obtain ⟨noPath, only⟩ := shared.alone nofun (Nat.le_refl 1)
    exact ⟨_, word, parsed, shared.action, only, noPath⟩

end Piece

end Acceptor.Command
