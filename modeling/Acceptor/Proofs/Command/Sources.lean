import Acceptor.Command.Program
import Acceptor.Proofs.Fallible
/-!
Where a description comes from makes no difference. It may be the content of a file, be given on the
command line or come from standard input: what a command answers depends on its text alone, even
though the words of a command are counted differently behind an inline description.
-/
namespace Acceptor.Command

inductive Setting where
  | color (choice : ColorChoice)
  | compact
  | verbose
deriving DecidableEq

namespace Setting

def choiceText : ColorChoice → Text
  | .auto => "auto".toList
  | .always => "always".toList
  | .never => "never".toList

def argument : Setting → Text
  | color choice => '-' :: '-' :: ("color=".toList ++ choiceText choice)
  | compact => '-' :: '-' :: "compact".toList
  | verbose => ['-', 'v']

def isColor : Setting → Bool
  | color _ => true
  | _ => false

def apply (arguments : Arguments) : Setting → Arguments
  | color choice => { arguments with color := some choice }
  | compact => { arguments with compact := true }
  | verbose => { arguments with verbose := arguments.verbose + 1 }

structure Fit (name : Name) (settings : List Setting) : Prop where
  oneColor : settings.countP isColor ≤ 1
  oneCompact : settings.count compact ≤ 1
  compactExec : compact ∈ settings → name = .exec
  verboseTrace : verbose ∈ settings → name = .trace

/-- Whether a command takes settings one after the other, behind the arguments that it has. -/
def Admitted (name : Name) : Arguments → List Setting → Prop
  | _, [] => True
  | arguments, setting :: later =>
    (match setting with
      | color _ => arguments.color = none
      | compact => name = .exec ∧ arguments.compact = false
      | verbose => name = .trace) ∧
    Admitted name (setting.apply arguments) later

theorem Fit.tail {name : Name} {setting : Setting} {later : List Setting}
    (fit : Fit name (setting :: later)) : Fit name later where
  oneColor := Nat.le_trans (by rw [List.countP_cons]; omega) fit.oneColor
  oneCompact := Nat.le_trans (by rw [List.count_cons]; omega) fit.oneCompact
  compactExec member := fit.compactExec (List.mem_cons_of_mem _ member)
  verboseTrace member := fit.verboseTrace (List.mem_cons_of_mem _ member)

theorem Fit.admitted {name : Name} {settings : List Setting} (fit : Fit name settings)
    {arguments : Arguments} (freshColor : arguments.color = none ∨ settings.countP isColor = 0)
    (freshCompact : arguments.compact = false ∨ settings.count compact = 0) :
    Admitted name arguments settings := by
  induction settings generalizing arguments with
  | nil => trivial
  | cons setting later ih =>
    have one := fit.oneColor
    have single := fit.oneCompact
    have exec := fit.compactExec
    have trace := fit.verboseTrace
    rw [List.countP_cons] at one freshColor
    rw [List.count_cons] at single freshCompact
    cases setting with
    | color choice =>
      simp only [isColor, if_true] at one freshColor
      refine ⟨?_, ih fit.tail (.inr (by omega)) (freshCompact.imp id (by omega))⟩
      rcases freshColor with first | none
      · exact first
      · omega
    | compact =>
      simp only [beq_self_eq_true, if_true] at single freshCompact
      refine ⟨⟨exec (List.mem_cons_self ..), ?_⟩,
        ih fit.tail (freshColor.imp id (by omega)) (.inr (by omega))⟩
      rcases freshCompact with first | none
      · exact first
      · omega
    | verbose =>
      exact ⟨trace (List.mem_cons_self ..),
        ih fit.tail (freshColor.imp id (by omega)) (freshCompact.imp id (by omega))⟩

end Setting

/-- An argument that can be no option: it does not begin with a dash, unless it is that dash alone,
or a negative number and the command takes those. -/
def Loose (name : Name) (text : Text) : Prop :=
  text.head? = some '-' →
    text = ['-'] ∨ (name.takesNegativeNumbers = true ∧ isNumeral text.tail = true)

namespace Arguments

variable {name : Name} {arguments : Arguments}

theorem take_long (going : arguments.optionsEnded = false) (settled : arguments.awaiting = none)
    {body : Text} (some : body ≠ []) :
    take name arguments ('-' :: '-' :: body) = arguments.long name body := by
  have filled : body.isEmpty = false := by simpa using some
  simp only [take, going, settled, filled]
  rfl

theorem take_short (going : arguments.optionsEnded = false) (settled : arguments.awaiting = none)
    {letter : Char} {letters : Text} (noDash : letter ≠ '-')
    (noNumeral : isNumeral (letter :: letters) = false) :
    take name arguments ('-' :: letter :: letters) =
      short name arguments (letter :: letters) := by
  unfold take
  rw [going, if_neg Bool.false_ne_true]
  split
  next body found => exact absurd (List.cons.inj (List.cons.inj found).2).1 noDash
  next other rest _ found =>
    obtain ⟨rfl, rfl⟩ := List.cons.inj (List.cons.inj found).2
    rw [noNumeral, Bool.and_false, if_neg Bool.false_ne_true, settled]
    rfl
  next _ other => exact absurd rfl (other letter letters)

theorem take_end (going : arguments.optionsEnded = false) (settled : arguments.awaiting = none) :
    take name arguments ['-', '-'] = .ok { arguments with optionsEnded := true } := by
  simp only [take, going, settled]
  rfl

theorem take_loose (going : arguments.optionsEnded = false) (loose : Loose name text) :
    take name arguments text = arguments.plain name text := by
  unfold take
  rw [going, if_neg Bool.false_ne_true]
  split
  next body =>
    rcases loose rfl with alone | ⟨_, numeral⟩
    · cases alone
    · cases numeral
  next letter letters _ =>
    rcases loose rfl with alone | ⟨numbers, numeral⟩
    · cases alone
    · have negative : isNumeral (letter :: letters) = true := numeral
      rw [numbers, negative, Bool.and_true, if_pos rfl]
  next => rfl

theorem take_path (going : arguments.optionsEnded = false) (settled : arguments.awaiting = none)
    {path : Text} (noOption : path = ['-'] ∨ path.head? ≠ some '-') :
    take name arguments path = arguments.positional name path := by
  have loose : Loose name path := by
    intro dash
    rcases noOption with alone | other
    · exact .inl alone
    · exact absurd dash other
  rw [take_loose going loose, plain, settled]

theorem take_behind_end (ended : arguments.optionsEnded = true) (text : Text) :
    take name arguments text = arguments.positional name text := by
  unfold take
  rw [if_pos ended]

theorem long_signed {front : Text} (unsigned : '=' ∉ front) (value : Text) :
    arguments.long name (front ++ '=' :: value) =
      if front = "description".toList then arguments.assign .description value
      else if front = "color".toList then arguments.assign .color value
      else .error .misused := by
  have passed : ∀ c ∈ front, decide (c ≠ '=') = true := by
    intro c member
    apply decide_eq_true
    rintro rfl
    exact unsigned member
  rw [long, List.takeWhile_append_of_pos passed, List.takeWhile_cons_of_neg (by decide),
    List.append_nil, List.dropWhile_append_of_pos passed, List.dropWhile_cons_of_neg (by decide)]
  rfl

theorem long_color (first : arguments.color = none) {choice : ColorChoice} {text : Text}
    (called : colorChoice? text = some choice) :
    arguments.long name ("color=".toList ++ text) =
      .ok { arguments with color := some choice, awaiting := none } := by
  have unsigned : '=' ∉ "color".toList := by decide
  have apart : "color".toList ≠ "description".toList := by decide
  have spelled : "color=".toList ++ text = "color".toList ++ '=' :: text := rfl
  rw [spelled, long_signed unsigned, if_neg apart, if_pos rfl, assign, first, called]

theorem long_description (first : arguments.inline = none) (text : Text) :
    arguments.long name ("description=".toList ++ text) =
      .ok { arguments with inline := some text, awaiting := none } := by
  have unsigned : '=' ∉ "description".toList := by decide
  have spelled : "description=".toList ++ text = "description".toList ++ '=' :: text := rfl
  rw [spelled, long_signed unsigned, if_pos rfl, assign, first]
  rfl

theorem long_compact (first : arguments.compact = false) :
    arguments.long .exec "compact".toList = .ok { arguments with compact := true } := by
  simp [long, first]

theorem short_verbose :
    short .trace arguments ['v'] = .ok { arguments with verbose := arguments.verbose + 1 } := by
  simp [short]

/-- A setting is understood, and touches nothing but what it says. -/
theorem take_setting (going : arguments.optionsEnded = false)
    (settled : arguments.awaiting = none) {setting : Setting} {later : List Setting}
    (admitted : Setting.Admitted name arguments (setting :: later)) :
    take name arguments setting.argument = .ok (setting.apply arguments) := by
  cases setting with
  | color choice =>
    have called : colorChoice? (Setting.choiceText choice) = some choice := by
      cases choice <;> decide
    rw [Setting.argument, take_long going settled (by simp), long_color admitted.1 called,
      Setting.apply, settled]
  | compact =>
    obtain ⟨⟨rfl, first⟩, _⟩ := admitted
    rw [Setting.argument, take_long going settled (by simp), long_compact first]
    rfl
  | verbose =>
    obtain ⟨rfl, _⟩ := admitted
    rw [Setting.argument, take_short going settled (by decide) (by decide), short_verbose]
    rfl

theorem going_apply (setting : Setting) :
    (setting.apply arguments).optionsEnded = arguments.optionsEnded := by
  cases setting <;> rfl

theorem settled_apply (setting : Setting) :
    (setting.apply arguments).awaiting = arguments.awaiting := by
  cases setting <;> rfl

theorem foldlM_take_settings (going : arguments.optionsEnded = false)
    (settled : arguments.awaiting = none) {settings : List Setting}
    (admitted : Setting.Admitted name arguments settings) :
    (settings.map Setting.argument).foldlM (take name) arguments =
      .ok (settings.foldl Setting.apply arguments) := by
  induction settings generalizing arguments with
  | nil => rfl
  | cons setting later ih =>
    rw [List.map_cons, List.foldlM_cons, take_setting going settled admitted]
    exact ih ((going_apply setting).trans going) ((settled_apply setting).trans settled) admitted.2

theorem kept_foldl_apply (settings : List Setting) (arguments : Arguments) :
    (settings.foldl Setting.apply arguments).inline = arguments.inline ∧
      (settings.foldl Setting.apply arguments).positionals = arguments.positionals ∧
      (settings.foldl Setting.apply arguments).awaiting = arguments.awaiting ∧
      (settings.foldl Setting.apply arguments).optionsEnded = arguments.optionsEnded := by
  induction settings generalizing arguments with
  | nil => exact ⟨rfl, rfl, rfl, rfl⟩
  | cons setting later ih =>
    have kept := ih (setting.apply arguments)
    cases setting with
    | color choice => exact kept
    | compact => exact kept
    | verbose => exact kept

def withGiven (arguments : Arguments) (inline : Option Text) (positionals : List Text) :
    Arguments :=
  { arguments with inline, positionals }

theorem apply_withGiven (setting : Setting) (inline : Option Text) (positionals : List Text) :
    setting.apply (arguments.withGiven inline positionals) =
      (setting.apply arguments).withGiven inline positionals := by
  cases setting <;> rfl

theorem foldl_apply_withGiven (settings : List Setting) (inline : Option Text)
    (positionals : List Text) :
    settings.foldl Setting.apply (arguments.withGiven inline positionals) =
      (settings.foldl Setting.apply arguments).withGiven inline positionals := by
  induction settings generalizing arguments with
  | nil => rfl
  | cons setting later ih => rw [List.foldl_cons, apply_withGiven, ih, List.foldl_cons]

theorem admitted_withGiven {settings : List Setting} {inline : Option Text}
    {positionals : List Text} (admitted : Setting.Admitted name arguments settings) :
    Setting.Admitted name (arguments.withGiven inline positionals) settings := by
  induction settings generalizing arguments with
  | nil => trivial
  | cons setting later ih =>
    refine ⟨?_, ?_⟩
    · cases setting with
      | color choice => exact admitted.1
      | compact => exact admitted.1
      | verbose => exact admitted.1
    · rw [apply_withGiven]
      exact ih admitted.2

theorem admitted_append {before after : List Setting}
    (admitted : Setting.Admitted name arguments (before ++ after)) :
    Setting.Admitted name arguments before ∧
      Setting.Admitted name (before.foldl Setting.apply arguments) after := by
  induction before generalizing arguments with
  | nil => exact ⟨trivial, admitted⟩
  | cons setting later ih =>
    obtain ⟨first, second⟩ := ih admitted.2
    exact ⟨⟨admitted.1, first⟩, second⟩

/-- Words that may stand beside the options, behind those that are there: a command takes so many,
and the first argument that is no option must not be empty. -/
structure Takes (name : Name) (arguments : Arguments) (words : List Text) : Prop where
  fewEnough : name.limit?.all (arguments.positionals.length + words.length ≤ ·)
  firstFilled : arguments.positionals = [] → words.head? ≠ some []

theorem takes_iff {words : List Text} :
    Takes name arguments words ↔
      (∀ bound, name.limit? = some bound → arguments.positionals.length + words.length ≤ bound) ∧
        (arguments.positionals = [] → words.head? ≠ some []) := by
  constructor
  · rintro ⟨few, filled⟩
    refine ⟨?_, filled⟩
    intro bound limit
    rw [limit] at few
    exact of_decide_eq_true few
  · rintro ⟨few, filled⟩
    refine ⟨?_, filled⟩
    cases limit : name.limit? with
    | none => rfl
    | some bound => exact decide_eq_true (few bound limit)

theorem takes_nil {words : List Text} (takes : Takes name arguments words) :
    Takes name arguments [] := by
  obtain ⟨few, _⟩ := takes_iff.mp takes
  refine takes_iff.mpr ⟨?_, fun _ => nofun⟩
  intro bound limit
  exact Nat.le_trans (Nat.add_le_add_left (Nat.zero_le _) _) (few bound limit)

theorem takes_cons {word : Text} {words : List Text} :
    Takes name arguments (word :: words) ↔
      Takes name arguments [word] ∧
        Takes name { arguments with positionals := word :: arguments.positionals } words := by
  simp only [takes_iff, List.length_cons, List.length_nil, List.head?_cons, reduceCtorEq,
    false_implies, and_true]
  constructor
  · rintro ⟨few, filled⟩
    refine ⟨⟨?_, filled⟩, ?_⟩
    · intro bound limit
      have := few bound limit
      omega
    · intro bound limit
      have := few bound limit
      omega
  · rintro ⟨⟨_, filled⟩, few⟩
    refine ⟨?_, filled⟩
    intro bound limit
    have := few bound limit
    omega

theorem positional_eq_ok_iff {word : Text} {result : Arguments} :
    arguments.positional name word = .ok result ↔
      Takes name arguments [word] ∧
        result = { arguments with positionals := word :: arguments.positionals } := by
  rw [positional, Fallible.refusal_eq_ok_iff, Fallible.refusal_eq_ok_iff, takes_iff,
    Except.ok.injEq, @eq_comm _ _ result, ← and_assoc]
  refine and_congr_left fun _ => and_congr ?_ ?_
  · cases name.limit? with
    | none => simp
    | some bound =>
      simp only [Option.any_some, decide_eq_true_eq, Nat.not_le, Option.some.injEq, forall_eq',
        List.length_singleton, Nat.lt_iff_add_one_le]
  · cases arguments.positionals with
    | nil => simp
    | cons first later => simp

theorem foldlM_take_words (ended : arguments.optionsEnded = true) {words : List Text}
    (takes : Takes name arguments words) :
    words.foldlM (take name) arguments =
      .ok { arguments with positionals := words.reverse ++ arguments.positionals } := by
  induction words generalizing arguments with
  | nil => rfl
  | cons word words ih =>
    obtain ⟨first, later⟩ := takes_cons.mp takes
    rw [List.foldlM_cons, take_behind_end ended, positional_eq_ok_iff.mpr ⟨first, rfl⟩,
      List.reverse_cons, List.append_assoc]
    exact ih (by exact ended) later

end Arguments

def Action.Asks : Action → Prop
  | .exec words _ => words = []
  | .repl => True
  | _ => False

inductive Request where
  | check
  | dump
  | trace (word : Text)
  | exec (words : List Text)
  | repl
deriving DecidableEq

namespace Request

def name : Request → Name
  | check => .check
  | dump => .dump
  | trace _ => .trace
  | exec _ => .exec
  | repl => .repl

def words : Request → List Text
  | trace word => [word]
  | exec words => words
  | _ => []

def Asks : Request → Prop
  | exec words => words = []
  | repl => True
  | _ => False

def action (arguments : Arguments) : Request → Action
  | check => .check
  | dump => .dump
  | trace word => .trace word arguments.verbosity
  | exec words => .exec words arguments.compact
  | repl => .repl

theorem asks_action (request : Request) (arguments : Arguments) :
    (request.action arguments).Asks ↔ request.Asks := by
  cases request <;> exact Iff.rfl

end Request

/-- A command line that leaves open where its description comes from. Words stand behind two dashes,
which may also stand where there are none. -/
structure Line where
  request : Request
  before : List Setting
  after : List Setting
  marked : Bool

namespace Line

def rest (line : Line) : List Text :=
  if line.marked || !line.request.words.isEmpty then ['-', '-'] :: line.request.words else []

def arguments (line : Line) (source : Text) : List Text :=
  line.request.name.text ::
    (line.before.map Setting.argument ++ source :: (line.after.map Setting.argument ++ line.rest))

def settings (line : Line) : List Setting := line.before ++ line.after

def settled (line : Line) : Arguments := line.settings.foldl Setting.apply {}

def Fit (line : Line) : Prop := Setting.Fit line.request.name line.settings

def final (line : Line) (inline : Option Text) (positionals : List Text) : Arguments :=
  { line.settled with
    inline, positionals, optionsEnded := line.marked || !line.request.words.isEmpty }

variable {line : Line}

theorem foldlM_take_rest {arguments : Arguments} (going : arguments.optionsEnded = false)
    (settled : arguments.awaiting = none)
    (takes : Arguments.Takes line.request.name arguments line.request.words) :
    line.rest.foldlM (Arguments.take line.request.name) arguments =
      .ok { arguments with
        positionals := line.request.words.reverse ++ arguments.positionals
        optionsEnded := line.marked || !line.request.words.isEmpty } := by
  rw [rest]
  split
  next marked =>
    rw [List.foldlM_cons, Arguments.take_end going settled, marked]
    exact Arguments.foldlM_take_words rfl ⟨takes.fewEnough, takes.firstFilled⟩
  next unmarked =>
    have none : line.request.words = [] := by
      cases words : line.request.words with
      | nil => rfl
      | cons word later => simp [words] at unmarked
    have ended : (line.marked || !line.request.words.isEmpty) = false := by simpa using unmarked
    rw [ended, none, List.foldlM_nil, ← going]
    rfl

/-- A line is understood by its settings, by what its source says, and by its words. -/
theorem parse_arguments (fit : line.Fit) {source : Text} {inline : Option Text}
    {positionals : List Text}
    (taken : ∀ arguments : Arguments, arguments.optionsEnded = false → arguments.awaiting = none →
      arguments.inline = none → arguments.positionals = [] →
      Arguments.take line.request.name arguments source =
        .ok (arguments.withGiven inline positionals))
    (takes : ∀ arguments : Arguments, Arguments.Takes line.request.name
      (arguments.withGiven inline positionals) line.request.words) :
    Invocation.parse (line.arguments source) =
      .ok ((line.final inline (line.request.words.reverse ++ positionals)).invocation
        line.request.name) := by
  have called : Name.ofText? line.request.name.text = some line.request.name := by
    cases line.request.name <;> decide
  have admitted : Setting.Admitted line.request.name {} line.settings :=
    Setting.Fit.admitted fit (.inl rfl) (.inl rfl)
  obtain ⟨first, second⟩ := Arguments.admitted_append admitted
  -- The settings in front of the source, the source, the settings behind it, and then the words.
  have understood :
      (line.before.map Setting.argument ++
        source :: (line.after.map Setting.argument ++ line.rest)).foldlM
          (Arguments.take line.request.name) {} =
        .ok (line.final inline (line.request.words.reverse ++ positionals)) := by
    obtain ⟨noInline, noWords, notAwaiting, going⟩ := Arguments.kept_foldl_apply line.before {}
    have later : Setting.Admitted line.request.name
        ((line.before.foldl Setting.apply {}).withGiven inline positionals) line.after :=
      Arguments.admitted_withGiven second
    have resumed := Arguments.foldlM_take_settings (by exact going) (by exact notAwaiting) later
    rw [Arguments.foldl_apply_withGiven, ← List.foldl_append] at resumed
    rw [Fallible.foldlM_append_of_ok (Arguments.foldlM_take_settings rfl rfl first),
      Fallible.foldlM_cons_of_ok (taken _ going notAwaiting noInline noWords),
      Fallible.foldlM_append_of_ok resumed]
    obtain ⟨_, _, notAwaiting, going⟩ := Arguments.kept_foldl_apply line.settings {}
    exact foldlM_take_rest going notAwaiting (takes _)
  simp only [arguments, Invocation.parse, called, Arguments.parse, understood]
  obtain ⟨_, _, notAwaiting, _⟩ := Arguments.kept_foldl_apply line.settings {}
  have settled : (line.final inline (line.request.words.reverse ++ positionals)).awaiting = none :=
    notAwaiting
  change (if Option.isSome (Arguments.awaiting _) = true then _ else _) = _
  rw [settled]
  rfl

def invocation (line : Line) (source : Source) : Invocation :=
  ⟨line.request.action line.settled, source, line.settled.color.getD .auto⟩

theorem slots_final (line : Line) (inline : Option Text) (given : List Text) :
    (line.final inline given.reverse).slots = ⟨given.head?, given.tail⟩ := by
  simp only [Arguments.slots, final, List.reverse_reverse, Slots.foldl_put]

theorem invocation_path (line : Line) (path : Text) :
    (line.final none (line.request.words.reverse ++ [path])).invocation line.request.name =
      line.invocation ⟨some path, none⟩ := by
  obtain ⟨request, before, after, marked⟩ := line
  cases request with
  | check => rfl
  | dump => rfl
  | trace word => rfl
  | repl => rfl
  | exec words =>
    have slots := slots_final ⟨.exec words, before, after, marked⟩ none (path :: words)
    rw [List.reverse_cons] at slots
    simp only [Arguments.invocation, Request.name, Request.words, slots]
    rfl

theorem invocation_inline (line : Line) (text : Text) :
    (line.final (some text) line.request.words.reverse).invocation line.request.name =
      line.invocation ⟨none, some text⟩ := by
  obtain ⟨request, before, after, marked⟩ := line
  cases request with
  | check => rfl
  | dump => rfl
  | trace word => rfl
  | repl => rfl
  | exec words =>
    have slots := slots_final ⟨.exec words, before, after, marked⟩ (some text) words
    simp only [Arguments.invocation, Request.name, Request.words, slots, Slots.shift_filled]
    rfl

/-- A line whose description has a path, which is no option: a word that is there is a word. -/
theorem parse_of_positional (fit : line.Fit) {path : Text} (named : path ≠ [])
    (taken : ∀ arguments : Arguments, arguments.optionsEnded = false → arguments.awaiting = none →
      Arguments.take line.request.name arguments path =
        arguments.positional line.request.name path) :
    Invocation.parse (line.arguments path) = .ok (line.invocation ⟨some path, none⟩) := by
  rw [← invocation_path]
  apply parse_arguments fit
  · intro arguments going settled noInline noWords
    rw [taken arguments going settled]
    have takes : Arguments.Takes line.request.name arguments [path] := by
      refine ⟨?_, ?_⟩
      · rw [noWords]
        cases line.request <;> rfl
      · intro _ empty
        exact named (Option.some.inj empty)
    rw [Arguments.positional_eq_ok_iff.mpr ⟨takes, rfl⟩, Arguments.withGiven, noWords, ← noInline]
  · intro arguments
    refine ⟨?_, ?_⟩
    · cases line.request <;> rfl
    · intro none
      cases none

theorem parse_path (fit : line.Fit) {path : Text} (named : path ≠ [])
    (noOption : path = ['-'] ∨ path.head? ≠ some '-') :
    Invocation.parse (line.arguments path) = .ok (line.invocation ⟨some path, none⟩) :=
  parse_of_positional fit named fun _ going settled => Arguments.take_path going settled noOption

/-- A line with its description on it, where a first word may not be empty. -/
theorem parse_inline (fit : line.Fit) (filled : line.request.words.head? ≠ some [])
    (text : Text) :
    Invocation.parse (line.arguments ('-' :: '-' :: ("description=".toList ++ text))) =
      .ok (line.invocation ⟨none, some text⟩) := by
  rw [← invocation_inline, ← List.append_nil line.request.words.reverse]
  apply parse_arguments fit
  · intro arguments going settled noInline noWords
    rw [Arguments.take_long going settled (by simp), Arguments.long_description noInline,
      Arguments.withGiven, ← noWords, ← settled]
  · intro arguments
    refine ⟨?_, fun _ => filled⟩
    cases line.request <;> rfl

end Line

/-- Worlds that show what is written alike, with one reader of the format. -/
structure World.ShowAlike (first second : World) : Prop where
  output : first.outputShown = second.outputShown
  errors : first.errorsShown = second.errorsShown
  diagnostic : first.diagnostic = second.diagnostic

namespace Invocation

def answer (world : World) (palette : Palette) (octets : List Text.Utf8.Octet) (action : Action) :
    Response :=
  match (Acceptor.encode octets).mapError (·.message (world.diagnostic octets)) with
  | .error message => .failure palette [] message
  | .ok table => perform world palette table action

theorem respond_of_load {invocation : Invocation} {world : World} {octets : List Text.Utf8.Octet}
    (free : invocation.conflict? = none) (loaded : invocation.source.load world = .ok octets) :
    invocation.respond world =
      answer world (invocation.palette world) octets invocation.action := by
  have prepared : invocation.prepare world =
      (Acceptor.encode octets).mapError (·.message (world.diagnostic octets)) := by
    rw [prepare, free]
    simp only [Source.table, loaded]
    rfl
  rw [respond, prepared]
  rfl

theorem perform_congr {first second : World} (shown : first.outputShown = second.outputShown)
    {action : Action} (input : action.Asks → first.stdin = second.stdin) (palette : Palette)
    (table : Table) : perform first palette table action = perform second palette table action := by
  cases action with
  | check => rfl
  | dump => rfl
  | trace word verbosity => rfl
  | repl => simp only [perform, input trivial]
  | exec words compact =>
    simp only [perform, verdictLine, shown]
    cases words with
    | nil => simp only [World.words, input rfl]
    | cons word later => rfl

theorem answer_congr {first second : World} (shown : first.ShowAlike second) {line : Line}
    (input : line.request.Asks → first.stdin = second.stdin) (octets : List Text.Utf8.Octet)
    (source other : Source) :
    answer first ((line.invocation source).palette first) octets
        (line.request.action line.settled) =
      answer second ((line.invocation other).palette second) octets
        (line.request.action line.settled) := by
  have colors :
      (line.invocation source).palette first = (line.invocation other).palette second := by
    simp only [palette, Line.invocation, shown.output, shown.errors]
  rw [colors, answer, answer, shown.diagnostic]
  cases (Acceptor.encode octets).mapError (·.message (second.diagnostic octets)) with
  | error message => rfl
  | ok table =>
    apply perform_congr shown.output
    intro asks
    exact input ((Request.asks_action _ _).mp asks)

end Invocation

theorem Line.conflict?_of_quiet {line : Line} (quiet : ¬ line.request.Asks) :
    (line.invocation ⟨some ['-'], none⟩).conflict? = none := by
  obtain ⟨request, before, after, marked⟩ := line
  cases request with
  | check => rfl
  | dump => rfl
  | trace word => rfl
  | repl => exact absurd trivial quiet
  | exec words =>
    cases words with
    | nil => exact absurd rfl quiet
    | cons word later => rfl

theorem Line.program_eq {line : Line} {argument : Text} {source : Source}
    (parsed : Invocation.parse (line.arguments argument) = .ok (line.invocation source))
    (free : (line.invocation source).conflict? = none) {world : World}
    {octets : List Text.Utf8.Octet} (loaded : source.load world = .ok octets) :
    program (line.arguments argument) world =
      .ok (Invocation.answer world ((line.invocation source).palette world) octets
        (line.request.action line.settled)) := by
  rw [program_of_parsed parsed world]
  exact congrArg _ (Invocation.respond_of_load free loaded)

/-- The three ways of giving a description: as the content of a file, on the command line, and on
standard input. A command that reads its words there, too, cannot have the third, and with the
second its first word may not be empty. Whatever is asked, with whatever settings, the exit status
and both outputs are the same. -/
theorem same_answer_from_every_source (line : Line) (fit : line.Fit) (text path : Text)
    (named : path ≠ []) (noOption : path.head? ≠ some '-') (filed inlined piped : World)
    (content : filed.files path = .ok (Text.Utf8.encode text))
    (input : piped.stdin = Text.Utf8.encode text)
    (shown : inlined.ShowAlike filed ∧ piped.ShowAlike filed)
    (words : line.request.Asks → inlined.stdin = filed.stdin) :
    ∃ response, program (line.arguments path) filed = .ok response ∧
      (line.request.words.head? ≠ some [] →
        program (line.arguments ("--description=".toList ++ text)) inlined = .ok response) ∧
      (¬ line.request.Asks → program (line.arguments ['-']) piped = .ok response) := by
  obtain ⟨inlinedShown, pipedShown⟩ := shown
  have noDash : path ≠ ['-'] := fun dash => noOption (by rw [dash]; rfl)
  have free : (line.invocation ⟨some path, none⟩).conflict? = none := by
    simp [Invocation.conflict?, Line.invocation, Source.namesStandardInput, Source.standardInput,
      noDash]
  have loaded : Source.load ⟨some path, none⟩ filed = .ok (Text.Utf8.encode text) := by
    simp only [Source.load, Source.standardInput, if_neg noDash, content]
    rfl
  refine ⟨_, Line.program_eq (Line.parse_path fit named (.inr noOption)) free loaded, ?_, ?_⟩
  · intro filled
    have spelled : "--description=".toList ++ text =
        '-' :: '-' :: ("description=".toList ++ text) := rfl
    rw [spelled, Line.program_eq (Line.parse_inline fit filled text) rfl rfl]
    exact congrArg _ (Invocation.answer_congr inlinedShown words _ _ _)
  · intro quiet
    have parsed := Line.parse_path fit (List.cons_ne_nil '-' []) (.inl rfl)
    have loaded : Source.load ⟨some ['-'], none⟩ piped = .ok (Text.Utf8.encode text) := by
      rw [← input]
      rfl
    rw [Line.program_eq parsed (Line.conflict?_of_quiet quiet) loaded]
    exact congrArg _ (Invocation.answer_congr pipedShown (fun asks => absurd asks quiet) _ _ _)

/-- A file and words of the same name as the dash and the file, told on a terminal in colours that
are left open; the three worlds hold the description in one place each, and octets that are no
description in the others. -/
theorem same_answer_of_words_like_sources :
    let line : Line := ⟨.exec [['-'], ['m'], []], [.compact], [.color .auto], true⟩
    let text : Text := "\x7bstates: 1, initial: 1, finalstates: [1]\x7d".toList
    let diagnostic (_ : List Text.Utf8.Octet) : Text := "invalid leading UTF-8 octet".toList
    let filed : World := ⟨[0xFF], fun _ => .ok (Text.Utf8.encode text), true, true, diagnostic⟩
    let inlined : World := ⟨[], fun _ => .error .missing, true, true, diagnostic⟩
    let piped : World := ⟨Text.Utf8.encode text, fun _ => .ok [0xFF], true, true, diagnostic⟩
    ∃ response, program (line.arguments ['m']) filed = .ok response ∧
      program (line.arguments ("--description=".toList ++ text)) inlined = .ok response ∧
      program (line.arguments ['-']) piped = .ok response := by
  intro line text diagnostic filed inlined piped
  have fit : line.Fit := ⟨by decide, by decide, by decide, by decide⟩
  obtain ⟨response, fromFile, fromLine, fromInput⟩ :=
    same_answer_from_every_source line fit text ['m'] (by decide) (by decide) filed inlined piped
      rfl rfl ⟨⟨rfl, rfl, rfl⟩, rfl, rfl, rfl⟩ (fun asks => absurd asks (List.cons_ne_nil _ _))
  exact ⟨response, fromFile, fromLine (by decide), fromInput (List.cons_ne_nil _ _)⟩

end Acceptor.Command
