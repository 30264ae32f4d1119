import Acceptor.Proofs.Command.Sources
import Acceptor.Proofs.Compile.Equality
/-!
Whether a description can be used is decided in the same way for all commands. Where it cannot be
loaded, read or checked, they fail alike, and before anything is written; where it can, all of them
work on the one table that it makes. Only the commands that would read their words where the
description is do not look at it.
-/
namespace Acceptor

open Text.Utf8 (Octet)

/-- The stages that octets pass on their way to a table. There are two ways to fail: a table that is
asked for after the checks is never refused. -/
theorem encode_eq (octets : List Octet) :
    encode octets =
      match Description.parse? octets with
      | none => .error .malformed
      | some description =>
        match description.check with
        | .error violation => .error (.invalid violation)
        | .ok automaton => .ok (builderOf automaton).build := by
  rw [encode]
  cases Description.parse? octets with
  | none => rfl
  | some description =>
    simp only [Description.encode]
    cases checked : description.check with
    | error violation => rfl
    | ok automaton =>
      change (compile automaton).mapError EncodeError.refused = _
      rw [compile_of_check checked]
      rfl

theorem encode_eq_ok_iff {octets : List Octet} {table : Table} :
    encode octets = .ok table ↔
      ∃ description automaton, Description.parse? octets = some description ∧
        description.check = .ok automaton ∧ table = (builderOf automaton).build := by
  rw [encode_eq]
  cases read : Description.parse? octets with
  | none => simp
  | some description => cases checked : description.check <;> simp [checked, eq_comm]

theorem encode_eq_error_iff {octets : List Octet} {error : EncodeError} :
    encode octets = .error error ↔
      (Description.parse? octets = none ∧ error = .malformed) ∨
        ∃ description violation, Description.parse? octets = some description ∧
          description.check = .error violation ∧ error = .invalid violation := by
  rw [encode_eq]
  cases read : Description.parse? octets with
  | none => simp [eq_comm]
  | some description => cases checked : description.check <;> simp [checked, eq_comm]

namespace Command

/-- What a source comes down to: a description on the command line hides a path, and one path is
standard input. -/
inductive Given where
  | nothing
  | inline (text : Text)
  | input
  | file (path : Text)
deriving DecidableEq

def Source.given (source : Source) : Given :=
  match source.inline, source.path with
  | some text, _ => .inline text
  | none, none => .nothing
  | none, some path => if path = standardInput then .input else .file path

namespace Given

def load (world : World) : Given → Except Text (List Octet)
  | .nothing =>
    .error "description is required: use positional argument or -d/--description".toList
  | .inline text => .ok (Text.Utf8.encode text)
  | .input => .ok world.stdin
  | .file path => (world.files path).mapError fun failure =>
      "failed to read '".toList ++ path ++ "': ".toList ++ failure.message

inductive Holds (world : World) : Given → List Octet → Prop
  | inline (text : Text) : Holds world (.inline text) (Text.Utf8.encode text)
  | input : Holds world .input world.stdin
  | file {path : Text} {octets : List Octet} (content : world.files path = .ok octets) :
      Holds world (.file path) octets

inductive Lacks (world : World) : Given → Text → Prop
  | nothing : Lacks world .nothing
      "description is required: use positional argument or -d/--description".toList
  | file {path : Text} {failure : ReadFailure} (unread : world.files path = .error failure) :
      Lacks world (.file path)
        ("failed to read '".toList ++ path ++ "': ".toList ++ failure.message)

/-- Why a description cannot be used, in the words of the stage that fails behind the names of the
stages that led to it. The first of these stages speaks in the words of the reader of the format. -/
inductive Fails (world : World) (given : Given) : Text → Prop
  | lacking {message : Text} (lacks : given.Lacks world message) : Fails world given message
  | malformed {octets : List Octet} (held : given.Holds world octets)
      (unread : Description.parse? octets = none) :
      Fails world given
        ("unmarshal automaton: unmarshal automaton yaml: ".toList ++ world.diagnostic octets)
  | invalid {octets : List Octet} {description : Description} {violation : Description.Violation}
      (held : given.Holds world octets) (read : Description.parse? octets = some description)
      (violated : description.check = .error violation) :
      Fails world given ("encode automaton: validate automaton: ".toList ++ violation.message)

def Makes (world : World) (given : Given) (table : Table) : Prop :=
  ∃ octets description automaton, given.Holds world octets ∧
    Description.parse? octets = some description ∧ description.check = .ok automaton ∧
    table = (builderOf automaton).build

variable {given : Given} {world : World}

theorem load_eq_ok_iff {octets : List Octet} :
    given.load world = .ok octets ↔ given.Holds world octets := by
  constructor
  · intro loaded
    cases given with
    | nothing => cases loaded
    | inline text => cases loaded; exact .inline text
    | input => cases loaded; exact .input
    | file path => exact .file (Fallible.mapError_eq_ok_iff.mp loaded)
  · intro held
    cases held with
    | inline text => rfl
    | input => rfl
    | file content => exact Fallible.mapError_eq_ok_iff.mpr content

theorem load_eq_error_iff {message : Text} :
    given.load world = .error message ↔ given.Lacks world message := by
  constructor
  · intro failed
    cases given with
    | nothing => cases failed; exact .nothing
    | inline text => cases failed
    | input => cases failed
    | file path =>
      obtain ⟨failure, unread, rfl⟩ := Fallible.mapError_eq_error_iff.mp failed
      exact .file unread
  · intro lacks
    cases lacks with
    | nothing => rfl
    | file unread => exact Fallible.mapError_eq_error_iff.mpr ⟨_, unread, rfl⟩

theorem fails_or_makes (given : Given) (world : World) :
    (∃ message, given.Fails world message) ∨ ∃ table, given.Makes world table := by
  cases loaded : given.load world with
  | error message => exact .inl ⟨message, .lacking (load_eq_error_iff.mp loaded)⟩
  | ok octets =>
    have held := load_eq_ok_iff.mp loaded
    cases read : Description.parse? octets with
    | none => exact .inl ⟨_, .malformed held read⟩
    | some description =>
      cases checked : description.check with
      | error violation => exact .inl ⟨_, .invalid held read checked⟩
      | ok automaton => exact .inr ⟨_, octets, description, automaton, held, read, checked, rfl⟩

end Given

namespace Source

variable {source : Source} {world : World}

theorem given_of_inline {text : Text} (inline : source.inline = some text) :
    source.given = .inline text := by rw [given, inline]

theorem given_of_file {path : Text} (noDash : path ≠ ['-']) :
    given ⟨some path, none⟩ = .file path := if_neg noDash

theorem load_eq (source : Source) (world : World) :
    source.load world = source.given.load world := by
  obtain ⟨path, inline⟩ := source
  cases inline with
  | some text => rfl
  | none =>
    cases path with
    | none => rfl
    | some path =>
      simp only [load, given]
      split
      next => rfl
      next => rfl

theorem table_eq_ok_iff {table : Table} :
    source.table world = .ok table ↔ source.given.Makes world table := by
  rw [Source.table, Fallible.bind_eq_ok_iff, load_eq]
  constructor
  · rintro ⟨octets, loaded, made⟩
    obtain ⟨description, automaton, read, checked, same⟩ :=
      encode_eq_ok_iff.mp (Fallible.mapError_eq_ok_iff.mp made)
    exact ⟨octets, description, automaton, Given.load_eq_ok_iff.mp loaded, read, checked, same⟩
  · rintro ⟨octets, description, automaton, held, read, checked, same⟩
    exact ⟨octets, Given.load_eq_ok_iff.mpr held, Fallible.mapError_eq_ok_iff.mpr
      (encode_eq_ok_iff.mpr ⟨description, automaton, read, checked, same⟩)⟩

theorem table_eq_error_iff {message : Text} :
    source.table world = .error message ↔ source.given.Fails world message := by
  rw [Source.table, Fallible.bind_eq_error_iff, load_eq, Given.load_eq_error_iff]
  constructor
  · rintro (lacks | ⟨octets, loaded, failed⟩)
    · exact .lacking lacks
    · have held := Given.load_eq_ok_iff.mp loaded
      obtain ⟨error, unmade, rfl⟩ := Fallible.mapError_eq_error_iff.mp failed
      rcases encode_eq_error_iff.mp unmade with ⟨unread, rfl⟩ | ⟨_, _, read, violated, rfl⟩
      · exact .malformed held unread
      · exact .invalid held read violated
  · intro failed
    cases failed with
    | lacking lacks => exact .inl lacks
    | malformed held unread =>
      exact .inr ⟨_, Given.load_eq_ok_iff.mpr held, Fallible.mapError_eq_error_iff.mpr
        ⟨_, encode_eq_error_iff.mpr (.inl ⟨unread, rfl⟩), rfl⟩⟩
    | invalid held read violated =>
      exact .inr ⟨_, Given.load_eq_ok_iff.mpr held, Fallible.mapError_eq_error_iff.mpr
        ⟨_, encode_eq_error_iff.mpr (.inr ⟨_, _, read, violated, rfl⟩), rfl⟩⟩

theorem given_eq_input_iff :
    source.given = .input ↔ source.inline = none ∧ source.namesStandardInput = true := by
  obtain ⟨path, inline⟩ := source
  cases inline with
  | some text => simp [given]
  | none =>
    cases path with
    | none => simp [given, namesStandardInput]
    | some path =>
      simp only [given, namesStandardInput]
      split
      next dash => simp [dash]
      next other => simp [other]

end Source

/-- Whether a description and the words of an action would both be read from standard input. -/
def Given.Clashes (given : Given) (action : Action) : Prop := given = .input ∧ action.Asks

def World.palette (world : World) (color : ColorChoice) : Palette :=
  .choose (color.wanted (world.outputShown && world.errorsShown))

def Response.complaint (palette : Palette) (message : Text) : Response where
  status := 1
  output := []
  errors := palette.red ++ "error".toList ++ palette.reset ++ ": ".toList ++ message ++ ['\n']

namespace Invocation

variable {invocation : Invocation} {world : World}

theorem conflict?_of_input (input : invocation.source.given = .input) :
    invocation.conflict? =
      match invocation.action with
      | .exec [] _ => some "description and words cannot both be from stdin".toList
      | .repl => some "repl reads words from stdin; pass the description as a file or -d".toList
      | _ => none := by
  obtain ⟨noText, dash⟩ := Source.given_eq_input_iff.mp input
  have reads :
      (invocation.source.inline.isSome || !invocation.source.namesStandardInput) = false := by
    rw [noText, dash]
    rfl
  rw [conflict?, reads]
  exact if_neg Bool.false_ne_true

theorem conflict?_eq_none_iff :
    invocation.conflict? = none ↔ ¬ invocation.source.given.Clashes invocation.action := by
  by_cases input : invocation.source.given = .input
  · rw [conflict?_of_input input, Given.Clashes]
    cases invocation.action with
    | exec words compact => cases words <;> simp [input, Action.Asks]
    | _ => simp [input, Action.Asks]
  · have elsewhere := mt Source.given_eq_input_iff.mpr input
    have free : invocation.conflict? = none := by
      rw [conflict?]
      apply if_pos
      cases noText : invocation.source.inline with
      | some text => rfl
      | none => simpa [noText] using elsewhere
    exact ⟨fun _ clash => input clash.1, fun _ => free⟩

theorem respond_of_fails (apart : ¬ invocation.source.given.Clashes invocation.action)
    {message : Text} (failed : invocation.source.given.Fails world message) :
    invocation.respond world = .complaint (world.palette invocation.color) message := by
  have prepared : invocation.prepare world = .error message := by
    rw [prepare, conflict?_eq_none_iff.mpr apart]
    exact Source.table_eq_error_iff.mpr failed
  rw [respond, prepared]
  rfl

theorem respond_of_makes (apart : ¬ invocation.source.given.Clashes invocation.action)
    {table : Table} (made : invocation.source.given.Makes world table) :
    invocation.respond world =
      perform world (world.palette invocation.color) table invocation.action := by
  have prepared : invocation.prepare world = .ok table := by
    rw [prepare, conflict?_eq_none_iff.mpr apart]
    exact Source.table_eq_ok_iff.mpr made
  rw [respond, prepared]
  rfl

theorem respond_of_conflict {message : Text} (conflict : invocation.conflict? = some message) :
    invocation.respond world = .complaint (world.palette invocation.color) message := by
  have prepared : invocation.prepare world = .error message := by rw [prepare, conflict]
  rw [respond, prepared]
  rfl

end Invocation

/-- A command line that asks for an action on a description, with a choice of colours. -/
def Asked (arguments : List Text) (action : Action) (given : Given) (color : ColorChoice) : Prop :=
  ∃ source : Source, source.given = given ∧
    Invocation.parse arguments = .ok ⟨action, source, color⟩

section

variable {arguments : List Text} {action : Action} {given : Given} {color : ColorChoice}
  {world : World}

theorem Asked.of_fails (asked : Asked arguments action given color)
    (apart : ¬ given.Clashes action) {message : Text} (failed : given.Fails world message) :
    program arguments world = .ok (.complaint (world.palette color) message) := by
  obtain ⟨source, rfl, parsed⟩ := asked
  rw [program_of_parsed parsed]
  exact congrArg _ (Invocation.respond_of_fails apart failed)

theorem Asked.of_makes (asked : Asked arguments action given color)
    (apart : ¬ given.Clashes action) {table : Table} (made : given.Makes world table) :
    program arguments world =
      .ok (Invocation.perform world (world.palette color) table action) := by
  obtain ⟨source, rfl, parsed⟩ := asked
  rw [program_of_parsed parsed]
  exact congrArg _ (Invocation.respond_of_makes apart made)

end

/-- All commands agree on a description, however it is given. Either it cannot be had, read or
checked, for a reason, or it makes a table. In the first case every command fails with that reason
and writes nothing else; in the second every command does what it is for, with that table. Checking
is silent and successful exactly where listing is successful. The commands that would read their
words where the description is say so instead, whatever standard input holds. -/
theorem commands_agree_on_descriptions (given : Given) (color : ColorChoice) (world : World) :
    ((∃ message, given.Fails world message) ∨ ∃ table, given.Makes world table) ∧
      (∀ message, given.Fails world message → ∀ arguments action,
        Asked arguments action given color → ¬ given.Clashes action →
          program arguments world = .ok (.complaint (world.palette color) message)) ∧
      (∀ table, given.Makes world table → ∀ arguments action,
        Asked arguments action given color → ¬ given.Clashes action →
          program arguments world =
            .ok (Invocation.perform world (world.palette color) table action)) ∧
      (∀ checking listing, Asked checking .check given color → Asked listing .dump given color →
        (program checking world = .ok ⟨0, [], []⟩ ↔
          ∃ output errors, program listing world = .ok ⟨0, output, errors⟩)) ∧
      (given = .input → ∀ arguments stdin,
        (∀ compact, Asked arguments (.exec [] compact) given color →
          program arguments { world with stdin } = .ok (.complaint (world.palette color)
            "description and words cannot both be from stdin".toList)) ∧
        (Asked arguments .repl given color →
          program arguments { world with stdin } = .ok (.complaint (world.palette color)
            "repl reads words from stdin; pass the description as a file or -d".toList))) := by
  refine ⟨given.fails_or_makes world, ?_, ?_, ?_, ?_⟩
  · intro message failed arguments action asked apart
    exact asked.of_fails apart failed
  · intro table made arguments action asked apart
    exact asked.of_makes apart made
  · intro checking listing checks lists
    have quiet : ¬ given.Clashes .check ∧ ¬ given.Clashes .dump := ⟨And.right, And.right⟩
    rcases given.fails_or_makes world with ⟨message, failed⟩ | ⟨table, made⟩
    · rw [checks.of_fails quiet.1 failed, lists.of_fails quiet.2 failed]
      simp [Response.complaint]
    · rw [checks.of_makes quiet.1 made, lists.of_makes quiet.2 made]
      simp [Invocation.perform, Response.success]
  · rintro rfl arguments stdin
    constructor
    · rintro compact ⟨source, input, parsed⟩
      rw [program_of_parsed parsed]
      exact congrArg _ (Invocation.respond_of_conflict (Invocation.conflict?_of_input input))
    · rintro ⟨source, input, parsed⟩
      rw [program_of_parsed parsed]
      exact congrArg _ (Invocation.respond_of_conflict (Invocation.conflict?_of_input input))

/-- A file that is missing, told on a terminal by each of the commands; octets on standard input
that are no text, with what the reader of the format says of them; and a description that would be
read where the words are. -/
theorem commands_agree_on_missing_file :
    let world : World := ⟨[0xFF], fun _ => .error .missing, true, true,
      fun _ => "invalid leading UTF-8 octet".toList⟩
    (∀ arguments ∈ [["check".toList, ['m']], ["dump".toList, ['m']],
          ["exec".toList, ['m'], ['w']], ["trace".toList, ['m'], ['w'], "-v".toList],
          ["repl".toList, ['m']]],
        program arguments world = .ok ⟨1, [],
          "\x1b[31merror\x1b[0m: failed to read 'm': No such file or directory (os error 2)\n".toList⟩) ∧
      program ["check".toList, ['-']] world = .ok ⟨1, [],
        "\x1b[31merror\x1b[0m: unmarshal automaton: ".toList ++
          "unmarshal automaton yaml: invalid leading UTF-8 octet\n".toList⟩ ∧
      program ["exec".toList, ['-']] world = .ok ⟨1, [],
        "\x1b[31merror\x1b[0m: description and words cannot both be from stdin\n".toList⟩ := by
  intro world
  -- Each wording is compared once, for all the commands that use it.
  have missing : Response.complaint (world.palette .auto)
      ("failed to read '".toList ++ ['m'] ++ "': ".toList ++ ReadFailure.missing.message) = ⟨1, [],
        "\x1b[31merror\x1b[0m: failed to read 'm': No such file or directory (os error 2)\n".toList⟩ :=
    by decide +kernel
  have unread : Response.complaint (world.palette .auto)
      ("unmarshal automaton: unmarshal automaton yaml: ".toList ++ world.diagnostic [0xFF]) =
        ⟨1, [], "\x1b[31merror\x1b[0m: unmarshal automaton: ".toList ++
          "unmarshal automaton yaml: invalid leading UTF-8 octet\n".toList⟩ := by
    decide +kernel
  have clash : Response.complaint (world.palette .auto)
      "description and words cannot both be from stdin".toList = ⟨1, [],
        "\x1b[31merror\x1b[0m: description and words cannot both be from stdin\n".toList⟩ := by
    decide +kernel
  refine ⟨?_, ?_, ?_⟩
  · rw [← missing]
    obtain ⟨_, fail, _⟩ := commands_agree_on_descriptions (.file ['m']) .auto world
    have each (arguments : List Text) (action : Action)
        (parsed : Invocation.parse arguments = .ok ⟨action, ⟨some ['m'], none⟩, .auto⟩) :=
      fail _ (.lacking (.file rfl)) arguments action ⟨⟨some ['m'], none⟩, rfl, parsed⟩
        (fun clash => nomatch clash.1)
    simp only [List.forall_mem_cons]
    exact ⟨each _ .check rfl, each _ .dump rfl, each _ (.exec [['w']] false) rfl,
      each _ (.trace ['w'] .verbose) rfl, each _ .repl rfl, fun _ member => nomatch member⟩
  · rw [← unread]
    obtain ⟨_, fail, _⟩ := commands_agree_on_descriptions .input .auto world
    exact fail _ (.malformed .input (by decide +kernel)) _ .check
      ⟨⟨some ['-'], none⟩, rfl, rfl⟩ And.right
  · rw [← clash]
    obtain ⟨_, _, _, _, conflict⟩ := commands_agree_on_descriptions .input .auto world
    exact (conflict rfl _ world.stdin).1 false ⟨⟨some ['-'], none⟩, rfl, rfl⟩

end Command

end Acceptor
