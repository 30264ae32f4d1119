import Acceptor.Proofs.Command.Usable
/-!
What an answer depends on. Of the files, a command looks at the one that it names, and at none if
its description is on the command line. Of standard input it takes its description, or else its
words, and these not before the description has turned out to be good.
-/
namespace Acceptor.Command

namespace Source

variable {source : Source} {first second : World}

theorem table_congr (diagnostic : first.diagnostic = second.diagnostic)
    (input : source.given = .input → first.stdin = second.stdin)
    (file : ∀ path, source.given = .file path → first.files path = second.files path) :
    source.table first = source.table second := by
  have loaded : source.load first = source.load second := by
    rw [load_eq, load_eq]
    cases described : source.given with
    | nothing => rfl
    | inline text => rfl
    | input => rw [Given.load, Given.load, input described]
    | file path => rw [Given.load, Given.load, file path described]
  rw [table, table, loaded, diagnostic]

end Source

namespace Invocation

variable {invocation : Invocation} {first second : World}

/-- Whether an invocation reads standard input: for its description, or for its words once its
description has made a table. -/
def Reads (invocation : Invocation) (world : World) : Prop :=
  (invocation.source.given = .input ∧ ¬ invocation.action.Asks) ∨
    (invocation.action.Asks ∧ invocation.source.given ≠ .input ∧
      ∃ table, invocation.source.given.Makes world table)

structure Alike (invocation : Invocation) (first second : World) : Prop where
  shown : first.ShowAlike second
  file : ∀ path, invocation.source.given = .file path → first.files path = second.files path
  input : invocation.Reads first → first.stdin = second.stdin

theorem palette_congr (shown : first.ShowAlike second) (color : ColorChoice) :
    first.palette color = second.palette color := by
  rw [World.palette, World.palette, shown.output, shown.errors]

/-- An answer is a function of what the invocation looks at. -/
theorem respond_congr (alike : invocation.Alike first second) :
    invocation.respond first = invocation.respond second := by
  have colors := palette_congr alike.shown invocation.color
  by_cases clash : invocation.source.given.Clashes invocation.action
  · -- Neither standard input nor a file is looked at.
    obtain ⟨message, conflict⟩ :=
      Option.ne_none_iff_exists'.mp fun free => conflict?_eq_none_iff.mp free clash
    rw [respond_of_conflict conflict, respond_of_conflict conflict, colors]
  · have described (input : invocation.source.given = .input) : first.stdin = second.stdin :=
      alike.input (.inl ⟨input, fun asks => clash ⟨input, asks⟩⟩)
    have same := Source.table_congr alike.shown.diagnostic described alike.file
    cases made : invocation.source.table first with
    | error message =>
      rw [respond_of_fails clash (Source.table_eq_error_iff.mp made),
        respond_of_fails clash (Source.table_eq_error_iff.mp (same.symm.trans made)), colors]
    | ok table =>
      have makes := Source.table_eq_ok_iff.mp made
      rw [respond_of_makes clash makes,
        respond_of_makes clash (Source.table_eq_ok_iff.mp (same.symm.trans made)), colors]
      apply perform_congr alike.shown.output
      -- Words are read only now that there is a table.
      intro asks
      exact alike.input (.inr ⟨asks, fun input => clash ⟨input, asks⟩, table, makes⟩)

end Invocation

/-- The answer to a command line depends on the inputs that it names. With a description on the
command line it is the same for all files; with the path of a file and no such description it is the
same for all files that agree there; and it is the same for all that standard input may hold, unless
the description is read from it, or words are read from it for a description that made a table. -/
theorem answer_depends_on_named_inputs {arguments : List Text} {invocation : Invocation}
    (parsed : Invocation.parse arguments = .ok invocation) (world : World) :
    (invocation.source.inline ≠ none → ∀ files,
        program arguments { world with files } = program arguments world) ∧
      (∀ path, invocation.source = ⟨some path, none⟩ → path ≠ ['-'] →
        ∀ files, files path = world.files path →
          program arguments { world with files } = program arguments world) ∧
      (¬ invocation.Reads world → ∀ stdin,
        program arguments { world with stdin } = program arguments world) := by
  have answered {first second : World} (alike : invocation.Alike first second) :
      program arguments first = program arguments second := by
    rw [program_of_parsed parsed, program_of_parsed parsed, Invocation.respond_congr alike]
  refine ⟨?_, ?_, ?_⟩
  · intro inline files
    refine answered ⟨⟨rfl, rfl, rfl⟩, ?_, fun _ => rfl⟩
    intro path file
    obtain ⟨text, given⟩ := Option.ne_none_iff_exists'.mp inline
    rw [Source.given_of_inline given] at file
    cases file
  · intro path named noDash files agree
    refine answered ⟨⟨rfl, rfl, rfl⟩, ?_, fun _ => rfl⟩
    intro other file
    rw [named, Source.given_of_file noDash] at file
    cases file
    exact agree
  · intro unread stdin
    have same : program arguments world = program arguments { world with stdin } :=
      answered ⟨⟨rfl, rfl, rfl⟩, fun _ _ => rfl, fun reads => absurd reads unread⟩
    exact same.symm

/-- A file that is missing is all that is looked at, though words would have been read behind it;
and a path behind an inline description is a word like any other. -/
theorem answer_depends_on_missing_file :
    let world : World := { stdin := [], files := fun _ => .error .missing }
    let other : World :=
      { stdin := [0x61], files := fun path => if path = ['m'] then .error .missing else .ok [] }
    program ["exec".toList, ['m']] other = program ["exec".toList, ['m']] world ∧
      program ["exec".toList, "-d=".toList, ['m']] { world with files := fun _ => .ok [] } =
        program ["exec".toList, "-d=".toList, ['m']] world := by
  intro world other
  have unread : ¬ Invocation.Reads ⟨.exec [] false, ⟨some ['m'], none⟩, .auto⟩ world := by
    rintro (⟨_, quiet⟩ | ⟨_, _, table, made⟩)
    · exact quiet rfl
    · cases Source.table_eq_ok_iff.mpr made
  have parsed : Invocation.parse ["exec".toList, ['m']] =
      .ok ⟨.exec [] false, ⟨some ['m'], none⟩, .auto⟩ := rfl
  obtain ⟨_, files, _⟩ :=
    answer_depends_on_named_inputs parsed { world with stdin := [0x61] }
  obtain ⟨_, _, input⟩ := answer_depends_on_named_inputs parsed world
  obtain ⟨inline, _, _⟩ := answer_depends_on_named_inputs
    (rfl : Invocation.parse ["exec".toList, "-d=".toList, ['m']] =
      .ok ⟨.exec [['m']] false, ⟨none, some []⟩, .auto⟩) world
  exact ⟨(files ['m'] rfl (by decide) _ rfl).trans (input unread _), inline (by decide) _⟩

end Acceptor.Command
