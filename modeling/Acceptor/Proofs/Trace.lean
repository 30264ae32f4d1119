import Acceptor.Proofs.Table.Events
import Acceptor.Trace
/-!
Traces as observers collect them. The lines are those of the events, one event after the other, and
the last one says what the outcome of the run is.
-/
namespace Acceptor

namespace Trace

def collect (verbosity : Verbosity) (palette : Palette) (collected : List Text) (event : Event) :
    List Text :=
  collected ++ eventLines verbosity palette event

theorem foldl_collect (verbosity : Verbosity) (palette : Palette) (collected : List Text)
    (events : List Event) :
    events.foldl (collect verbosity palette) collected =
      collected ++ events.flatMap (eventLines verbosity palette) := by
  induction events generalizing collected with
  | nil => rw [List.foldl_nil, List.flatMap_nil, List.append_nil]
  | cons event events ih => rw [List.foldl_cons, ih, collect, List.flatMap_cons, List.append_assoc]

/-- Collecting a trace is an observation like any other: the outcome is the one of the run. -/
theorem runWith_collect {table : Table} (sound : table.Sound) (verbosity : Verbosity)
    (palette : Palette) (word : Text) :
    table.runWith (collect verbosity palette) [] word =
      (table.run word, lines verbosity palette table word) := by
  rw [sound.runWith_eq, foldl_collect]
  rfl

def verdictLine (palette : Palette) (accepted : Bool) (state : State) : Text :=
  line palette (palette.verdict accepted)
    (if accepted then "accept".toList else "reject".toList) state.text

end Trace

end Acceptor
