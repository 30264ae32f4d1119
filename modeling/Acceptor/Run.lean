import Acceptor.Table
/-!
Running a table over a word: one look-up a symbol, from the start state to the end of the word or
to the first symbol without a row. An observer may follow the run event by event; it cannot change
it.
-/
namespace Acceptor

/-- How a run ended. A word outside the language is an ordinary outcome. -/
inductive Outcome where
  | accepted (state : State)
  | rejected (state : State)
  /-- The symbol at a position has no transition from the state reached; the rest was not read. -/
  | unknownSymbol (position : Nat) (symbol : Char) (state : State)
deriving DecidableEq, Repr

namespace Outcome

def isAccepted : Outcome → Bool
  | accepted _ => true
  | _ => false

def finalState? : Outcome → Option State
  | accepted state | rejected state => some state
  | unknownSymbol .. => none

def lastState : Outcome → State
  | accepted state | rejected state => state
  | unknownSymbol _ _ state => state

def ofVerdict (verdict : Bool) (state : State) : Outcome :=
  if verdict then accepted state else rejected state

end Outcome

/-- What an observer is told. Positions count the symbols of the word from zero. -/
inductive Event where
  | start (state : State)
  | step (position : Nat) (symbol : Char) (source target : State)
  /-- Instead of a transition that is missing; nothing follows. -/
  | unknown (position : Nat) (symbol : Char) (state : State)
  | finish (state : State) (accepted : Bool)
deriving DecidableEq, Repr

namespace Table

/-- Runs on from a place and a position, telling the observer of every event. -/
def walk {σ : Type} (table : Table) (observe : σ → Event → σ) :
    σ → Nat → Nat → Text → Outcome × σ
  | seen, place, _, [] =>
    let verdict := table.acceptsAt place
    (.ofVerdict verdict (.ofIndex place), observe seen (.finish (.ofIndex place) verdict))
  | seen, place, position, symbol :: rest =>
    match table.successor? place symbol with
    | none =>
      (.unknownSymbol position symbol (.ofIndex place),
        observe seen (.unknown position symbol (.ofIndex place)))
    | some next =>
      table.walk observe (observe seen (.step position symbol (.ofIndex place) (.ofIndex next)))
        next (position + 1) rest

/-- Runs over a word under an observer, who begins with what it has seen before. -/
def runWith {σ : Type} (table : Table) (observe : σ → Event → σ) (seen : σ) (word : Text) :
    Outcome × σ :=
  table.walk observe (observe seen (.start table.startState)) table.start 0 word

def run (table : Table) (word : Text) : Outcome := (table.runWith (fun _ _ => ()) () word).1

def recognizes (table : Table) (word : Text) : Bool := (table.run word).isAccepted

def events (table : Table) (word : Text) : List Event :=
  (table.runWith (fun seen event => event :: seen) [] word).2.reverse

theorem walk_nil {σ : Type} (table : Table) (observe : σ → Event → σ) (seen : σ)
    (place position : Nat) :
    table.walk observe seen place position [] =
      (.ofVerdict (table.acceptsAt place) (.ofIndex place),
        observe seen (.finish (.ofIndex place) (table.acceptsAt place))) := rfl

theorem walk_cons_of_none {σ : Type} {table : Table} {observe : σ → Event → σ} {seen : σ}
    {place position : Nat} {symbol : Char} {rest : Text}
    (absent : table.successor? place symbol = none) :
    table.walk observe seen place position (symbol :: rest) =
      (.unknownSymbol position symbol (.ofIndex place),
        observe seen (.unknown position symbol (.ofIndex place))) := by
  simp [walk, absent]

theorem walk_cons_of_some {σ : Type} {table : Table} {observe : σ → Event → σ} {seen : σ}
    {place next position : Nat} {symbol : Char} {rest : Text}
    (found : table.successor? place symbol = some next) :
    table.walk observe seen place position (symbol :: rest) =
      table.walk observe (observe seen (.step position symbol (.ofIndex place) (.ofIndex next)))
        next (position + 1) rest := by
  rw [walk]
  simp [found]

end Table

end Acceptor
