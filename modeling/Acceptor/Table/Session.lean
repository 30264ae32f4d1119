import Acceptor.Table.Builder
import Acceptor.Table.Dump
import Acceptor.Trace
/-!
Sessions with a table workshop, which holds at most one builder and at most one built table. A
request is answered and may change the session; a request that is answered by a complaint leaves
the session as it was.
-/
namespace Acceptor.Table

structure Session where
  builder : Option Builder := none
  table : Option Table := none
deriving DecidableEq, Repr

inductive Query where
  | stateCount
  | start
  | accepts (state : State)
  | acceptsAt (place : Nat)
  | acceptStates
  | alphabet
  | row (symbol : Char)
  | successors (symbol : Char)
  | step (place : Nat) (symbol : Char)
  | dump (colored : Bool)
  | recognize (word : Text)
  | trace (word : Text) (verbosity : Verbosity) (colored : Bool)
deriving DecidableEq, Repr

inductive Request where
  | new (count : Nat) (start : State)
  | call (call : Builder.Call)
  | hasSymbol (symbol : Char)
  | builderStateCount
  | build
  | query (query : Query)
deriving DecidableEq, Repr

inductive Complaint where
  | refused (refusal : Refusal)
  | outOfBounds (complaint : OutOfBounds)
  | noBuilder
  | noTable
deriving DecidableEq, Repr

inductive Answer where
  | done
  | truth (value : Bool)
  | number (value : Nat)
  | table (table : Table)
  | start (state : State) (place : Nat)
  | states (states : List State)
  | alphabet (symbols : Text)
  | row (places : Option (List Nat))
  | successors (states : Option (List (Nat × State)))
  | place (next : Option Nat)
  | listing (text : Text)
  | outcome (outcome : Outcome)
  | trace (lines : List Text) (outcome : Outcome)
deriving DecidableEq, Repr

def Query.answer (table : Table) : Query → Except Complaint Answer
  | stateCount => .ok (.number table.stateCount)
  | start => .ok (.start table.startState table.start)
  | accepts state => .ok (.truth (table.accepts state))
  | acceptsAt place => .ok (.truth (table.acceptsAt place))
  | acceptStates => .ok (.states table.acceptStates)
  | alphabet => .ok (.alphabet table.alphabet)
  | row symbol => .ok (.row (table.row? symbol))
  | successors symbol => .ok (.successors ((table.successors? symbol).map countedDown))
  | step place symbol => ((table.step place symbol).mapError .outOfBounds).map .place
  | dump colored => .ok (.listing (table.dump (.choose colored)))
  | recognize word => .ok (.outcome (table.run word))
  | trace word verbosity colored =>
    .ok (.trace (Trace.lines verbosity (.choose colored) table word) (table.run word))

namespace Session

def needBuilder (session : Session) : Except Complaint Builder :=
  session.builder.elim (.error .noBuilder) .ok

def needTable (session : Session) : Except Complaint Table :=
  session.table.elim (.error .noTable) .ok

def meet (session : Session) : Request → Except Complaint (Session × Answer)
  | .new count start => do
    let builder ← (Builder.new count start).mapError .refused
    return ({ session with builder := builder }, .done)
  | .call call => do
    let builder ← ((← session.needBuilder).apply call).mapError .refused
    return ({ session with builder := builder }, .done)
  | .hasSymbol symbol => do
    return (session, .truth ((← session.needBuilder).hasSymbol symbol))
  | .builderStateCount => do
    return (session, .number (← session.needBuilder).stateCount)
  | .build => do
    let table := (← session.needBuilder).build
    return (⟨none, some table⟩, .table table)
  | .query query => do
    return (session, ← query.answer (← session.needTable))

def answer (session : Session) (request : Request) : Session × Except Complaint Answer :=
  match session.meet request with
  | .ok (next, answer) => (next, .ok answer)
  | .error complaint => (session, .error complaint)

def answers (session : Session) : List Request → List (Except Complaint Answer)
  | [] => []
  | request :: rest =>
    (session.answer request).2 :: answers (session.answer request).1 rest

theorem meet_call (builder : Builder) (table : Option Table) (call : Builder.Call) :
    Session.meet ⟨some builder, table⟩ (.call call) =
      ((builder.apply call).mapError .refused).map fun next => (⟨some next, table⟩, .done) := by
  change ((builder.apply call).mapError Complaint.refused >>= fun next =>
    pure ((⟨some next, table⟩ : Session), Answer.done)) = _
  cases builder.apply call with
  | error refusal => rfl
  | ok next => rfl

theorem meet_query (builder : Option Builder) (table : Table) (query : Query) :
    Session.meet ⟨builder, some table⟩ (.query query) =
      (query.answer table).map fun answer => (⟨builder, some table⟩, answer) := by
  change (query.answer table >>= fun answer =>
    pure ((⟨builder, some table⟩ : Session), answer)) = _
  cases query.answer table with
  | error complaint => rfl
  | ok answer => rfl

theorem answer_of_ok {session next : Session} {request : Request} {answer : Answer}
    (met : session.meet request = .ok (next, answer)) :
    session.answer request = (next, .ok answer) := by
  simp [Session.answer, met]

theorem answer_of_error {session : Session} {request : Request} {complaint : Complaint}
    (failed : session.meet request = .error complaint) :
    session.answer request = (session, .error complaint) := by
  simp [answer, failed]

end Session

end Acceptor.Table
