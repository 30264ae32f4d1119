import Acceptor.Proofs.Table.Replay
import Acceptor.Table.Session
/-!
Requests change a workshop as a whole or not at all. Here builders and sessions are changed in
place, one check and one write after the other, and a complaint takes back nothing that was written
before it. Since all checks of a request come before its first write, a complaint leaves the
session as it was, and the requests that were not met can be taken out of a session without any
effect on the other answers.
-/
namespace Acceptor.Table

def Session.after (session : Session) (requests : List Request) : Session :=
  requests.foldl (fun session request => (session.answer request).1) session

def Session.met (session : Session) (requests : List Request) :
    List (Request × Except Complaint Answer) :=
  (requests.zip (session.answers requests)).filter (·.2.isOk)

namespace InPlace

/-- The end of work that either is done or leaves behind what was there before. -/
def ending {ε σ α : Type} (before : σ) : Except ε (σ × α) → EStateM.Result ε σ α
  | .ok (next, value) => .ok value next
  | .error failure => .error failure before

def ensureStateCount {σ : Type} (count : Nat) : EStateM Refusal σ Unit :=
  unless 1 ≤ count ∧ count ≤ maxStates do throw (.countOutside count)

def ensureState {σ : Type} (count : Nat) (state : State) : EStateM Refusal σ Unit :=
  unless state.Within count do throw (.stateOutside state count)

def ensureStates : List State → EStateM Refusal Builder Unit
  | [] => pure ()
  | state :: rest => do
    ensureState (← get).stateCount state
    ensureStates rest

def ensureRow (symbol : Char) (successors : List State) : EStateM Refusal Builder Unit := do
  if (← get).hasSymbol symbol then throw (.symbolTaken symbol)
  if successors.length ≠ (← get).stateCount then throw (.rowIncomplete symbol)
  ensureStates successors

def new {σ : Type} (count : Nat) (start : State) : EStateM Refusal σ Builder := do
  ensureStateCount count
  ensureState count start
  return ⟨count, start.index, [], []⟩

def call : Builder.Call → EStateM Refusal Builder Unit
  | .acceptState state => do
    ensureState (← get).stateCount state
    modify fun builder => { builder with accepting := builder.accepting ++ [state.index] }
  | .addTransition symbol successors => do
    ensureRow symbol successors
    modify fun builder =>
      { builder with rows := builder.rows ++ [(symbol, successors.map State.index)] }

/-- Works on the builder where it stands. Whatever the work leaves of it stays in the workshop. -/
def onBuilder (work : EStateM Refusal Builder Unit) : EStateM Complaint Session Unit := do
  match (← get).builder with
  | none => throw .noBuilder
  | some builder =>
    match work.run builder with
    | .ok () next => modify fun session => { session with builder := some next }
    | .error refusal left =>
      modify fun session => { session with builder := some left }
      throw (.refused refusal)

def needBuilder : EStateM Complaint Session Builder := do
  match (← get).builder with
  | none => throw .noBuilder
  | some builder => return builder

def needTable : EStateM Complaint Session Table := do
  match (← get).table with
  | none => throw .noTable
  | some table => return table

def meet : Request → EStateM Complaint Session Answer
  | .new count start => do
    let builder ← (new count start).adaptExcept .refused
    modify fun session => { session with builder := some builder }
    return .done
  | .call request => do
    onBuilder (call request)
    return .done
  | .hasSymbol symbol => return .truth ((← needBuilder).hasSymbol symbol)
  | .builderStateCount => return .number (← needBuilder).stateCount
  | .build => do
    let builder ← needBuilder
    -- The builder is used up before there is a table, so nothing may fail from here on.
    modify fun session => { session with builder := none }
    modify fun session => { session with table := some builder.build }
    return .table builder.build
  | .query query => do
    match query.answer (← needTable) with
    | .ok answer => return answer
    | .error complaint => throw complaint

/-- The answers to a sequence of requests, each of which finds what the one before it has left. -/
def answers (session : Session) : List Request → List (Except Complaint Answer)
  | [] => []
  | request :: rest =>
    match (meet request).run session with
    | .ok answer next => .ok answer :: answers next rest
    | .error complaint left => .error complaint :: answers left rest

theorem run_ensureStateCount {σ : Type} (count : Nat) (before : σ) :
    (ensureStateCount count).run before =
      if 1 ≤ count ∧ count ≤ maxStates then .ok () before
      else .error (.countOutside count) before := by
  unfold ensureStateCount
  split
  next bounded => rfl
  next outside => rfl

theorem run_ensureState {σ : Type} (count : Nat) (state : State) (before : σ) :
    (ensureState count state).run before =
      if state.Within count then .ok () before else .error (.stateOutside state count) before := by
  unfold ensureState
  split
  next within => rfl
  next outside => rfl

theorem run_ensureStates (successors : List State) (builder : Builder) :
    (ensureStates successors).run builder =
      match successors.find? (¬ ·.Within builder.stateCount) with
      | some state => .error (.stateOutside state builder.stateCount) builder
      | none => .ok () builder := by
  induction successors with
  | nil => rfl
  | cons state rest ih =>
    rw [ensureStates, EStateM.run_bind, EStateM.run_get]
    simp only [EStateM.run_bind, run_ensureState, List.find?_cons]
    by_cases within : state.Within builder.stateCount
    · simp only [within, if_true, not_true_eq_false, decide_false]
      exact ih
    · simp only [within, if_false, not_false_eq_true, decide_true]

theorem run_ensureRow (symbol : Char) (successors : List State) (builder : Builder) :
    (ensureRow symbol successors).run builder =
      ending builder ((builder.addTransition symbol successors).map fun _ => (builder, ())) := by
  unfold ensureRow Builder.addTransition
  by_cases taken : builder.hasSymbol symbol = true
  · simp [taken, Except.map, ending]
  · by_cases complete : successors.length = builder.stateCount
    · simp only [EStateM.run_bind, EStateM.run_get, taken, complete, Bool.false_eq_true, if_false,
        ne_eq, not_true_eq_false, run_ensureStates]
      cases successors.find? (¬ ·.Within builder.stateCount) with
      | none => rfl
      | some state => rfl
    · simp [taken, complete, Except.map, ending]

theorem run_new {σ : Type} (count : Nat) (start : State) (before : σ) :
    (new count start).run before =
      ending before ((Builder.new count start).map (before, ·)) := by
  unfold new Builder.new
  simp only [EStateM.run_bind, run_ensureStateCount, run_ensureState, EStateM.run_pure]
  by_cases bounded : 1 ≤ count ∧ count ≤ maxStates
  · by_cases within : start.Within count
    · simp [bounded, within, Except.map, ending]
    · simp [bounded, within, Except.map, ending]
  · simp [bounded, Except.map, ending]

/-- A call writes once, and only after the last of its checks. -/
theorem run_call (request : Builder.Call) (builder : Builder) :
    (call request).run builder = ending builder ((builder.apply request).map (·, ())) := by
  cases request with
  | acceptState state =>
    unfold call Builder.apply Builder.acceptState
    simp only [EStateM.run_bind, EStateM.run_get, run_ensureState]
    by_cases within : state.Within builder.stateCount
    · simp [within, Except.map, ending]
    · simp [within, Except.map, ending]
  | addTransition symbol successors =>
    unfold call Builder.apply
    simp only [EStateM.run_bind, run_ensureRow]
    cases outcome : builder.addTransition symbol successors with
    | error refusal => rfl
    | ok next =>
      obtain ⟨_, _, _, rfl⟩ := Builder.addTransition_eq_ok_iff.mp outcome
      rfl

theorem run_onBuilder (work : EStateM Refusal Builder Unit) (builder : Builder)
    (table : Option Table) :
    (onBuilder work).run ⟨some builder, table⟩ =
      match work.run builder with
      | .ok () next => .ok () ⟨some next, table⟩
      | .error refusal left => .error (.refused refusal) ⟨some left, table⟩ := by
  unfold onBuilder
  rw [EStateM.run_bind, EStateM.run_get]
  cases ended : work.run builder with
  | ok value next => simp only [ended]; rfl
  | error refusal left => simp only [ended]; rfl

/-- Meeting a request in place ends as meeting it does, and where it ends in a complaint, the
session is the one before. -/
theorem run_meet (session : Session) (request : Request) :
    (meet request).run session = ending session (session.meet request) := by
  obtain ⟨held, table⟩ := session
  cases request with
  | new count start =>
    unfold meet Session.meet
    simp only [EStateM.run_bind, EStateM.run_adaptExcept, run_new]
    cases Builder.new count start with
    | error refusal => rfl
    | ok builder => rfl
  | call request =>
    cases held with
    | none => rfl
    | some builder =>
      rw [Session.meet_call, meet, EStateM.run_bind, run_onBuilder, run_call]
      cases builder.apply request with
      | error refusal => rfl
      | ok next => rfl
  | hasSymbol symbol =>
    cases held with
    | none => rfl
    | some builder => rfl
  | builderStateCount =>
    cases held with
    | none => rfl
    | some builder => rfl
  | build =>
    cases held with
    | none => rfl
    | some builder => rfl
  | query query =>
    cases table with
    | none => rfl
    | some table =>
      rw [Session.meet_query]
      -- The table is there, so that only the query itself can end in a complaint.
      change (match query.answer table with
        | .ok answer => pure answer
        | .error complaint => throw complaint : EStateM Complaint Session Answer).run
          ⟨held, some table⟩ = _
      cases query.answer table with
      | error complaint => rfl
      | ok answer => rfl

theorem answers_eq (session : Session) (requests : List Request) :
    answers session requests = session.answers requests := by
  induction requests generalizing session with
  | nil => rfl
  | cons request rest ih =>
    rw [answers, run_meet, Session.answers]
    cases met : session.meet request with
    | ok result =>
      rw [Session.answer_of_ok met]
      exact congrArg _ (ih result.1)
    | error complaint =>
      rw [Session.answer_of_error met]
      exact congrArg _ (ih session)

end InPlace

namespace Session

theorem met_cons_of_ok {session next : Session} {request : Request} {answer : Answer}
    (done : session.meet request = .ok (next, answer)) (rest : List Request) :
    session.met (request :: rest) = (request, .ok answer) :: next.met rest := by
  unfold met
  rw [answers, answer_of_ok done, List.zip_cons_cons]
  exact List.filter_cons_of_pos rfl

theorem met_cons_of_error {session : Session} {request : Request} {complaint : Complaint}
    (failed : session.meet request = .error complaint) (rest : List Request) :
    session.met (request :: rest) = session.met rest := by
  unfold met
  rw [answers, answer_of_error failed, List.zip_cons_cons]
  exact List.filter_cons_of_neg Bool.false_ne_true

theorem answers_met (session : Session) (requests : List Request) :
    session.answers ((session.met requests).map Prod.fst) =
      (session.met requests).map Prod.snd := by
  induction requests generalizing session with
  | nil => rfl
  | cons request rest ih =>
    cases outcome : session.meet request with
    | ok result =>
      rw [met_cons_of_ok outcome, List.map_cons, List.map_cons, answers, answer_of_ok outcome, ih]
    | error complaint => rw [met_cons_of_error outcome, ih]

theorem after_met (session : Session) (requests : List Request) :
    session.after ((session.met requests).map Prod.fst) = session.after requests := by
  induction requests generalizing session with
  | nil => rfl
  | cons request rest ih =>
    unfold after at ih ⊢
    cases outcome : session.meet request with
    | ok result =>
      rw [met_cons_of_ok outcome, List.map_cons, List.foldl_cons, List.foldl_cons,
        answer_of_ok outcome, ih]
    | error complaint =>
      rw [met_cons_of_error outcome, List.foldl_cons, answer_of_error outcome, ih]

/-- Requests that are not met have no effect. In place, too, a complaint comes before anything is
written, so that it leaves builder and table as they were. Without the requests that were not met,
a session gives the same answers to all others, and comes to the same end. -/
theorem refused_requests_leave_no_trace (session : Session) (requests : List Request) :
    (∀ request, (InPlace.meet request).run session =
        InPlace.ending session (session.meet request)) ∧
      InPlace.answers session requests = session.answers requests ∧
      session.answers ((session.met requests).map Prod.fst) =
        (session.met requests).map Prod.snd ∧
      session.after ((session.met requests).map Prod.fst) = session.after requests := by
  refine ⟨?_, InPlace.answers_eq session requests, answers_met session requests,
    after_met session requests⟩
  intro request
  exact InPlace.run_meet session request

end Session

end Acceptor.Table
