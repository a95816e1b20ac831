import InvoiceOps.InvoiceNodes
import InvoiceOps.Trace

/-!
# The ADK runner

The graph variant that keeps its progress in a session : a list of events, each appended
durably with the change it makes to the state. `Adk` is one run's session with the call that
holds the run's lock, and an `Action` is one atomic step of it : a call of `run` or `resume`
up to the engine, one append of the engine, the engine's end, or the end of a call by an error
or by a crash, which may fall between any two appends.

`ExceptionTriage` sets the status `awaiting_review` with its own event ; the request that
`_review_request` looks for is in the next one. `run` returns as soon as it sees the status, so
a run that stops between the two can be neither run on nor resumed (`stranded`), and in every
run that never stops there a state that awaits its review has its request
(`awaiting_review_resumable`).
-/

namespace InvoiceOps

/-! ## The workflow -/

/-- The nodes of the ADK workflow ; `HumanReview` is one that asks and one that applies the
answer. -/
inductive AdkNode where
  | ingest | extract | validate | match3Way | policy | gate | autoApprove | exceptionTriage
  | askReview | applyReview | archive | reject
  deriving DecidableEq, Repr

/-- The routes its edges are labelled with. -/
inductive AdkRoute where
  | reject | extract | validate | triage | auto
  deriving DecidableEq, Repr

namespace AdkNode

/-- The edges of `build_adk_invoice_workflow`. -/
def next : AdkNode → Option AdkRoute → Option AdkNode
  | .ingest, some .reject => some .reject
  | .ingest, some .extract => some .extract
  | .extract, some .validate => some .validate
  | .extract, some .triage => some .exceptionTriage
  | .validate, _ => some .match3Way
  | .match3Way, _ => some .policy
  | .policy, _ => some .gate
  | .gate, some .auto => some .autoApprove
  | .gate, some .triage => some .exceptionTriage
  | .autoApprove, _ => some .archive
  | .exceptionTriage, _ => some .askReview
  | .askReview, _ => some .applyReview
  | .applyReview, _ => some .archive
  | _, _ => none

/-- The route a node's event carries. -/
def route : AdkNode → InvoiceGraphState → Option AdkRoute
  | .ingest, s => some (if s.duplicate then .reject else .extract)
  | .extract, s => some (if truthy s.extraction then .validate else .triage)
  | .gate, s => some (if s.route = some .autoApprove then .auto else .triage)
  | _, _ => none

/-- The node of the state contract a workflow node does the work of. -/
def work : AdkNode → Option InvoiceNodeName
  | .ingest => some .ingest
  | .extract => some .extract
  | .validate => some .validate
  | .match3Way => some .match3Way
  | .policy => some .policy
  | .gate => some .gate
  | .autoApprove => some .autoApprove
  | .exceptionTriage => some .exceptionTriage
  | .askReview => none
  | .applyReview => some .humanReview
  | .archive => some .archive
  | .reject => some .reject

end AdkNode

/-! ## Sessions -/

/-- What an event carries for the engine : a call, or the answer to one. -/
inductive AdkPart where
  | functionCall (name : String) (id : Option String)
  | functionResponse (id name : String) (response : ReviewDecision)
  deriving DecidableEq, Repr

/-- Who appended an event. -/
inductive AdkAuthor where
  | user
  | node (n : AdkNode)
  deriving DecidableEq, Repr

/-- An event of a session. -/
structure AdkEvent where
  invocationId : String
  author : AdkAuthor
  content : Option (List AdkPart)
  route : Option AdkRoute
  stateDelta : Option InvoiceGraphState
  deriving DecidableEq, Repr

/-- A session : the state it was created with, and its events. -/
structure AdkSession where
  created : InvoiceGraphState
  events : List AdkEvent
  deriving DecidableEq, Repr

namespace AdkSession

/-- `session.state["invoice_state"]`. -/
def state (s : AdkSession) : InvoiceGraphState :=
  s.events.foldl (fun state e => e.stateDelta.getD state) s.created

/-- `append_event`. -/
def append (s : AdkSession) (e : AdkEvent) : AdkSession :=
  { s with events := s.events ++ [e] }

@[simp] theorem state_append (s : AdkSession) (e : AdkEvent) :
    (s.append e).state = e.stateDelta.getD s.state := by
  simp [state, append]

@[simp] theorem events_append (s : AdkSession) (e : AdkEvent) :
    (s.append e).events = s.events ++ [e] :=
  rfl

end AdkSession

/-- The `adk_request_input` call among the parts of an event. -/
def requestedInput : List AdkPart → Option String
  | [] => none
  | .functionCall name (some id) :: parts =>
    if name = "adk_request_input" ∧ id ≠ "" then some id else requestedInput parts
  | _ :: parts => requestedInput parts

/-- `_review_request` : the last request of the session, with its invocation. -/
def reviewRequest (s : AdkSession) : Option (String × String) :=
  s.events.reverse.findSome? fun e =>
    (e.content.bind requestedInput).map fun id => (id, e.invocationId)

/-- A request is not lost by what comes after it. -/
theorem reviewRequest_append {s : AdkSession} (e : AdkEvent) (h : (reviewRequest s).isSome) :
    (reviewRequest (s.append e)).isSome := by
  rw [reviewRequest, AdkSession.events_append, List.reverse_append, List.reverse_singleton,
    List.singleton_append, List.findSome?_cons]
  split
  · rfl
  · exact h

/-! ## The engine -/

/-- What the engine does next in a session. -/
inductive AdkPending where
  | node (n : AdkNode) (input : Option ReviewDecision)
  /-- The request is not answered. -/
  | waiting
  | ended
  deriving DecidableEq, Repr

/-- The answer a message of the user carries. -/
def responseOf (e : AdkEvent) : Option ReviewDecision :=
  (e.content.getD []).findSome? fun
    | .functionResponse _ _ response => some response
    | .functionCall .. => none

/-- The engine goes on after the last event, along its edge. -/
def pending (s : AdkSession) : AdkPending :=
  match s.events.getLast? with
  | none => .node .ingest none
  | some e =>
    match e.author with
    | .user => .node .applyReview (responseOf e)
    | .node .askReview => .waiting
    | .node n =>
      match n.next e.route with
      | some m => .node m none
      | none => .ended

/-- The event of `_step` : the node's update is kept if the state it makes is valid. -/
def stepEvent (invocationId : String) (n : AdkNode) (s : InvoiceGraphState)
    (result : NodeResult) : Option AdkEvent :=
  let after := InvoiceNodes.update s result
  if after.validProgress then
    some { invocationId, author := .node n, content := none, route := n.route after,
           stateDelta := some after }
  else none

/-- The event of `ask_review`. The engine gives the request a new identifier. -/
def askEvent (invocationId callId : String) : AdkEvent where
  invocationId := invocationId
  author := .node .askReview
  content := some [.functionCall "adk_request_input" (some callId)]
  route := none
  stateDelta := none

/-- The event of the answer to a request. -/
def answerEvent (request : String × String) (decision : ReviewDecision) : AdkEvent where
  invocationId := request.2
  author := .user
  content := some [.functionResponse request.1 "adk_request_input" decision]
  route := none
  stateDelta := none

/-! ## Calls -/

/-- The two calls of the runner. -/
inductive CallKind where
  | run | resume
  deriving DecidableEq, Repr

/-- The call that holds the run's lock, inside `_invoke`. -/
structure AdkCall where
  kind : CallKind
  invocationId : String
  message : Option AdkEvent
  deriving DecidableEq, Repr

/-- The session service, and the call that holds the lock of the run. -/
structure Adk where
  session : Option AdkSession
  call : Option AdkCall
  deriving DecidableEq, Repr

namespace Adk

/-- Nothing has been called. -/
def start : Adk := ⟨none, none⟩

/-- What can happen to a run, in any order. -/
inductive Action where
  | run (loaded : Loaded) (newInvocation : String)
  | resume (invoiceId : Uuid) (traceId : String) (decision : ReviewDecision)
  /-- The engine appends the message of the call. -/
  | deliver
  /-- The engine runs the pending node and appends its event. -/
  | step (result : NodeResult)
  /-- The engine appends the request of `ask_review`. -/
  | ask (callId : String) (nonempty : callId ≠ "")
  /-- The engine has nothing to do, and the call returns. -/
  | finish
  /-- The call ends with an error : of a node, of the engine, or of its time limit. -/
  | fail (error : Exn)
  | crash

/-- What a call returns. -/
inductive Returned where
  | ran (result : Except Exn InvoiceGraphState)
  | resumed (result : Except Exn InvoiceGraphState)

/-- The answer of a call of that kind. -/
def Returned.of : CallKind → Except Exn InvoiceGraphState → Returned
  | .run => .ran
  | .resume => .resumed

/-- The `except` clauses of `run` and `resume`. -/
def reported (kind : CallKind) (error : Exn) : Exn :=
  if error.isInstance .graphError then error
  else if error.isInstance .timeoutError then
    .chained .graphTimeout
      (match kind with
        | .run => "ADK invoice workflow timed out"
        | .resume => "ADK invoice review timed out") error
  else
    .chained .graphExecutionError
      (match kind with
        | .run => "ADK invoice workflow failed"
        | .resume => "ADK invoice review failed") error

/-- The session is of another run. -/
def identityMismatch : Exn := .new .runConflict "ADK session identity does not match"
/-- Nobody was asked. -/
def reviewAbsent : Exn := .new .invalidCheckpoint "ADK review request is absent"

/-- `_identity`. -/
def sameIdentity (state : InvoiceGraphState) (runId invoiceId : Uuid) (traceId : String) : Bool :=
  state.runId = runId && state.invoiceId = invoiceId && state.traceId = traceId

/-- `run` from the session it found or created, up to `_invoke`. -/
def runSession (session : AdkSession) (runId : Uuid) (loaded : Loaded) (newInvocation : String) :
    Adk × Option Returned :=
  if !sameIdentity session.state runId loaded.invoiceId loaded.traceId then
    (⟨some session, none⟩, some (.ran (.error identityMismatch)))
  else if session.state.status ∈ [.completed, .rejected, .awaitingReview] then
    (⟨some session, none⟩, some (.ran (.ok session.state)))
  else
    let invocationId := (session.events.getLast?.map (·.invocationId)).getD newInvocation
    (⟨some session, some ⟨.run, invocationId, none⟩⟩, none)

/-- `run` up to `_invoke`. -/
def beginRun (s : Adk) (runId : Uuid) (loaded : Loaded) (newInvocation : String) :
    Adk × Option Returned :=
  if s.call.isSome then
    (s, some (.ran (.error (.new .runInProgress "Run is already executing"))))
  else
    runSession (s.session.getD ⟨.initial runId loaded, []⟩) runId loaded newInvocation

/-- `resume` of a session, up to `_invoke`. -/
def resumeSession (session : AdkSession) (runId invoiceId : Uuid) (traceId : String)
    (decision : ReviewDecision) : Except Exn (AdkCall ⊕ InvoiceGraphState) :=
  if !sameIdentity session.state runId invoiceId traceId then .error identityMismatch
  else if session.state.status = .completed ∧ session.state.review = some decision.toJson then
    .ok (.inr session.state)
  else if session.state.status = .awaitingReview then
    match reviewRequest session with
    | some request => .ok (.inl ⟨.resume, request.2, some (answerEvent request decision)⟩)
    | none => .error reviewAbsent
  else if session.state.status = .running ∧ session.state.review = some decision.toJson then
    match session.events.getLast? with
    | some e => .ok (.inl ⟨.resume, e.invocationId, none⟩)
    | none => .error (.new (.other "IndexError") "list index out of range")
  else
    .error (.new .invalidCheckpoint "ADK invoice workflow is not waiting for this human decision")

/-- `resume` up to `_invoke`. -/
def beginResume (s : Adk) (runId invoiceId : Uuid) (traceId : String)
    (decision : ReviewDecision) : Adk × Option Returned :=
  if s.call.isSome then
    (s, some (.resumed (.error (.new .runInProgress "Run is already executing"))))
  else
    match s.session with
    | none =>
      (s, some (.resumed (.error (.new .invalidCheckpoint "ADK invoice workflow has no session"))))
    | some session =>
      match resumeSession session runId invoiceId traceId decision with
      | .ok (.inl call) => (⟨some session, some call⟩, none)
      | .ok (.inr state) => (s, some (.resumed (.ok state)))
      | .error error => (s, some (.resumed (.error (reported .resume error))))

/-- What a call returns after `_invoke`. -/
def result (kind : CallKind) (state : InvoiceGraphState) : Except Exn InvoiceGraphState :=
  match kind with
  | .run => .ok state
  | .resume =>
    if state.status = .completed then .ok state
    else .error (.new .invalidCheckpoint "ADK human review did not complete")

/-- A result is one of the pending node ; a review is of the answer it was given. -/
def fits (n : AdkNode) (input : Option ReviewDecision) (result : NodeResult) : Bool :=
  n.work = some result.node && (result.decision = none || result.decision = input)

/-- The event the engine appends for an action. -/
def engineEvent (call : AdkCall) (session : AdkSession) : Action → Option AdkEvent
  | .deliver => call.message
  | .step result =>
    match call.message, pending session with
    | none, .node n input =>
      if fits n input result then stepEvent call.invocationId n session.state result else none
    | _, _ => none
  | .ask callId _ =>
    if call.message = none ∧ pending session = .node .askReview none then
      some (askEvent call.invocationId callId)
    else none
  | _ => none

/-- The engine has nothing to do for a call. -/
def isOver (call : AdkCall) (session : AdkSession) : Bool :=
  call.message.isNone &&
    match pending session with
    | .node .. => false
    | .waiting | .ended => true

/-- A call ends. -/
def endCall (s : Adk) : Adk :=
  { s with call := none }

/-- What an action does, and what it returns to its caller, if it does. -/
def perform (runId : Uuid) (s : Adk) (action : Action) : Adk × Option Returned :=
  match action, s.call, s.session with
  | .run loaded newInvocation, _, _ => s.beginRun runId loaded newInvocation
  | .resume invoiceId traceId decision, _, _ => s.beginResume runId invoiceId traceId decision
  | .finish, some call, some session =>
    if isOver call session then
      (s.endCall, some (.of call.kind (result call.kind session.state)))
    else (s, none)
  | .fail error, some call, _ =>
    (s.endCall, some (.of call.kind (.error (reported call.kind error))))
  | .crash, _, _ => (s.endCall, none)
  | action, some call, some session =>
    match engineEvent call session action with
    | some e =>
      (⟨some (session.append e), some { call with message := none }⟩, none)
    | none => (s, none)
  | _, _, _ => (s, none)

/-- The runner after an action. -/
def step (runId : Uuid) (s : Adk) (action : Action) : Adk :=
  (s.perform runId action).1

/-- What an action returns. -/
def returned (runId : Uuid) (s : Adk) (action : Action) : Option Returned :=
  (s.perform runId action).2

/-! ## The request of a review -/

/-- The session ends with the event of `ExceptionTriage` : the request is not appended yet. -/
def AtRequest (session : AdkSession) : Prop :=
  pending session = .node .askReview none

/-- After a node's event the engine goes on along its edge. -/
theorem pending_append (session : AdkSession) {e : AdkEvent} {n m : AdkNode}
    (ha : e.author = .node n) (hn : n ≠ .askReview) (hm : n.next e.route = some m) :
    pending (session.append e) = .node m none := by
  simp only [pending, AdkSession.events_append, List.getLast?_concat, ha]
  cases n <;> first | exact absurd rfl hn | simp [hm]

/-- Only the pending node is run, and its event is kept if the state it makes is valid. -/
theorem engineEvent_step {call : AdkCall} {session : AdkSession} {r : NodeResult} {e : AdkEvent}
    (h : engineEvent call session (.step r) = some e) :
    ∃ n input, call.message = none ∧ pending session = .node n input ∧
      n.work = some r.node ∧ e.author = .node n ∧
      e.stateDelta = some (InvoiceNodes.update session.state r) := by
  simp only [engineEvent] at h
  split at h
  next n input hmsg hp =>
    split_ifs at h with hf
    simp only [stepEvent] at h
    split_ifs at h
    obtain rfl := Option.some.inj h
    rw [fits, Bool.and_eq_true, decide_eq_true_eq] at hf
    exact ⟨n, input, hmsg, hp, hf.1, rfl, rfl⟩
  next => exact nomatch h

/-- A request is appended only where `ask_review` is pending. -/
theorem engineEvent_ask {call : AdkCall} {session : AdkSession} {callId : String}
    {hid : callId ≠ ""} {e : AdkEvent} (h : engineEvent call session (.ask callId hid) = some e) :
    e = askEvent call.invocationId callId ∧ AtRequest session := by
  simp only [engineEvent] at h
  split_ifs at h with hc
  exact ⟨(Option.some.inj h).symm, hc.2⟩

/-- Then there is a request. -/
theorem reviewRequest_ask (session : AdkSession) (invocationId : String) {callId : String}
    (hid : callId ≠ "") :
    (reviewRequest (session.append (askEvent invocationId callId))).isSome := by
  simp [reviewRequest, askEvent, requestedInput, hid]

/-- A state that awaits its review has its request, unless a call is on its way to append it. -/
structure Inv (s : Adk) : Prop where
  requested : ∀ session, s.session = some session → session.state.status = .awaitingReview →
    (reviewRequest session).isSome ∨ s.call.isSome ∧ AtRequest session
  answered : ∀ session call, s.session = some session → s.call = some call →
    call.message.isSome → (reviewRequest session).isSome

/-- Nothing waits for a review before a session is created. -/
theorem Inv.start : Inv Adk.start where
  requested _ hs := absurd hs (Option.some_ne_none _).symm
  answered _ _ hs := absurd hs (Option.some_ne_none _).symm

/-- No call holds the lock, so the request is there. -/
theorem Inv.requested_idle {s : Adk} (h : Inv s) (hc : s.call = none) {session : AdkSession}
    (hs : s.session = some session) (hw : session.state.status = .awaitingReview) :
    (reviewRequest session).isSome := by
  obtain hr | ⟨hcall, -⟩ := h.requested session hs hw
  · exact hr
  · rw [hc] at hcall
    exact absurd hcall Bool.false_ne_true

/-- An append of the engine. -/
theorem Inv.engine {s : Adk} (h : Inv s) {call : AdkCall} {session : AdkSession} {a : Action}
    {e : AdkEvent} (hcall : s.call = some call) (hs : s.session = some session)
    (he : engineEvent call session a = some e) :
    Inv ⟨some (session.append e), some { call with message := none }⟩ := by
  refine ⟨?_, fun _ _ _ hc hm => by obtain rfl := Option.some.inj hc; exact nomatch hm⟩
  rintro _ rfl' hw
  obtain rfl := Option.some.inj rfl'
  cases a with
  | deliver =>
    have hm : call.message = some e := he
    exact .inl (reviewRequest_append e (h.answered _ _ hs hcall (by rw [hm]; rfl)))
  | step r =>
    obtain ⟨n, input, -, hp, hwork, hauthor, hdelta⟩ := engineEvent_step he
    rw [AdkSession.state_append, hdelta, Option.getD_some] at hw
    obtain htriage | hold := InvoiceNodes.awaitingReview_of_update hw
    · have hn : n = .exceptionTriage := by
        rw [htriage] at hwork
        cases n <;> first | rfl | exact absurd hwork (by decide)
      subst hn
      exact .inr ⟨rfl, pending_append session hauthor (by decide) rfl⟩
    · obtain hr | ⟨-, hat⟩ := h.requested session hs hold
      · exact .inl (reviewRequest_append e hr)
      · rw [AtRequest, hp] at hat
        obtain ⟨rfl, -⟩ := AdkPending.node.inj hat
        exact absurd hwork (Option.some_ne_none _).symm
  | ask callId hid =>
    obtain ⟨rfl, -⟩ := engineEvent_ask he
    exact .inl (reviewRequest_ask session call.invocationId hid)
  | _ => exact nomatch he

/-- A call ends anywhere but between the two appends. -/
theorem Inv.endCall {s : Adk} (h : Inv s)
    (hat : s.call.isSome → ∀ session, s.session = some session → ¬ AtRequest session) :
    Inv s.endCall where
  requested session hs hw := by
    obtain hr | ⟨hc, hreq⟩ := h.requested session hs hw
    · exact .inl hr
    · exact absurd hreq (hat hc session hs)
  answered _ _ _ hc := absurd hc (Option.some_ne_none _).symm

/-- A call begins with a message only after it found the request. -/
theorem Inv.begin {s : Adk} (h : Inv s) (hc : s.call = none) {session : AdkSession}
    (hs : s.session = some session) {call : AdkCall}
    (hm : call.message.isSome → (reviewRequest session).isSome) :
    Inv ⟨some session, some call⟩ where
  requested session' hs' hw := by
    obtain rfl := Option.some.inj hs'
    exact .inl (h.requested_idle hc hs hw)
  answered session' call' hs' hc' hm' := by
    obtain rfl := Option.some.inj hs'
    obtain rfl := Option.some.inj hc'
    exact hm hm'

/-- `run` creates the session it does not find. -/
theorem Inv.create {s : Adk} (h : Inv s) (hc : s.call = none) (runId : Uuid) (loaded : Loaded) :
    Inv ⟨some (s.session.getD ⟨.initial runId loaded, []⟩), none⟩ := by
  obtain ⟨_ | session, call⟩ := s
  · refine ⟨fun session hs hw => ?_, fun _ _ _ hc => absurd hc (Option.some_ne_none _).symm⟩
    obtain rfl := Option.some.inj hs
    exact GraphStatus.noConfusion hw
  · obtain rfl : call = none := hc
    exact h

/-- A run in a session that is there keeps the invariant. -/
theorem Inv.runSession {session : AdkSession} (h : Inv ⟨some session, none⟩) (runId : Uuid)
    (loaded : Loaded) (newInvocation : String) :
    Inv (Adk.runSession session runId loaded newInvocation).1 := by
  unfold Adk.runSession
  split_ifs
  · exact h
  · exact h
  · exact h.begin rfl rfl fun hm => absurd hm Bool.false_ne_true

/-- So does one that creates it. -/
theorem Inv.beginRun {s : Adk} (h : Inv s) (runId : Uuid) (loaded : Loaded)
    (newInvocation : String) : Inv (s.beginRun runId loaded newInvocation).1 := by
  unfold Adk.beginRun
  split_ifs with hcall
  · exact h
  · exact (h.create (Option.not_isSome_iff_eq_none.1 hcall) runId loaded).runSession ..

/-- A message is the answer to the request that was found. -/
theorem resumeSession_message {session : AdkSession} {runId invoiceId : Uuid} {traceId : String}
    {decision : ReviewDecision} {call : AdkCall}
    (h : resumeSession session runId invoiceId traceId decision = .ok (.inl call))
    (hm : call.message.isSome) : (reviewRequest session).isSome := by
  simp only [resumeSession] at h
  split_ifs at h
  · exact absurd (Except.ok.inj h) Sum.inr_ne_inl
  · cases hr : reviewRequest session with
    | some request => rfl
    | none => rw [hr] at h; exact nomatch h
  · split at h
    · obtain rfl := Sum.inl.inj (Except.ok.inj h)
      exact absurd hm Bool.false_ne_true
    · exact nomatch h

/-- So does an answer. -/
theorem Inv.beginResume {s : Adk} (h : Inv s) (runId invoiceId : Uuid) (traceId : String)
    (decision : ReviewDecision) : Inv (s.beginResume runId invoiceId traceId decision).1 := by
  unfold Adk.beginResume
  split_ifs with hcall
  · exact h
  split
  · exact h
  next session hs =>
    split
    next call hcall' =>
      exact h.begin (Option.not_isSome_iff_eq_none.1 hcall) hs (resumeSession_message hcall')
    · exact h
    · exact h

theorem not_atRequest_of_isOver {call : AdkCall} {session : AdkSession}
    (h : isOver call session = true) : ¬ AtRequest session := by
  intro hat
  rw [isOver, hat, Bool.and_false] at h
  exact Bool.false_ne_true h

/-- The condition on a step : no call ends between the two appends. -/
def Uninterrupted (s : Adk) : Action → Prop
  | .fail _ | .crash => s.call.isSome → ∀ session, s.session = some session → ¬ AtRequest session
  | _ => True

/-- Every action keeps the invariant, if no run is interrupted at its triage. -/
theorem Inv.step {runId : Uuid} {s : Adk} (h : Inv s) {a : Action} (ha : Uninterrupted s a) :
    Inv (s.step runId a) := by
  obtain ⟨session, call⟩ := s
  cases a with
  | run loaded newInvocation => exact h.beginRun ..
  | resume invoiceId traceId decision => exact h.beginResume ..
  | crash => exact h.endCall ha
  | fail error =>
    cases call with
    | none => exact h
    | some call => exact h.endCall ha
  | finish =>
    obtain _ | call := call
    · exact h
    obtain _ | session := session
    · exact h
    simp only [Adk.step, perform]
    split_ifs with hover
    · refine h.endCall fun _ session' hs' hat => ?_
      obtain rfl := Option.some.inj hs'
      exact not_atRequest_of_isOver hover hat
    · exact h
  | deliver | step | ask =>
    obtain _ | call := call
    · exact h
    obtain _ | session := session
    · exact h
    simp only [Adk.step, perform]
    split
    next e he => exact h.engine rfl rfl he
    · exact h

/-- A state that `run` returns is the session's, and its call is over. -/
theorem returned_ran {runId : Uuid} {s : Adk} {a : Action} {state : InvoiceGraphState}
    (h : s.returned runId a = some (.ran (.ok state))) :
    ∃ session, (s.step runId a).session = some session ∧ session.state = state ∧
      (s.step runId a).call = none := by
  obtain ⟨session, call⟩ := s
  cases a with
  | run loaded newInvocation =>
    simp only [returned, Adk.step, perform, Adk.beginRun] at h ⊢
    split_ifs at h ⊢
    · exact nomatch h
    simp only [Adk.runSession] at h ⊢
    split_ifs at h ⊢
    · exact nomatch h
    · exact ⟨_, rfl, Except.ok.inj (Returned.ran.inj (Option.some.inj h)), rfl⟩
  | resume invoiceId traceId decision =>
    simp only [returned, perform, Adk.beginResume] at h
    split_ifs at h
    · exact nomatch h
    · cases session with
      | none => exact nomatch h
      | some session =>
        simp only at h
        split at h <;> exact nomatch h
  | finish =>
    obtain _ | ⟨kind, invocationId, message⟩ := call
    · exact nomatch h
    obtain _ | session := session
    · exact nomatch h
    simp only [returned, Adk.step, perform] at h ⊢
    split_ifs at h ⊢
    · cases kind with
      | run => exact ⟨_, rfl, Except.ok.inj (Returned.ran.inj (Option.some.inj h)), rfl⟩
      | resume => exact nomatch h
  | fail error =>
    obtain _ | ⟨_ | _, invocationId, message⟩ := call <;> exact nomatch h
  | crash => exact nomatch h
  | deliver | step | ask =>
    obtain _ | call := call
    · exact nomatch h
    obtain _ | session := session
    · exact nomatch h
    simp only [returned, perform] at h
    split at h <;> exact nomatch h

/-- `resume` reports an absent request only of a session that awaits its review without one. -/
theorem resumeSession_absent {session : AdkSession} {runId invoiceId : Uuid} {traceId : String}
    {decision : ReviewDecision} {error : Exn}
    (h : resumeSession session runId invoiceId traceId decision = .error error)
    (he : reported .resume error = reviewAbsent) :
    session.state.status = .awaitingReview ∧ reviewRequest session = none := by
  simp only [resumeSession] at h
  split_ifs at h with hid hdone hwait hrun
  · obtain rfl := Except.error.inj h
    exact absurd he (by decide)
  · cases hr : reviewRequest session with
    | some request => rw [hr] at h; exact nomatch h
    | none => exact ⟨hwait, rfl⟩
  · split at h
    · exact nomatch h
    · obtain rfl := Except.error.inj h
      exact absurd he (by decide)
  · obtain rfl := Except.error.inj h
    exact absurd he (by decide)

/-- Under the invariant no answer is refused for want of a request. -/
theorem Inv.resume_requested {runId : Uuid} {s : Adk} (h : Inv s) (invoiceId : Uuid)
    (traceId : String) (decision : ReviewDecision) :
    s.returned runId (.resume invoiceId traceId decision) ≠
      some (.resumed (.error reviewAbsent)) := by
  intro habs
  simp only [returned, perform, Adk.beginResume] at habs
  split_ifs at habs with hcall
  · exact absurd (Except.error.inj (Returned.resumed.inj (Option.some.inj habs))) (by decide)
  split at habs
  · exact absurd (Except.error.inj (Returned.resumed.inj (Option.some.inj habs))) (by decide)
  next session hs =>
    split at habs
    · exact nomatch habs
    · exact nomatch habs
    next error he =>
      obtain ⟨hw, hr⟩ := resumeSession_absent he
        (Except.error.inj (Returned.resumed.inj (Option.some.inj habs)))
      have hsome := h.requested_idle (Option.not_isSome_iff_eq_none.1 hcall) hs hw
      rw [hr] at hsome
      exact Bool.false_ne_true hsome

end Adk

/-- In a run whose calls never end between the event of `ExceptionTriage` and the request after
it, a state that `run` returns as awaiting its review has its request in the session, and no
`resume` is refused for want of it. -/
theorem awaiting_review_resumable (runId : Uuid) {as bs : List Adk.Action} {a : Adk.Action}
    (h : Trace.Meets (Adk.step runId) Adk.Uninterrupted Adk.start (as ++ a :: bs)) :
    (∀ state, (Trace.run (Adk.step runId) Adk.start as).returned runId a =
        some (.ran (.ok state)) → state.status = .awaitingReview →
      ∃ session, (Trace.run (Adk.step runId) Adk.start (as ++ [a])).session = some session ∧
        session.state = state ∧ (reviewRequest session).isSome) ∧
    ∀ invoiceId traceId decision,
      (Trace.run (Adk.step runId) Adk.start as).returned runId
        (.resume invoiceId traceId decision) ≠ some (.resumed (.error Adk.reviewAbsent)) := by
  have hstep : ∀ s a, Adk.Inv s → Adk.Uninterrupted s a → Adk.Inv (s.step runId a) :=
    fun _ _ hs ha => hs.step ha
  obtain ⟨hinv, ha⟩ := Trace.Meets.at_step hstep Adk.Inv.start h
  refine ⟨fun state hret hw => ?_, fun _ _ _ => hinv.resume_requested _ _ _⟩
  obtain ⟨session, hs, hstate, hcall⟩ := Adk.returned_ran hret
  rw [Trace.run_append]
  exact ⟨session, hs, hstate, (hinv.step ha).requested_idle hcall hs (by rw [hstate, hw])⟩

/-! ## A run that stops between the two appends -/

namespace Adk

/-- The session awaits its review, has no request, and no call is on its way to append it. -/
structure Stranded (s : Adk) (session : AdkSession) : Prop where
  idle : s.call = none
  kept : s.session = some session
  awaiting : session.state.status = .awaitingReview
  absent : reviewRequest session = none

/-- A run of a session that awaits its review does nothing. -/
theorem runSession_awaiting {session : AdkSession} (hw : session.state.status = .awaitingReview)
    (runId : Uuid) (loaded : Loaded) (newInvocation : String) :
    (runSession session runId loaded newInvocation).1 = ⟨some session, none⟩ := by
  have hst : session.state.status ∈ [GraphStatus.completed, .rejected, .awaitingReview] := by
    rw [hw]
    decide
  rw [runSession, if_pos hst]
  split_ifs <;> rfl

/-- Without a request the answer is refused, and nothing changes. -/
theorem resumeSession_stranded {session : AdkSession}
    (hw : session.state.status = .awaitingReview) (hr : reviewRequest session = none)
    (runId invoiceId : Uuid) (traceId : String) (decision : ReviewDecision) :
    resumeSession session runId invoiceId traceId decision = .error identityMismatch ∨
      resumeSession session runId invoiceId traceId decision = .error reviewAbsent := by
  simp only [resumeSession, hw, hr]
  split_ifs with hid hdone
  · exact .inl rfl
  · exact hdone.1.elim
  · exact .inr rfl

/-- Nothing moves such a run : `run` returns its state and `resume` refuses. -/
theorem Stranded.step {runId : Uuid} {s : Adk} {session : AdkSession} (h : Stranded s session)
    (a : Action) : s.step runId a = s := by
  obtain ⟨_, _⟩ := s
  obtain ⟨rfl, rfl, haw, habs⟩ := h
  cases a with
  | run loaded newInvocation => exact runSession_awaiting haw runId loaded newInvocation
  | resume invoiceId traceId decision =>
    obtain he | he := resumeSession_stranded haw habs runId invoiceId traceId decision <;>
      simp [Adk.step, perform, Adk.beginResume, he]
  | _ => rfl

/-- So a session that is stranded stays so, whatever is done. -/
theorem stranded_forever {runId : Uuid} {s : Adk} {session : AdkSession} (h : Stranded s session)
    (as : List Action) : Trace.run (Adk.step runId) s as = s := by
  induction as with
  | nil => rfl
  | cons a as ih =>
    rw [Trace.run, h.step]
    exact ih

/-! ## A sample run -/

/-- An invoice as it was loaded. -/
def sampleLoaded : Loaded :=
  ⟨2, "0123456789abcdef0123456789abcdef", 20000, "raw/2", "00", "application/pdf", false⟩

/-- A person sends it back. -/
def sampleDecision : ReviewDecision :=
  ⟨.return, "reviewer", "Synthetic mismatch", "REVIEW"⟩

/-- The process ends after the first event ; the next call goes on, the extraction fails, and
the run is at its triage. -/
def toTriage : List Action :=
  [.run sampleLoaded "e1", .step .ingest, .crash, .run sampleLoaded "e2",
    .step (.extract (.obj []) none), .step (.exceptionTriage (.obj []))]

/-- The request is appended. -/
def reviewed : List Action :=
  toTriage ++ [Action.ask "c1" (by decide)]

/-- The process ends before the request is appended. -/
def interrupted : List Action :=
  toTriage ++ [Action.crash]

end Adk

set_option maxRecDepth 8000 in
theorem awaiting_review_resumable_reviewed :
    ∃ session,
      (Trace.run (Adk.step 1) Adk.start (Adk.reviewed ++ [Adk.Action.finish])).session =
          some session ∧
        session.state.status = .awaitingReview ∧ (reviewRequest session).isSome := by
  have hmeets : Trace.Meets (Adk.step 1) Adk.Uninterrupted Adk.start
      (Adk.reviewed ++ Adk.Action.finish :: []) := by
    refine ⟨trivial, trivial, fun _ session hs hat => ?_, trivial, trivial, trivial, trivial,
      trivial, trivial⟩
    obtain rfl := Option.some.inj hs
    have hextract : AdkPending.node .extract none = .node .askReview none := hat
    exact absurd hextract (by decide)
  obtain ⟨session, hs, hstate, hr⟩ := (awaiting_review_resumable 1 hmeets).1 _ rfl rfl
  exact ⟨session, hs, by rw [hstate]; rfl, hr⟩

set_option maxRecDepth 8000 in
/-- A run that stops after the event of `ExceptionTriage` is returned as awaiting its review,
and its review is refused. -/
theorem review_request_lost :
    (∃ state, (Trace.run (Adk.step 1) Adk.start Adk.interrupted).returned 1
        (.run Adk.sampleLoaded "e3") = some (.ran (.ok state)) ∧
      state.status = .awaitingReview) ∧
    (Trace.run (Adk.step 1) Adk.start
        (Adk.interrupted ++ [Adk.Action.run Adk.sampleLoaded "e3"])).returned 1
        (.resume 2 "0123456789abcdef0123456789abcdef" Adk.sampleDecision) =
      some (.resumed (.error Adk.reviewAbsent)) :=
  ⟨⟨_, rfl, rfl⟩, rfl⟩

end InvoiceOps
