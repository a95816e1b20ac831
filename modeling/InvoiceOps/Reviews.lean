import InvoiceOps.Decisions
import InvoiceOps.Policy

/-!
# Reviews

What surrounds the decisions on an exception : `LiveServices.queueException` opens it,
`WorkflowTransitions.appendOnce` records what a node of the graph has done, and
`DecisionResumeWorker.process` resumes the paused graph with a signed decision and, when the review
and the archive are in the ledger, settles the exception and the run.

`desk` is any number of these calls and of submissions at once, over any database that keeps
`ReviewInv`. Whatever the order of their statements, every exception is in a state of `Reviewed`,
so that none leaves review without a proposal and an independent signature over it (`four_eyes`).
-/

set_option linter.unusedSectionVars false

open Shared ReadCommitted

namespace InvoiceOps

/-! ## The queue -/

/-- `QueueConfig`, within its bounds. -/
structure QueueConfig where
  version : ConfigVersion
  criticalSlaHours : ℕ
  highSlaHours : ℕ
  normalSlaHours : ℕ
  critical_pos : 1 ≤ criticalSlaHours
  normal_le : normalSlaHours ≤ 720
  critical_lt_high : criticalSlaHours < highSlaHours
  high_lt_normal : highSlaHours < normalSlaHours
  critical_le : criticalSlaHours ≤ 168

/-- What an exception is queued with. -/
structure QueueProjection where
  exceptionType : String
  priority : ℕ
  slaDueAt : Instant
  evidence : Json
  recommendation : Json
  deriving DecidableEq, Repr

/-- `_CRITICAL_CODES`. -/
def isCritical (code : ExceptionCode) : Bool :=
  code = .bankChange || code = .dupNear

/-- The time of `hours` hours. -/
def hourTime (hours : ℕ) : Instant :=
  hours * 3600 * 1000000

/-- `project_exception`, with the digest of the gate's outcome. -/
def projectException (host : Host) (now : Instant) (taxonomy : Option TaxonomyResult)
    (policy : Option PolicyResult) (gateSha256 : Option Sha256) (extractionEscalated : Bool)
    (recommendation : Json) (rules : QueueConfig) : QueueProjection :=
  let codes := (taxonomy.map fun t => t.val.codes).getD []
  let priority : ℕ :=
    if policy.any (fun p => p.val.status = .block) || codes.any isCritical then 3
    else if codes ≠ [] ∨ extractionEscalated ∨ policy.any (fun p => p.val.status = .review) then 2
    else 1
  let hours : ℕ :=
    if priority = 3 then rules.criticalSlaHours
    else if priority = 2 then rules.highSlaHours
    else rules.normalSlaHours
  { exceptionType := match codes with
      | code :: _ => code.text
      | [] => if extractionEscalated then "EXTRACTION_ESCALATION" else "LOW_CONFIDENCE"
    priority
    slaDueAt := now + hourTime hours
    evidence := .obj [
      ("taxonomy_sha256",
        .ofOption (taxonomy.map fun t => (host.modelDigest TaxonomyResult.codec t).val)),
      ("policy_sha256", .ofOption
        (policy.map fun p => (host.modelDigest (PolicyResult.codec host) p).val)),
      ("gate_sha256", .ofOption (gateSha256.map Subtype.val)),
      ("extraction_escalated", .bool extractionEscalated)]
    recommendation }

/-! ## Transitions of a run -/

/-- The type of the event of an archived run. -/
def workflowArchived : Version := ⟨"workflow.archived", by decide⟩

/-- The type of the event of a prepared review. -/
def triagePrepared : Version := ⟨"triage.prepared", by decide⟩

/-- One call of `append_once`. -/
structure Transition where
  runId : Uuid
  invoiceId : Uuid
  traceId : String
  eventType : Version
  node : Version
  actorType : ActorType
  actorId : Version
  payload : Json
  invoiceStatus : Option InvoiceStatus
  versions : VersionOverrides
  deriving DecidableEq, Repr

/-- The event of a transition. -/
def Transition.command (t : Transition) : AppendEvent where
  runId := t.runId
  invoiceId := t.invoiceId
  eventType := t.eventType
  actorType := t.actorType
  actorId := t.actorId
  payload := t.payload
  node := some t.node
  versions := some t.versions

/-- An event of the type in the invoice's run. -/
def Db.committed? (d : Db) (runId invoiceId : Uuid) (type : Version) : Option LedgerEvent :=
  (d.eventsOf runId).find? fun e => e.invoiceId = invoiceId ∧ e.eventType = type

/-- `UPDATE public.invoices SET status = %s WHERE id = %s RETURNING id`. -/
def setInvoiceStatus (invoiceId : Uuid) (status : InvoiceStatus) :
    Sql Db Write Lock (Option InvoiceRow) :=
  .update (fun d => d.invoice? invoiceId) (fun row => [.invoiceRow row.id])
    fun row => .setInvoice { row with status }

section

variable {ι A : Type} [DecidableEq ι]

/-- The end of `append_once`. -/
def LedgerWriter.appendTransition (w : LedgerWriter) (t : Transition) : Client ι A Unit := do
  let _ ← w.append t.command t.traceId
  return ()

/-- `append_once`. -/
def WorkflowTransitions.appendOnce (w : LedgerWriter) (t : Transition) : Client ι A Unit :=
  transaction schema do
    let committed ← sql schema (.read fun d => d.committed? t.runId t.invoiceId t.eventType)
    match committed with
    | some e =>
      if e.payload = t.payload then return ()
      else throw (.new .replayEvidenceError
        "Committed transition differs from requested transition")
    | none =>
      match t.invoiceStatus with
      | none => w.appendTransition t
      | some status => do
        let updated ← sql schema (setInvoiceStatus t.invoiceId status)
        match updated with
        | none => throw (.new .replayEvidenceError "Invoice to transition is missing")
        | some _ => w.appendTransition t

end

/-! ## The services of a run -/

/-- The run a graph works on : what its state says of it, and the pins of its ledger. -/
structure RunContext where
  runId : Uuid
  invoiceId : Uuid
  traceId : String
  graph : Version
  deriving DecidableEq, Repr

/-- The version of the policy that transitions are made under. -/
def workflowVersion : Version := ⟨"invoice-workflow@v1", by decide⟩

/-- The versions of a transition. -/
def notApplicableVersions : VersionOverrides where
  modelVersion := some notApplicable
  promptVersion := some notApplicable
  policyVersion := some workflowVersion

/-- The identifier and the time an append takes. -/
structure Stamp where
  newId : Uuid
  clock : Instant
  deriving DecidableEq, Repr

/-- The writer of a run's transitions. -/
def RunContext.writer (run : RunContext) (stamp : Stamp) : LedgerWriter :=
  ⟨⟨run.graph, notApplicable, notApplicable, notApplicable⟩, stamp.newId, stamp.clock⟩

/-- The node of a review. -/
def humanReview : Version := ⟨"HumanReview", by decide⟩

/-- The node that archives. -/
def archiveNode : Version := ⟨"Archive", by decide⟩

/-- The node that prepares a review. -/
def triageNode : Version := ⟨"ExceptionTriage", by decide⟩

/-- The actor of what no person does. -/
def workflowActor : Version := ⟨"invoiceops-workflow", by decide⟩

/-- The status a review leaves the invoice in. -/
def ReviewAction.invoiceStatus : ReviewAction → InvoiceStatus
  | .approve => .approved
  | .return => .returned
  | .escalate => .needsReview

namespace LiveServices

variable {ι A : Type} [DecidableEq ι] (run : RunContext)

/-- The transition of `review`. -/
def reviewTransition (decision : ReviewDecision) (actor : Version) : Transition where
  runId := run.runId
  invoiceId := run.invoiceId
  traceId := run.traceId
  eventType := reviewRecorded
  node := humanReview
  actorType := .human
  actorId := actor
  payload := decision.toJson
  invoiceStatus := some decision.action.invoiceStatus
  versions := notApplicableVersions

/-- `review`. -/
def review (stamp : Stamp) (decision : ReviewDecision) : Client ι A Unit :=
  match Version.ofString? decision.actorId with
  | none => throw (.new .validationError "AppendEvent")
  | some actor => WorkflowTransitions.appendOnce (run.writer stamp)
    (reviewTransition run decision actor)

/-- The value of a route. -/
def routeText : InvoiceRoute → String
  | .autoApprove => "AUTO_APPROVE"
  | .review => "REVIEW"
  | .reject => "REJECT"

/-- The transition of `archive`. -/
def archiveTransition (route : Option InvoiceRoute) : Transition where
  runId := run.runId
  invoiceId := run.invoiceId
  traceId := run.traceId
  eventType := workflowArchived
  node := archiveNode
  actorType := .system
  actorId := workflowActor
  payload := .obj [("route", .str (routeText (route.getD .review)))]
  invoiceStatus := none
  versions := notApplicableVersions

/-- `archive`. -/
def archive (stamp : Stamp) (route : Option InvoiceRoute) : Client ι A Unit :=
  WorkflowTransitions.appendOnce (run.writer stamp) (archiveTransition run route)

/-- What `triage` hands to its transaction : the payload it has prepared, with whom and what it was
prepared by, and what the projection of a payload is computed from. -/
structure Prepared where
  payload : Json
  actorType : ActorType
  actorId : Version
  versions : VersionOverrides
  host : Host
  clock : Instant
  taxonomy : Option TaxonomyResult
  policy : Option PolicyResult
  gateSha256 : Option Sha256
  extractionEscalated : Bool
  rules : QueueConfig

/-- The projection of a payload. -/
def Prepared.project (prepared : Prepared) (payload : Json) : QueueProjection :=
  projectException prepared.host prepared.clock prepared.taxonomy prepared.policy
    prepared.gateSha256 prepared.extractionEscalated payload prepared.rules

/-- The exception of a projection. -/
def opened (projection : QueueProjection) (newId : Uuid) (now : Instant) : ExceptionRow where
  id := newId
  runId := run.runId
  invoiceId := run.invoiceId
  exceptionType := projection.exceptionType
  status := .open
  priority := projection.priority
  slaDueAt := projection.slaDueAt
  evidence := projection.evidence
  recommendation := projection.recommendation
  createdAt := now

end LiveServices

/-- The constraint of the exceptions an insert of `row` breaks. -/
def Db.exceptionConflict (d : Db) (row : ExceptionRow) : Option String :=
  if (d.exception? row.id).isSome then some "exceptions_pkey"
  else if row.exceptionType.length > 128 ∨ row.exceptionType.toList.all (· = ' ') then
    some "ck_exceptions_nonblank"
  else if row.priority > 3 then some "ck_exceptions_priority"
  else if (d.run? row.runId).map RunRow.invoiceId ≠ some row.invoiceId then
    some "fk_exceptions_run_invoice"
  else none

/-- A code fits the column of the queue and is one word. -/
theorem length_code (code : ExceptionCode) :
    code.text.length ≤ 128 ∧ code.text.toList.all (· = ' ') = false := by
  cases code <;> decide

/-- What is projected breaks no check of the table. -/
theorem exceptionConflict_opened (d : Db) (run : RunContext) (prepared : LiveServices.Prepared)
    (payload : Json) (newId : Uuid) (now : Instant) :
    d.exceptionConflict (LiveServices.opened run (prepared.project payload) newId now) ∈
      [some "exceptions_pkey", some "fk_exceptions_run_invoice", none] := by
  have hpriority : (prepared.project payload).priority ≤ 3 := by
    unfold LiveServices.Prepared.project projectException
    dsimp only
    split_ifs <;> decide
  have htype : (prepared.project payload).exceptionType.length ≤ 128 ∧
      (prepared.project payload).exceptionType.toList.all (· = ' ') = false := by
    unfold LiveServices.Prepared.project projectException
    dsimp only
    split
    · exact length_code _
    · split_ifs <;> decide
  have hblank : ¬((prepared.project payload).exceptionType.length > 128 ∨
      (prepared.project payload).exceptionType.toList.all (· = ' ') = true) := by
    rw [htype.2]
    simpa using htype.1
  unfold Db.exceptionConflict LiveServices.opened
  dsimp only
  rw [if_neg hblank, if_neg (Nat.not_lt.mpr hpriority)]
  split_ifs <;> simp

/-- A row that conflicts with nothing in the queue has a new id. -/
theorem fresh_of_exceptionConflict {d : Db} {row : ExceptionRow}
    (h : d.exceptionConflict row = none) : d.exception? row.id = none := by
  by_contra hne
  simp [Db.exceptionConflict, Option.ne_none_iff_isSome.mp hne] at h

/-- The insert of an exception, with the constraints it may break. -/
def insertExceptionRow (row : ExceptionRow) : Sql Db Write Lock Unit :=
  .insert (fun d => d.exceptionConflict row) [.exceptionRow row.id, .exceptionPk row.id]
    (.insertException row)

namespace LiveServices

variable {ι A : Type} [DecidableEq ι] (run : RunContext)

/-- `SELECT ... FROM public.runs WHERE id = %s AND invoice_id = %s FOR UPDATE`. -/
def selectReviewRun : Sql Db Write Lock (Option RunRow) :=
  .readForUpdate (fun d => (d.run? run.runId).filter fun r => r.invoiceId = run.invoiceId)
    fun row => [.runRow row.id]

/-- The last event of the type in the invoice's run. -/
def lastPrepared : Sql Db Write Lock (Option LedgerEvent) :=
  .read fun d => ((d.eventsOf run.runId).filter fun e =>
    e.invoiceId = run.invoiceId ∧ e.eventType = triagePrepared).getLast?

/-- The run has an exception. -/
def hasException : Sql Db Write Lock Bool :=
  .read fun d => d.exceptions.any fun x => x.runId = run.runId && x.invoiceId = run.invoiceId

/-- The event of `triage`, and the invoice it leaves to a review. -/
def recordTriage (stamp : Stamp) (prepared : Prepared) : Client ι A Json := do
  let updated ← sql schema (setInvoiceStatus run.invoiceId .needsReview)
  match updated with
  | none => throw (.new .replayEvidenceError "Invoice to review is missing")
  | some _ => do
    let _ ← (run.writer stamp).append {
      runId := run.runId
      invoiceId := run.invoiceId
      eventType := triagePrepared
      actorType := prepared.actorType
      actorId := prepared.actorId
      payload := prepared.payload
      node := some triageNode
      versions := some prepared.versions } run.traceId
    return prepared.payload

/-- A committed triage stands, another one is recorded. -/
def finishTriage (stamp : Stamp) (prepared : Prepared) : Option LedgerEvent → Client ι A Json
  | some e => return e.payload
  | none => recordTriage run stamp prepared

/-- The transaction of `triage` from the read of the exception on. -/
def openException (stamp : Stamp) (prepared : Prepared) (newId : Uuid) (now : Instant)
    (committed : Option LedgerEvent) : Client ι A Json := do
  let payload := (committed.map LedgerEvent.payload).getD prepared.payload
  let found ← sql schema (hasException run)
  if !found then
    sql schema (insertExceptionRow (opened run (prepared.project payload) newId now))
  finishTriage run stamp prepared committed

/-- The transaction of `triage`. -/
def queueException (stamp : Stamp) (prepared : Prepared) (newId : Uuid) (now : Instant) :
    Client ι A Json :=
  transaction schema do
    let locked ← sql schema (selectReviewRun run)
    match locked with
    | none => throw (.new .replayEvidenceError "Review run is missing")
    | some _ => do
      let committed ← sql schema (lastPrepared run)
      if committed.any fun e => !e.payload.isObject then
        throw (.new .replayEvidenceError "Committed triage evidence is invalid")
      else openException run stamp prepared newId now committed

end LiveServices

/-! ## The review worker -/

/-- A checkpoint of the graph : its state, and the nodes to run next. -/
structure Checkpoint where
  values : InvoiceGraphState
  next : List InvoiceNodeName
  deriving DecidableEq, Repr

/-- What the graph engine answers : the checkpoint it has, whether it has written the next one, and
the state it ends in. -/
inductive Engine where
  | snapshot (answer : Except Exn (Option Checkpoint))
  | written (answer : Except Exn Unit)
  | output (answer : Except Exn InvoiceGraphState)

namespace Engine

/-- The answer to a read of the checkpoint. -/
def snapshot? : Engine → Option (Except Exn (Option Checkpoint))
  | snapshot answer => some answer
  | _ => none

/-- The answer to a write of the checkpoint. -/
def written? : Engine → Option (Except Exn Unit)
  | written answer => some answer
  | _ => none

/-- The answer to a run of the graph. -/
def output? : Engine → Option (Except Exn InvoiceGraphState)
  | output answer => some answer
  | _ => none

/-- Wait for the engine. -/
def await {ι α : Type} (read : Engine → Option (Except Exn α)) : Client ι Engine α := do
  let answer ← Prog.ask read
  Prog.ofExcept answer

end Engine

/-- The identifiers and the times a resumed graph takes. -/
structure ReviewStamps where
  review : Stamp
  archive : Stamp
  deriving DecidableEq, Repr

/-- `load_invoice_state`, as far as a resumed run depends on it. -/
def RunContext.load (run : RunRow) : Except Exn RunContext :=
  if run.graphVersion ≠ "ingestion-v1" ∧ run.graphVersion ≠ "invoice-v1" then
    .error (.new .runNotFound "Invoice run has an unsupported graph version")
  else match Version.ofString? run.graphVersion with
    | some graph =>
      if isTraceId run.traceId then .ok ⟨run.id, run.invoiceId, run.traceId, graph⟩
      else .error (.new .validationError "InvoiceGraphState")
    | none => .error (.new .validationError "LedgerSettings")

namespace InvoiceGraphRunner

variable {ι : Type} [DecidableEq ι] (run : RunContext) (stamps : ReviewStamps)

/-- The archive node, and the state the graph ends in. -/
def finishReview (route : Option InvoiceRoute) : Client ι Engine InvoiceGraphState := do
  LiveServices.archive run stamps.archive route
  let result ← Engine.await Engine.output?
  if result.status = .completed then return result
  else throw (.new .invalidCheckpoint "Human review did not complete the workflow")

/-- What is left to do of a review, by the checkpoint. -/
def continueReview (checkpoint : Checkpoint) (decision : ReviewDecision) :
    Client ι Engine InvoiceGraphState :=
  let state := checkpoint.values
  if state.runId ≠ run.runId ∨ state.invoiceId ≠ run.invoiceId ∨ state.traceId ≠ run.traceId then
    throw (.new .runConflict "Run checkpoint identity does not match")
  else if state.status = .completed ∧ state.review = some decision.toJson then return state
  else if state.status = .awaitingReview ∧ .humanReview ∈ checkpoint.next then do
    LiveServices.review run stamps.review decision
    Engine.await Engine.written?
    finishReview run stamps state.route
  else if state.status = .running ∧ state.review = some decision.toJson then
    finishReview run stamps state.route
  else throw (.new .invalidCheckpoint "Invoice workflow is not waiting for this human decision")

/-- What a failure of `resume` is reported as. -/
def reviewReported (error : Exn) : Exn :=
  if error.isInstance .graphError then error
  else if error.isInstance .timeoutError then
    .chained .graphTimeout "Invoice review timed out" error
  else if error.isInstance .exception then
    .chained .graphExecutionError "Invoice review failed" error
  else error

/-- `resume`, under the lock of the run. -/
def resume (decision : ReviewDecision) : Client ι Engine InvoiceGraphState :=
  Prog.tryCatch (do
    let snapshot ← Engine.await Engine.snapshot?
    match snapshot with
    | none => throw (.new .invalidCheckpoint "Invoice workflow has no checkpoint")
    | some checkpoint => continueReview run stamps checkpoint decision)
    fun error => throw (reviewReported error)

end InvoiceGraphRunner

/-- `invoice_runtime` and `InvoiceWorkflowRuntime.resume`. -/
def resumeRun {ι : Type} [DecidableEq ι] (stamps : ReviewStamps) (runId : Uuid)
    (decision : ReviewDecision) : Client ι Engine InvoiceGraphState := do
  let row ← sql schema (.read fun d => d.run? runId)
  match row with
  | none => throw (.new .runNotFound "Invoice workflow run is absent")
  | some row => do
    let run ← Prog.ofExcept (RunContext.load row)
    InvoiceGraphRunner.resume run stamps decision

/-- A decision with its run, its exception and the proposal it supersedes. -/
structure Signoff where
  decision : DecisionRow
  runStatus : RunStatus
  exceptionStatus : ExceptionStatus
  proposal : Option DecisionRow
  deriving DecidableEq, Repr

/-- The join that `process` reads. -/
def Db.signoff? (d : Db) (decisionId : Uuid) : Option Signoff :=
  (d.decision? decisionId).bind fun decision => (d.run? decision.runId).bind fun run =>
    (d.exception? decision.exceptionId).map fun x =>
      ⟨decision, run.status, x.status, decision.supersedesId.bind d.decision?⟩

/-- What `process` answers. -/
structure Settled where
  decisionId : Uuid
  runId : Uuid
  status : ExceptionStatus
  deriving DecidableEq, Repr

namespace DecisionResumeWorker

/-- `ReviewWorkerError(...)`. -/
def reviewError (detail : String) : Exn :=
  .new .reviewWorkerError detail

/-- The checks of the row, and the decision the graph is resumed with. -/
def checkSignoff (row : Signoff) : Except Exn ReviewDecision :=
  let decision := row.decision
  if decision.actorId ≠ ReadRole.manager.actor.val ∨ decision.supersedesId = none ∨
      row.proposal.map DecisionRow.actorId ≠ some ReadRole.analyst.actor.val ∨
      decision.action = .approve ∧ row.proposal.map DecisionRow.action ≠ some .approve then
    .error (reviewError "Decision has no valid independent signoff")
  else if row.runStatus ≠ .paused ∧ row.runStatus ≠ .completed then
    .error (reviewError "Decision run is not paused or completed")
  else match decision.action.review? with
    | some action => .ok (decision.review action)
    | none => .error (.new .validationError "ReviewDecision")

/-- The graph has completed this decision. -/
def isCompleted (row : Signoff) (decision : ReviewDecision) (result : InvoiceGraphState) : Bool :=
  result.status = .completed && result.runId = row.decision.runId &&
    result.invoiceId = row.decision.invoiceId && result.review = some decision.toJson

/-- `events.get(type)` of the evidence. -/
def evidenceOf (evidence : List LedgerEvent) (type : Version) : Option Json :=
  (evidence.filter fun e => e.eventType = type).getLast?.map LedgerEvent.payload

variable {ι A : Type} [DecidableEq ι]

/-- The events of the review and of the archive. -/
def selectEvidence (runId : Uuid) : Sql Db Write Lock (List LedgerEvent) :=
  .read fun d => (d.eventsOf runId).filter fun e =>
    e.eventType = reviewRecorded ∨ e.eventType = workflowArchived

/-- `UPDATE public.exceptions ... AND status IN ('IN_REVIEW', %s)`. -/
def settleException (exceptionId : Uuid) (status : ExceptionStatus) :
    Sql Db Write Lock (Option ExceptionRow) :=
  .update (fun d => (d.exception? exceptionId).filter fun x =>
    x.status = .inReview ∨ x.status = status)
    (fun row => [.exceptionRow row.id]) fun row => .setException { row with status }

/-- `UPDATE public.runs SET status = 'COMPLETED' ... AND status = 'PAUSED'`, under
`ck_runs_time_order`. -/
def completeRun (runId : Uuid) (now : Instant) : Sql Db Write Lock Unit where
  wants d := ((d.run? runId).filter fun r => r.status = .paused).elim [] fun r => [.runRow r.id]
  run d := match (d.run? runId).filter fun r => r.status = .paused with
    | none => .ok ((), [])
    | some r =>
      if r.startedAt.any fun t => now < t then .error (.violation "ck_runs_time_order")
      else .ok ((), [.setRun { r with status := .completed, completedAt := some now }])

/-- The transaction that settles a review. -/
def settle (row : DecisionRow) (decision : ReviewDecision) (now : Instant) : Client ι A Settled :=
  transaction schema do
    let locked ← sql schema (LedgerWriter.selectRun row.runId)
    match locked with
    | none => throw (reviewError "Review run changed before settlement")
    | some run =>
      if run.status ≠ .paused ∧ run.status ≠ .completed then
        throw (reviewError "Review run changed before settlement")
      else do
        let evidence ← sql schema (selectEvidence row.runId)
        if evidenceOf evidence reviewRecorded = some decision.toJson ∧
            (evidenceOf evidence workflowArchived).isSome then do
          let updated ← sql schema (settleException row.exceptionId row.action.settled)
          match updated with
          | none => throw (reviewError "Exception changed before settlement")
          | some _ => do
            if run.status = .paused then
              sql schema (completeRun row.runId now)
            return ⟨row.id, row.runId, row.action.settled⟩
        else throw (reviewError "Committed graph review evidence is incomplete")

/-- What a failure of `process` is reported as. -/
def reported (error : Exn) : Exn :=
  if error.isInstance .psycopgError then
    .chained .reviewWorkerError "Review persistence failed" error
  else error

/-- `process`, with the graph it resumes. -/
def process (resume : Uuid → ReviewDecision → Client ι A InvoiceGraphState) (decisionId : Uuid)
    (now : Instant) : Client ι A Settled :=
  Prog.tryCatch (do
    let found ← sql schema (.read fun d => d.signoff? decisionId)
    match found with
    | none => throw (reviewError "Accepted decision is missing")
    | some row => do
      let decision ← Prog.ofExcept (checkSignoff row)
      if row.runStatus = .paused then
        let result ← resume row.decision.runId decision
        if isCompleted row decision result then settle row.decision decision now
        else throw (reviewError "Review graph did not complete this decision")
      else settle row.decision decision now)
    fun error => throw (reported error)

end DecisionResumeWorker

section

variable {ι α β : Type} [DecidableEq ι] {lockKey : String → ℤ} {inv : Db → Prop} {i : ι}
  {r : β → Db → Prop} {g : Server ι Db Write Lock}

/-- The rule of an answer of the engine between two rests. -/
theorem rest_await {p : Db → Prop} (hp : Lasting p) {read : Engine → Option (Except Exn α)}
    {f : α → Client ι Engine β} (hi : (operations lockKey inv).inv g)
    (hidle : (operations lockKey inv).idle i g) (h : p g.db)
    (hf : ∀ a g', (operations lockKey inv).inv g' → (operations lockKey inv).idle i g' →
      p g'.db → (operations lockKey inv).wp i (f a) (Ends lockKey inv i r) g') :
    (operations lockKey inv).wp i (Engine.await read >>= f) (Ends lockKey inv i r) g := by
  refine Protocol.wp_stmt (stable_rest hp) hi ⟨hidle, h⟩ fun g hi h c answer g' hc => ?_
  cases c with
  | proceed | fault => cases hc
  | answer e =>
    obtain ⟨answer', -, heq⟩ := Option.map_eq_some_iff.mp hc
    cases heq
    refine ⟨guar_refl g, hi, ?_⟩
    cases answer with
    | ok a => exact hf a g hi h.1 h.2
    | error e => exact rest_raise hi h.1

end

/-! ## What each write keeps -/

/-- A manager has decided so on the run. -/
def Db.Signed (d : Db) (runId invoiceId : Uuid) (payload : Json) : Prop :=
  ∃ m ∈ d.decisions, m.actorId = ReadRole.manager.actor.val ∧ m.runId = runId ∧
    m.invoiceId = invoiceId ∧ ∃ action, m.action.review? = some action ∧
      payload = (m.review action).toJson

/-- What was recorded of a decision stays recorded: ledger and decisions only grow. -/
theorem lasting_signed (runId invoiceId : Uuid) (payload : Json) :
    Lasting fun d => d.Signed runId invoiceId payload :=
  lasting_decision _

namespace ReviewInv

variable {host : Host} {d d' : Db} {x : ExceptionRow} {m : DecisionRow}

/-- A manager's decision signs the proposal on its exception. -/
theorem signed_of_manager (h : ReviewInv host d) (hm : m ∈ d.decisions)
    (hactor : m.actorId = ReadRole.manager.actor.val) :
    ∃ x ∈ d.exceptions, ∃ p, x.id = m.exceptionId ∧ d.decisionsOf x.id = [p, m] ∧
      p.Proposes x ∧ m.Signs p x := by
  obtain ⟨x, hx, hid⟩ := h.known m hm
  have hmem : m ∈ d.decisionsOf x.id := mem_decisionsOf.mpr ⟨hm, hid.symm⟩
  have hnot {p : DecisionRow} (hp : p.Proposes x) : m ≠ p := by
    rintro rfl
    exact ReadRole.actor_ne (hactor.symm.trans hp.actor)
  have hreviewed := h.reviewed x hx
  cases hdecisions : d.decisionsOf x.id with
  | nil => simp [hdecisions] at hmem
  | cons p rest =>
    rw [hdecisions] at hmem hreviewed
    cases hreviewed with
    | proposed proposes => exact absurd (List.mem_singleton.mp hmem) (hnot proposes)
    | signed proposes signs =>
      rcases List.mem_cons.mp hmem with hmp | hmem
      · exact absurd hmp (hnot proposes)
      · obtain rfl := List.mem_singleton.mp hmem
        exact ⟨x, hx, p, hid, hdecisions, proposes, signs⟩

/-- An event that records a decision has its signature under the invariant. -/
theorem signedReview (h : ReviewInv host d) {e : LedgerEvent}
    (hs : d.Signed e.runId e.invoiceId e.payload) : d.SignedReview e := by
  obtain ⟨m, hm, hactor, hrun, hinvoice, action, haction, hpayload⟩ := hs
  obtain ⟨x, hx, p, -, hdecisions, -, hsigns⟩ := h.signed_of_manager hm hactor
  exact ⟨x, hx, p, m, action, hdecisions, hsigns.run.symm.trans hrun,
    hsigns.invoice.symm.trans hinvoice, haction, hpayload⟩

/-- Only the identity of a run matters to the reviews, and nothing of an invoice. -/
theorem congr (h : ReviewInv host d) (hexceptions : d'.exceptions = d.exceptions)
    (hdecisions : d'.decisions = d.decisions) (hledger : d'.ledger = d.ledger)
    (hruns : ∀ r row, d.run? r = some row → ∃ row', d'.run? r = some row' ∧
      row'.invoiceId = row.invoiceId ∧ row'.graphVersion = row.graphVersion) :
    ReviewInv host d' where
  ledger := h.ledger.congr hledger hruns
  exceptionIds := hexceptions ▸ h.exceptionIds
  decisionIds := hdecisions ▸ h.decisionIds
  keys := hdecisions ▸ h.keys
  reviewed := by
    rw [hexceptions]
    intro x hx
    rw [Db.decisionsOf, hdecisions]
    exact h.reviewed x hx
  known := by
    rw [hdecisions, hexceptions]
    exact h.known
  recorded := by
    rw [Db.decisionEvents, hledger, hdecisions]
    exact h.recorded
  reviews := by
    rw [hledger]
    intro e he ht
    obtain ⟨x, hx, p, m, action, hof, hrest⟩ := h.reviews e he ht
    refine ⟨x, hexceptions ▸ hx, p, m, action, ?_, hrest⟩
    rw [Db.decisionsOf, hdecisions]
    exact hof

/-- The invariant says nothing about the status of an invoice. -/
theorem setInvoice (h : ReviewInv host d) (row : InvoiceRow) :
    ReviewInv host (schema.apply d (.setInvoice row)) :=
  h.congr rfl rfl rfl fun _ run hrun => ⟨run, hrun, rfl, rfl⟩

/-- A run may change but for its invoice and its graph. -/
theorem setRun (h : ReviewInv host d) {old row : RunRow} (hold : d.run? row.id = some old)
    (hinvoice : row.invoiceId = old.invoiceId) (hgraph : row.graphVersion = old.graphVersion) :
    ReviewInv host (schema.apply d (.setRun row)) := by
  refine h.congr rfl rfl rfl fun r run hrun => ?_
  by_cases hr : row.id = r
  · subst hr
    obtain rfl : run = old := Option.some.inj (hrun.symm.trans hold)
    refine ⟨row, ?_, hinvoice, hgraph⟩
    change lookup RunRow.id (replace RunRow.id d.runs row) row.id = some row
    rw [lookup_replace]
    change (d.run? row.id).map _ = _
    rw [hold, Option.map_some, if_pos (key_of_lookup hold)]
  · exact ⟨run, (lookup_replace_of_ne hr).trans hrun, rfl, rfl⟩

/-- An event that is no decision, and a signed one if it is a review, keeps the invariant. -/
theorem insertEvent (h : ReviewInv host d) {w : LedgerWriter} {command : AppendEvent}
    {e : LedgerEvent} (ha : w.Appended command d e) (htype : isDecision command.eventType = false)
    (hreview : command.eventType = reviewRecorded →
      d.Signed command.runId command.invoiceId command.payload) :
    ReviewInv host (schema.apply d (.insertEvent e)) where
  ledger := h.ledger.append ha
  exceptionIds := h.exceptionIds
  decisionIds := h.decisionIds
  keys := h.keys
  reviewed := h.reviewed
  known := h.known
  recorded := by
    have hnone : [e].filter (fun e => isDecision e.eventType) = [] := by
      have hstamp : e.eventType = command.eventType := by rw [ha.event]; rfl
      simp [hstamp, htype]
    have hrecorded := h.recorded
    unfold Db.decisionEvents at hrecorded ⊢
    change ((d.ledger ++ [e]).filter _).map _ = _
    rw [List.filter_append, hnone, List.append_nil]
    exact hrecorded
  reviews := by
    intro e' he' ht
    rcases List.mem_append.mp he' with he' | he'
    · exact h.reviews e' he' ht
    · obtain rfl := List.mem_singleton.mp he'
      refine h.signedReview ?_
      have hs := hreview (by rw [← ht, ha.event]; rfl)
      rw [ha.event]
      exact hs

/-- A new exception is open, and no decision is on it. -/
theorem insertException (h : ReviewInv host d) (hfresh : d.exception? x.id = none)
    (hopen : x.status = .open) : ReviewInv host (schema.apply d (.insertException x)) := by
  have hne := lookup_eq_none.mp hfresh
  refine ⟨h.ledger.congr rfl fun _ run hrun => ⟨run, hrun, rfl, rfl⟩, nodup_snoc h.exceptionIds hne,
    h.decisionIds, h.keys, fun y hy => ?_, fun r hr => ?_, h.recorded, fun e he ht => ?_⟩
  · rcases List.mem_append.mp hy with hy | hy
    · exact h.reviewed y hy
    · obtain rfl := List.mem_singleton.mp hy
      have hnone : d.decisionsOf y.id = [] := by
        refine List.filter_eq_nil_iff.mpr fun r hr hid => ?_
        obtain ⟨z, hz, hzr⟩ := h.known r hr
        exact hne z hz (hzr.trans (of_decide_eq_true hid))
      change Reviewed y (d.decisionsOf y.id)
      rw [hnone]
      exact .open hopen
  · obtain ⟨y, hy, hyr⟩ := h.known r hr
    exact ⟨y, List.mem_append_left _ hy, hyr⟩
  · obtain ⟨y, hy, hrest⟩ := h.reviews e he ht
    exact ⟨y, List.mem_append_left _ hy, hrest⟩

/-- A signed exception may take the status of its decision. -/
theorem settle (h : ReviewInv host d) (hm : m ∈ d.decisions)
    (hactor : m.actorId = ReadRole.manager.actor.val) (hx : d.exception? m.exceptionId = some x) :
    ReviewInv host (schema.apply d (.setException { x with status := m.action.settled })) := by
  obtain ⟨y, hy, p, hyid, hdecisions, hproposes, hsigns⟩ := h.signed_of_manager hm hactor
  have hxid : x.id = m.exceptionId := key_of_lookup hx
  obtain rfl : y = x := List.inj_on_of_nodup_map h.exceptionIds hy (mem_of_lookup hx)
    (hyid.trans hxid.symm)
  refine ⟨h.ledger.congr rfl fun _ run hrun => ⟨run, hrun, rfl, rfl⟩, ?_, h.decisionIds, h.keys,
    fun z hz => ?_, fun r hr => ?_, h.recorded, fun e he ht => ?_⟩
  · change ((replace ExceptionRow.id d.exceptions _).map ExceptionRow.id).Nodup
    rw [map_key_replace]
    exact h.exceptionIds
  · rcases mem_replace.mp hz with ⟨hz, -⟩ | ⟨rfl, -⟩
    · exact h.reviewed z hz
    · change Reviewed _ (d.decisionsOf y.id)
      rw [hdecisions]
      exact .signed ⟨hproposes.run, hproposes.invoice, hproposes.actor, hproposes.first⟩
        ⟨hsigns.run, hsigns.invoice, hsigns.actor, hsigns.supersedes, hsigns.approves⟩ (.inr rfl)
  · obtain ⟨z, hz, hzr⟩ := h.known r hr
    by_cases hzy : z.id = y.id
    · exact ⟨_, mem_replace.mpr (.inr ⟨rfl, z, hz, hzy⟩), hzy.symm.trans hzr⟩
    · exact ⟨z, mem_replace.mpr (.inl ⟨hz, hzy⟩), hzr⟩
  · obtain ⟨z, hz, p', m', action, hof, hrun, hinvoice, hrest⟩ := h.reviews e he ht
    by_cases hzy : z.id = y.id
    · obtain rfl : z = y := List.inj_on_of_nodup_map h.exceptionIds hz hy hzy
      exact ⟨_, mem_replace.mpr (.inr ⟨rfl, z, hz, rfl⟩), p', m', action, hof, hrun, hinvoice,
        hrest⟩
    · exact ⟨z, mem_replace.mpr (.inl ⟨hz, hzy⟩), p', m', action, hof, hrun, hinvoice, hrest⟩

end ReviewInv

/-! ## Every call keeps the invariant -/

section

variable {ι A α : Type} [DecidableEq ι] {lockKey : String → ℤ} {host : Host} {i : ι}
  {g : Server ι Db Write Lock} {wrote ws : List Write} {ls : List Lock} {d₀ : Db}

/-- What has to hold for a transition to be recorded : it is no decision, and a review is the one
a manager has signed. -/
structure Transition.Allowed (t : Transition) (d : Db) : Prop where
  decision : isDecision t.eventType = false
  review : t.eventType = reviewRecorded → d.Signed t.runId t.invoiceId t.payload

/-- A transition that was allowed stays allowed. -/
theorem lasting_allowed (t : Transition) : Lasting t.Allowed :=
  fun d w h => ⟨h.decision, fun ht => lasting_signed _ _ _ d w (h.review ht)⟩

/-- An append at the end of a transaction. -/
theorem done_append {w : LedgerWriter} {command : AppendEvent} {traceId : String} {a : α}
    {q : α → Db → Prop} (hq : Lasting (q a))
    (hi : (operations lockKey (ReviewInv host)).inv g)
    (h : Knows lockKey i ⟨.inTrans, ws, wrote⟩ [] ls d₀ g)
    (htype : isDecision command.eventType = false)
    (hkeeps : ∀ d, ReviewInv host d → Becomes lockKey ls d₀ d →
      ReviewInv host (schema.applyAll d ws) ∧ (command.eventType = reviewRecorded →
        (schema.applyAll d ws).Signed command.runId command.invoiceId command.payload))
    (ha : ∀ d : Db, (∃ e ∈ d.ledger, e.runId = command.runId ∧ e.invoiceId = command.invoiceId ∧
      e.eventType = command.eventType ∧ e.payload = command.payload) → q a d) :
    (operations lockKey (ReviewInv host)).wp i
      (do let _ ← w.append command traceId; return a : Client ι A α)
      (Done schema (discipline lockKey) (ReviewInv host) i wrote []
        (Ends lockKey (ReviewInv host) i q)) g := by
  refine Protocol.wp_bind hi (wp_append hi h ?_ ?_ ?_)
  · exact fun e g' _ h' => ⟨_, _, _, _, h', fun _ h'' => ⟨h''.idle, fun _ h => (by cases h)⟩⟩
  · exact fun e g' _ h' => ⟨_, _, _, _, h', fun _ h'' => ⟨h''.idle, fun _ h => (by cases h)⟩⟩
  · intro e d _ hev happended g' hi' h'
    refine done_ret hq hi' h' fun d' hd' hev' => ?_
    have hmem (l : Lock) (hl : l ∈ LedgerWriter.locks e) : l ∈ ls ++ LedgerWriter.locks e :=
      List.mem_append_right _ hl
    have happended' : w.Appended command (schema.applyAll d' ws) e :=
      happended.congr (hev'.guards_view (guards_run? _) (hmem _ (by simp [LedgerWriter.locks])) ws)
        (hev'.guards_view (guards_eventsOf _) (hmem _ (by simp [LedgerWriter.locks])) ws)
        (hev'.guards_view (guards_event? _) (hmem _ (by simp [LedgerWriter.locks])) ws)
    obtain ⟨hinv, hsigned⟩ := hkeeps d' hd' (hev.trans (hev'.mono (by simp +contextual)))
    rw [Schema.applyAll_append]
    refine ⟨hinv.insertEvent happended' htype hsigned, ha _ ⟨e, ?_, ?_⟩⟩
    · exact List.mem_append_right _ (List.mem_singleton.mpr rfl)
    · rw [happended.event]
      exact ⟨rfl, rfl, rfl, rfl⟩

/-- The transition is in the ledger. -/
def Transition.Committed (t : Transition) (d : Db) : Prop :=
  ∃ e ∈ d.ledger, e.runId = t.runId ∧ e.invoiceId = t.invoiceId ∧ e.eventType = t.eventType ∧
    e.payload = t.payload

/-- The event that a read of committed work finds. -/
theorem mem_of_committed? {d : Db} {runId invoiceId : Uuid} {type : Version} {e : LedgerEvent}
    (h : d.committed? runId invoiceId type = some e) :
    e ∈ d.ledger ∧ e.runId = runId ∧ e.invoiceId = invoiceId ∧ e.eventType = type := by
  have hmem := List.mem_of_find?_eq_some h
  have hp := List.find?_some h
  rw [Db.eventsOf, List.mem_filter] at hmem
  simp only [decide_eq_true_eq] at hmem hp
  exact ⟨hmem.1, hmem.2, hp.1, hp.2⟩

/-- The rule of `append_once`. -/
theorem wp_appendOnce {w : LedgerWriter} {t : Transition}
    (hi : (operations lockKey (ReviewInv host)).inv g)
    (hidle : (operations lockKey (ReviewInv host)).idle i g) (ht : t.Allowed g.db) :
    (operations lockKey (ReviewInv host)).wp i
      (WorkflowTransitions.appendOnce w t : Client ι A Unit)
      (Ends lockKey (ReviewInv host) i fun _ => t.Committed) g := by
  have hlasting : Lasting t.Committed := lasting_event _
  refine rest_transaction (fun _ => hlasting) hi hidle fun g₁ hi₁ h₁ => ?_
  refine wp_read hi₁ h₁ (fails_ends _) fun d₂ _ hev₂ g₂ hi₂ h₂ => ?_
  rw [Schema.applyAll_nil]
  have ht₂ : t.Allowed d₂ := (lasting_allowed t).becomes hev₂ ht
  cases hcommitted : d₂.committed? t.runId t.invoiceId t.eventType with
  | some e =>
    obtain ⟨he, hrun, hinvoice, htype⟩ := mem_of_committed? hcommitted
    by_cases hpayload : e.payload = t.payload
    · simp only [if_pos hpayload]
      exact done_ret hlasting hi₂ h₂ fun d hd hev => ⟨hd, hlasting.becomes hev
        ⟨e, he, hrun, hinvoice, htype, hpayload⟩⟩
    · simp only [if_neg hpayload]
      exact done_raise hi₂ h₂
  | none =>
    cases hstatus : t.invoiceStatus with
    | none =>
      refine done_append (q := fun _ => t.Committed) hlasting hi₂ h₂ ht₂.decision
        (fun d hd hev => ⟨hd, fun htype => ?_⟩) fun d h => h
      exact ((lasting_allowed t).becomes hev ht₂).review htype
    | some status =>
      refine wp_update hi₂ h₂ (by simp [schema]) (fails_ends _) ?_ ?_
      · exact fun d _ _ _ g' hi' h' => done_raise hi' h'
      · intro d₃ _ hev₃ row _
        refine ⟨by simp [discipline], fun g₃ hi₃ h₃ => ?_⟩
        refine done_append (q := fun _ => t.Committed) hlasting hi₃ h₃ ht₂.decision
          (fun d hd hev => ⟨hd.setInvoice _, fun htype => ?_⟩) fun d h => h
        have hallowed := (lasting_allowed t).becomes hev ((lasting_allowed t).becomes hev₃ ht₂)
        exact lasting_signed _ _ _ _ _ (hallowed.review htype)

/-- The payload is the triage of the run in the ledger. -/
def RunContext.Triaged (run : RunContext) (payload : Json) (d : Db) : Prop :=
  ∃ e ∈ d.ledger, e.runId = run.runId ∧ e.invoiceId = run.invoiceId ∧
    e.eventType = triagePrepared ∧ e.payload = payload

/-- The end of `triage`'s transaction. -/
theorem done_triage {run : RunContext} {stamp : Stamp} {prepared : LiveServices.Prepared}
    {committed : Option LedgerEvent} (hi : (operations lockKey (ReviewInv host)).inv g)
    (h : Knows lockKey i ⟨.inTrans, ws, wrote⟩ [] ls d₀ g)
    (hkeeps : ∀ d, ReviewInv host d → Becomes lockKey ls d₀ d →
      ReviewInv host (schema.applyAll d ws) ∧ ∀ e ∈ d.ledger, e ∈ (schema.applyAll d ws).ledger)
    (hcommitted : ∀ e ∈ committed, run.Triaged e.payload d₀) :
    (operations lockKey (ReviewInv host)).wp i
      (LiveServices.finishTriage run stamp prepared committed : Client ι A Json)
      (Done schema (discipline lockKey) (ReviewInv host) i wrote []
        (Ends lockKey (ReviewInv host) i run.Triaged)) g := by
  cases committed with
  | some e =>
    refine done_ret (lasting_event _) hi h fun d hd hev => ?_
    obtain ⟨hinv, hledger⟩ := hkeeps d hd hev
    obtain ⟨e', he', hp⟩ := (lasting_event _).becomes hev (hcommitted e rfl)
    exact ⟨hinv, e', hledger e' he', hp⟩
  | none =>
    refine wp_update hi h (by simp [schema]) (fails_ends _) ?_ ?_
    · exact fun d _ _ _ g' hi' h' => done_raise hi' h'
    · intro d _ hev row _
      refine ⟨by simp [discipline], fun g' hi' h' => ?_⟩
      refine done_append (q := run.Triaged) (lasting_event _) hi' h'
        (show isDecision triagePrepared = false by decide) (fun d' hd' hev' => ⟨?_, fun ht =>
          absurd ht (show triagePrepared ≠ reviewRecorded by decide)⟩) fun d h => h
      rw [Schema.applyAll_append]
      exact (hkeeps d' hd' (hev.trans (hev'.mono (by simp +contextual)))).1.setInvoice _

/-- The rule of `triage`'s transaction. -/
theorem wp_queueException {run : RunContext} {stamp : Stamp} {prepared : LiveServices.Prepared}
    {newId : Uuid} {now : Instant} (hi : (operations lockKey (ReviewInv host)).inv g)
    (hidle : (operations lockKey (ReviewInv host)).idle i g) :
    (operations lockKey (ReviewInv host)).wp i
      (LiveServices.queueException run stamp prepared newId now : Client ι A Json)
      (Ends lockKey (ReviewInv host) i run.Triaged) g := by
  refine rest_transaction (fun _ => lasting_event _) hi hidle fun g₁ hi₁ h₁ => ?_
  refine wp_readForUpdate hi₁ h₁ (by simp [schema]) (fails_ends _) ?_ ?_
  · exact fun d _ _ _ g' hi' h' => done_raise hi' h'
  · intro d₂ _ _ row _ g₂ hi₂ h₂
    refine wp_read hi₂ h₂ (fails_ends _) fun d₃ _ _ g₃ hi₃ h₃ => ?_
    rw [Schema.applyAll_nil]
    split_ifs
    · exact done_raise hi₃ h₃
    · have hcommitted : ∀ e ∈ ((d₃.eventsOf run.runId).filter fun e =>
          e.invoiceId = run.invoiceId ∧ e.eventType = triagePrepared).getLast?,
          run.Triaged e.payload d₃ := by
        intro e he
        have hmem := List.mem_of_getLast? he
        simp only [Db.eventsOf, List.mem_filter, decide_eq_true_eq] at hmem
        exact ⟨e, hmem.1.1, hmem.1.2, hmem.2.1, hmem.2.2, rfl⟩
      refine wp_read hi₃ h₃ (fails_ends _) fun d₄ _ hev₄ g₄ hi₄ h₄ => ?_
      have hcommitted₄ := fun e he => (lasting_event _).becomes hev₄ (hcommitted e he)
      split_ifs
      · refine wp_insert hi₄ h₄ (by simp [schema]) (by simp [discipline]) (fails_ends _) ?_
        intro d₅ _ hev₅ hconflict g₅ hi₅ h₅
        have hfresh {ls : List Lock} {d : Db} (hls : .exceptionRow newId ∈ ls)
            (hev : Becomes lockKey ls d₅ d) : d.exception? newId = none := by
          rw [hev.guards (guards_exception? _) hls]
          exact fresh_of_exceptionConflict hconflict
        refine done_triage hi₅ h₅ (fun d hd hev => ⟨?_, fun e he => he⟩) fun e he =>
          (lasting_event _).becomes hev₅ (hcommitted₄ e he)
        exact hd.insertException (hfresh (by simp [LiveServices.opened]) hev) rfl
      · exact done_triage hi₄ h₄ (fun d hd _ => ⟨hd, fun e he => he⟩) hcommitted₄

/-! ## The review worker keeps the invariant -/

/-- The decisions of the desk belong to runs, with the invoice they name. -/
theorem ReviewInv.run_of_decision {d : Db} (h : ReviewInv host d) {m : DecisionRow}
    (hm : m ∈ d.decisions) : ∃ row, d.run? m.runId = some row ∧ row.invoiceId = m.invoiceId := by
  have hmem := List.mem_map_of_mem (f := DecisionRow.record host) hm
  rw [← h.recorded] at hmem
  obtain ⟨e, he, hrecord⟩ := List.mem_map.mp hmem
  obtain ⟨row, hrow, hinvoice, -⟩ := h.ledger.identity e (List.mem_filter.mp he).1
  have hrun : e.runId = m.runId := congrArg DecisionRecord.runId hrecord
  have hid : e.invoiceId = m.invoiceId := congrArg DecisionRecord.invoiceId hrecord
  exact ⟨row, hrun ▸ hrow, hinvoice.trans hid⟩

/-- The rule of `review`. -/
theorem wp_review {run : RunContext} {stamp : Stamp} {decision : ReviewDecision}
    (hi : (operations lockKey (ReviewInv host)).inv g)
    (hidle : (operations lockKey (ReviewInv host)).idle i g)
    (h : g.db.Signed run.runId run.invoiceId decision.toJson) :
    (operations lockKey (ReviewInv host)).wp i
      (LiveServices.review run stamp decision : Client ι A Unit)
      (Ends lockKey (ReviewInv host) i fun _ _ => True) g := by
  unfold LiveServices.review
  cases Version.ofString? decision.actorId with
  | none => exact rest_raise hi hidle
  | some actor =>
    refine Protocol.wp_mono (fun out g' _ h => ⟨h.1, fun _ _ => trivial⟩) (wp_appendOnce hi hidle
      (t := LiveServices.reviewTransition run decision actor)
      ⟨show isDecision reviewRecorded = false by decide, fun _ => h⟩)

/-- The rule of `archive`. -/
theorem wp_archive {run : RunContext} {stamp : Stamp} {route : Option InvoiceRoute}
    (hi : (operations lockKey (ReviewInv host)).inv g)
    (hidle : (operations lockKey (ReviewInv host)).idle i g) :
    (operations lockKey (ReviewInv host)).wp i
      (LiveServices.archive run stamp route : Client ι A Unit)
      (Ends lockKey (ReviewInv host) i fun _ _ => True) g :=
  Protocol.wp_mono (fun _ _ _ h => ⟨h.1, fun _ _ => trivial⟩) (wp_appendOnce hi hidle
    (t := LiveServices.archiveTransition run route)
    ⟨show isDecision workflowArchived = false by decide, fun h =>
      absurd h (show workflowArchived ≠ reviewRecorded by decide)⟩)

/-- The rule of `finishReview`. -/
theorem wp_finishReview {run : RunContext} {stamps : ReviewStamps} {route : Option InvoiceRoute}
    (hi : (operations lockKey (ReviewInv host)).inv g)
    (hidle : (operations lockKey (ReviewInv host)).idle i g) :
    (operations lockKey (ReviewInv host)).wp i (InvoiceGraphRunner.finishReview run stamps route)
      (Ends lockKey (ReviewInv host) i fun _ _ => True) g := by
  refine rest_bind_lasting (Lasting.const True) hi trivial (wp_archive hi hidle)
    fun _ g₁ hi₁ hidle₁ _ _ => ?_
  refine rest_await (Lasting.const True) hi₁ hidle₁ trivial fun result g₂ hi₂ hidle₂ _ => ?_
  split_ifs
  · exact rest_ret (Lasting.const True) hi₂ hidle₂ trivial
  · exact rest_raise hi₂ hidle₂

/-- The graph records a review that has been signed. -/
theorem wp_resume {run : RunContext} {stamps : ReviewStamps} {decision : ReviewDecision}
    (hi : (operations lockKey (ReviewInv host)).inv g)
    (hidle : (operations lockKey (ReviewInv host)).idle i g)
    (h : g.db.Signed run.runId run.invoiceId decision.toJson) :
    (operations lockKey (ReviewInv host)).wp i (InvoiceGraphRunner.resume run stamps decision)
      (Ends lockKey (ReviewInv host) i fun _ _ => True) g := by
  refine rest_reported hi (rest_await (lasting_signed _ _ _) hi hidle h
    fun snapshot g₁ hi₁ hidle₁ h₁ => ?_)
  cases snapshot with
  | none => exact rest_raise hi₁ hidle₁
  | some checkpoint =>
    unfold InvoiceGraphRunner.continueReview
    dsimp only
    split_ifs
    · exact rest_raise hi₁ hidle₁
    · exact rest_ret (Lasting.const True) hi₁ hidle₁ trivial
    · refine rest_bind_lasting (Lasting.const True) hi₁ trivial (wp_review hi₁ hidle₁ h₁)
        fun _ g₂ hi₂ hidle₂ _ _ => ?_
      exact rest_await (Lasting.const True) hi₂ hidle₂ trivial fun _ g₃ hi₃ hidle₃ _ =>
        wp_finishReview hi₃ hidle₃
    · exact wp_finishReview hi₁ hidle₁
    · exact rest_raise hi₁ hidle₁

/-- A loaded run has the row's ids. -/
theorem RunContext.load_ok {row : RunRow} {run : RunContext} (h : RunContext.load row = .ok run) :
    run.runId = row.id ∧ run.invoiceId = row.invoiceId := by
  unfold RunContext.load at h
  split_ifs at h
  · split at h
    · cases h
      exact ⟨rfl, rfl⟩
    · cases h
  · split at h <;> cases h

/-- A manager's decision, with what the graph is resumed with for it. -/
structure DecisionRow.SignedAs (m : DecisionRow) (decision : ReviewDecision) : Prop where
  actor : m.actorId = ReadRole.manager.actor.val
  action : ∃ action, m.action.review? = some action ∧ decision = m.review action

/-- The rule of `resumeRun`, for a decision that has been signed. -/
theorem wp_resumeRun {stamps : ReviewStamps} {m : DecisionRow} {decision : ReviewDecision}
    (hsigned : m.SignedAs decision) (hi : (operations lockKey (ReviewInv host)).inv g)
    (hidle : (operations lockKey (ReviewInv host)).idle i g) (hm : m ∈ g.db.decisions) :
    (operations lockKey (ReviewInv host)).wp i (resumeRun stamps m.runId decision)
      (Ends lockKey (ReviewInv host) i fun _ _ => True) g := by
  refine rest_read hi hidle fun d g₁ hd hev hev₁ hi₁ hidle₁ => ?_
  have hmd := mem_decisions_becomes hev hm
  obtain ⟨row, hrow, hinvoice⟩ := hd.run_of_decision hmd
  have hid : row.id = m.runId := key_of_lookup hrow
  simp only [hrow]
  cases hload : RunContext.load row with
  | error e => exact rest_raise hi₁ hidle₁
  | ok run =>
    obtain ⟨hrunId, hinvoiceId⟩ := RunContext.load_ok hload
    refine wp_resume hi₁ hidle₁ ⟨m, mem_decisions_becomes hev₁ hmd, hsigned.actor, ?_, ?_, ?_⟩
    · exact (hrunId.trans hid).symm
    · exact (hinvoiceId.trans hinvoice).symm
    · obtain ⟨action, haction, rfl⟩ := hsigned.action
      exact ⟨action, haction, rfl⟩

/-- What a settled review rests on. -/
structure DecisionRow.Settles (m : DecisionRow) (d : Db) : Prop where
  decided : m ∈ d.decisions
  actor : m.actorId = ReadRole.manager.actor.val
  proposal : ∃ p ∈ d.decisions, m.supersedesId = some p.id ∧
    p.actorId = ReadRole.analyst.actor.val ∧ (m.action = .approve → p.action = .approve)
  recorded : ∃ e ∈ d.ledger, e.runId = m.runId ∧ e.eventType = reviewRecorded ∧
    ∃ action, m.action.review? = some action ∧ e.payload = (m.review action).toJson
  archived : ∃ e ∈ d.ledger, e.runId = m.runId ∧ e.eventType = workflowArchived

/-- A settled decision stays settled. -/
theorem lasting_settles (m : DecisionRow) : Lasting m.Settles :=
  fun d w h => ⟨mem_decisions_apply d w h.decided, h.actor, lasting_decision _ d w h.proposal,
    lasting_event _ d w h.recorded, lasting_event _ d w h.archived⟩

/-- The answer of `process` is that of a settled review. -/
def Settled.Sound (decisionId : Uuid) (s : Settled) (d : Db) : Prop :=
  ∃ m : DecisionRow, m.Settles d ∧ m.id = decisionId ∧ s = ⟨m.id, m.runId, m.action.settled⟩

/-- What a worker was told of a decision stays true. -/
theorem lasting_sound (decisionId : Uuid) (s : Settled) : Lasting (s.Sound decisionId) :=
  fun d w ⟨m, hm, h⟩ => ⟨m, lasting_settles m d w hm, h⟩

/-- Evidence of a run comes from its events of the type. -/
theorem mem_evidence {d : Db} {runId : Uuid} {type : Version} {payload : Json}
    (h : DecisionResumeWorker.evidenceOf ((d.eventsOf runId).filter fun e =>
      e.eventType = reviewRecorded ∨ e.eventType = workflowArchived) type = some payload) :
    ∃ e ∈ d.ledger, e.runId = runId ∧ e.eventType = type ∧ e.payload = payload := by
  obtain ⟨e, he, rfl⟩ := Option.map_eq_some_iff.mp h
  have hmem := List.mem_of_getLast? he
  simp only [Db.eventsOf, List.mem_filter, decide_eq_true_eq] at hmem
  exact ⟨e, hmem.1.1.1, hmem.1.1.2, hmem.2, rfl⟩

/-- A decision whose review and archive are both recorded is settled. -/
theorem ReviewInv.settles {d : Db} (h : ReviewInv host d) {m : DecisionRow}
    {decision : ReviewDecision} (hm : m ∈ d.decisions) (hsigned : m.SignedAs decision)
    (hrecorded : ∃ e ∈ d.ledger, e.runId = m.runId ∧ e.eventType = reviewRecorded ∧
      e.payload = decision.toJson)
    (harchived : ∃ e ∈ d.ledger, e.runId = m.runId ∧ e.eventType = workflowArchived) :
    m.Settles d := by
  obtain ⟨x, -, p, -, hdecisions, hproposes, hsigns⟩ := h.signed_of_manager hm hsigned.actor
  have hp : p ∈ d.decisionsOf x.id := by rw [hdecisions]; exact List.mem_cons_self
  obtain ⟨action, haction, rfl⟩ := hsigned.action
  obtain ⟨e, he, hrun, htype, hpayload⟩ := hrecorded
  exact ⟨hm, hsigned.actor, ⟨p, (mem_decisionsOf.mp hp).1, hsigns.supersedes, hproposes.actor,
    hsigns.approves⟩, ⟨e, he, hrun, htype, action, haction, hpayload⟩, harchived⟩

/-- The settlement of an exception, and of its run if it is still paused. -/
theorem ReviewInv.settled {d : Db} (h : ReviewInv host d) {m : DecisionRow} {x : ExceptionRow}
    (hm : m ∈ d.decisions) (hactor : m.actorId = ReadRole.manager.actor.val)
    (hx : d.exception? m.exceptionId = some x) {ws : List Write}
    (hws : ws = [] ∨ ∃ old now, d.run? m.runId = some old ∧
      ws = [.setRun { old with status := .completed, completedAt := some now }]) :
    ReviewInv host (schema.applyAll d
      ([Write.setException { x with status := m.action.settled }] ++ ws)) := by
  have hsettled := h.settle hm hactor hx
  rcases hws with rfl | ⟨old, now, hold, rfl⟩
  · exact hsettled
  · have hrun : d.run? old.id = some old := by rwa [key_of_lookup hold]
    exact @ReviewInv.setRun _ _ hsettled old _ hrun rfl rfl

/-- The rule of the settlement. -/
theorem wp_settle {m : DecisionRow} {decision : ReviewDecision} {now : Instant}
    (hsigned : m.SignedAs decision) (hi : (operations lockKey (ReviewInv host)).inv g)
    (hidle : (operations lockKey (ReviewInv host)).idle i g) (hm : m ∈ g.db.decisions) :
    (operations lockKey (ReviewInv host)).wp i
      (DecisionResumeWorker.settle m decision now : Client ι A Settled)
      (Ends lockKey (ReviewInv host) i (Settled.Sound m.id)) g := by
  refine rest_transaction (lasting_sound m.id) hi hidle fun g₁ hi₁ h₁ => ?_
  refine wp_readForUpdate hi₁ h₁ (by simp [schema]) (fails_ends _) ?_ ?_
  · exact fun d _ _ _ g' hi' h' => done_raise hi' h'
  · intro d₂ _ hev₂ run hrun g₂ hi₂ h₂
    have hrunId : run.id = m.runId := key_of_lookup hrun
    dsimp only
    by_cases hstatus : run.status ≠ .paused ∧ run.status ≠ .completed
    · rw [if_pos hstatus]
      exact done_raise hi₂ h₂
    rw [if_neg hstatus]
    refine wp_read hi₂ h₂ (fails_ends _) fun d₃ hd₃ hev₃ g₃ hi₃ h₃ => ?_
    rw [Schema.applyAll_nil]
    have hm₃ := mem_decisions_becomes hev₃ (mem_decisions_becomes hev₂ hm)
    split
    swap
    · exact done_raise hi₃ h₃
    rename_i hevidence
    obtain ⟨payload, hpayload⟩ := Option.isSome_iff_exists.mp hevidence.2
    have hsettles : m.Settles d₃ := hd₃.settles hm₃ hsigned (mem_evidence hevidence.1)
      ((mem_evidence hpayload).imp fun e he => ⟨he.1, he.2.1, he.2.2.1⟩)
    refine wp_update hi₃ h₃ (by simp [schema]) (fails_ends _) ?_ ?_
    · exact fun d _ _ _ g' hi' h' => done_raise hi' h'
    · intro d₄ _ hev₄ x hx
      refine ⟨by simp [discipline], fun g₄ hi₄ h₄ => ?_⟩
      obtain ⟨hx, -⟩ := Option.filter_eq_some_iff.mp hx
      have hxid : x.id = m.exceptionId := key_of_lookup hx
      have hend {d : Db} {ls : List Lock} {ws : List Write} (hd : ReviewInv host d)
          (hev : Becomes lockKey ls d₄ d) (hxl : .exceptionRow x.id ∈ ls)
          (hws : ws = [] ∨ ∃ old now, d.run? m.runId = some old ∧
            ws = [.setRun { old with status := .completed, completedAt := some now }]) :
          ReviewInv host (schema.applyAll d
              ([] ++ [Write.setException { x with status := m.action.settled }] ++ ws)) ∧
            Settled.Sound m.id ⟨m.id, m.runId, m.action.settled⟩ (schema.applyAll d
              ([] ++ [Write.setException { x with status := m.action.settled }] ++ ws)) := by
        have hsettles' := (lasting_settles m).becomes hev
          ((lasting_settles m).becomes hev₄ hsettles)
        have hx' : d.exception? m.exceptionId = some x :=
          (hev.guards (guards_exception? _) (hxid ▸ hxl)).trans hx
        refine ⟨hd.settled hsettles'.decided hsigned.actor hx' hws, m, ?_, rfl, rfl⟩
        exact schema.applyAll_induction (fun d w _ => lasting_settles m d w) hsettles'
      dsimp only
      split_ifs with hpaused
      · refine wp_sql hi₄ h₄ (fun d l hl => ?_) (fails_ends _) fun d₅ _ hev₅ u ws hu => ?_
        · simp only [DecisionResumeWorker.completeRun] at hl
          cases hrow : (d.run? m.runId).filter fun r => r.status = .paused with
          | none => simp [hrow] at hl
          | some row =>
            obtain rfl : l = .runRow row.id := by simpa [hrow] using hl
            rfl
        · have hws : ws = [] ∨ ∃ old, d₅.run? m.runId = some old ∧
              ws = [.setRun { old with status := .completed, completedAt := some now }] := by
            simp only [DecisionResumeWorker.completeRun] at hu
            split at hu
            · cases hu
              exact .inl rfl
            · rename_i old hold
              split_ifs at hu
              cases hu
              exact .inr ⟨old, (Option.filter_eq_some_iff.mp hold).1, rfl⟩
          have hrunRow : Lock.runRow m.runId ∈ [Lock.runRow run.id] ++
            [Lock.exceptionRow x.id] := by
            simp [hrunId]
          refine ⟨fun w hw l hl => List.mem_append_left _ ?_, fun g₅ hi₅ h₅ => ?_⟩
          · rcases hws with rfl | ⟨old, hold, rfl⟩
            · cases hw
            · obtain rfl := List.mem_singleton.mp hw
              obtain rfl : l = .runRow old.id := by simpa [discipline] using hl
              rw [key_of_lookup hold]
              exact hrunRow
          · refine done_ret (lasting_sound m.id _) hi₅ h₅ fun d hd hev => hend hd
              (hev₅.trans (hev.mono fun l hl => List.mem_append_left _ hl)) (by simp) ?_
            rcases hws with hnone | ⟨old, hold, hw⟩
            · exact .inl hnone
            · have hold' := hev.guards (guards_run? m.runId) (List.mem_append_left _ hrunRow)
              exact .inr ⟨old, now, hold'.trans hold, hw⟩
      · refine done_ret (lasting_sound m.id _) hi₄ h₄ fun d hd hev => ?_
        have := hend hd hev (by simp) (.inl rfl)
        simpa using this

/-- A sign-off that passes its check is the row's decision. -/
theorem signedAs_of_check {row : Signoff} {decision : ReviewDecision}
    (h : DecisionResumeWorker.checkSignoff row = .ok decision) :
    row.decision.SignedAs decision := by
  unfold DecisionResumeWorker.checkSignoff at h
  dsimp only at h
  split_ifs at h with hsignoff
  split at h
  · rename_i action haction
    cases h
    rw [not_or, not_not] at hsignoff
    exact ⟨hsignoff.1, action, haction, rfl⟩
  · cases h

/-- The sign-off that a read finds is a decision of the store, under its id. -/
theorem signoff?_some {d : Db} {decisionId : Uuid} {row : Signoff}
    (h : d.signoff? decisionId = some row) :
    row.decision ∈ d.decisions ∧ row.decision.id = decisionId := by
  obtain ⟨m, hm, h⟩ := Option.bind_eq_some_iff.mp h
  obtain ⟨run, -, h⟩ := Option.bind_eq_some_iff.mp h
  obtain ⟨x, -, rfl⟩ := Option.map_eq_some_iff.mp h
  exact ⟨mem_of_lookup hm, key_of_lookup hm⟩

/-- The rule of `process`, for a graph that keeps to what has been signed. -/
theorem wp_process {resume : Uuid → ReviewDecision → Client ι A InvoiceGraphState}
    {decisionId : Uuid} {now : Instant}
    (hresume : ∀ (m : DecisionRow) (decision : ReviewDecision) (g : Server ι Db Write Lock),
      m.SignedAs decision → (operations lockKey (ReviewInv host)).inv g →
      (operations lockKey (ReviewInv host)).idle i g → m ∈ g.db.decisions →
      (operations lockKey (ReviewInv host)).wp i (resume m.runId decision)
        (Ends lockKey (ReviewInv host) i fun _ _ => True) g)
    (hi : (operations lockKey (ReviewInv host)).inv g)
    (hidle : (operations lockKey (ReviewInv host)).idle i g) :
    (operations lockKey (ReviewInv host)).wp i
      (DecisionResumeWorker.process resume decisionId now)
      (Ends lockKey (ReviewInv host) i (Settled.Sound decisionId)) g := by
  refine rest_reported hi (rest_read hi hidle fun d g₁ hd _ hev₁ hi₁ hidle₁ => ?_)
  cases hfound : d.signoff? decisionId with
  | none => exact rest_raise hi₁ hidle₁
  | some row =>
    obtain ⟨hm, rfl⟩ := signoff?_some hfound
    dsimp only
    cases hcheck : DecisionResumeWorker.checkSignoff row with
    | error e => exact rest_raise hi₁ hidle₁
    | ok decision =>
      have hsigned := signedAs_of_check hcheck
      have hm₁ := mem_decisions_becomes hev₁ hm
      change (operations lockKey (ReviewInv host)).wp i
        (if row.runStatus = .paused then _ else _) _ _
      split
      · refine rest_bind_lasting (p := fun d => row.decision ∈ d.decisions)
          (fun d w => mem_decisions_apply d w) hi₁ hm₁
          (hresume _ _ _ hsigned hi₁ hidle₁ hm₁) fun result g₂ hi₂ hidle₂ hm₂ _ => ?_
        split
        · exact wp_settle hsigned hi₂ hidle₂ hm₂
        · exact rest_raise hi₂ hidle₂
      · exact wp_settle hsigned hi₁ hidle₁ hm₁

end

/-! ## The desk -/

/-- A transition no person makes. -/
def Transition.Automatic (t : Transition) : Prop :=
  isDecision t.eventType = false ∧ t.eventType ≠ reviewRecorded

/-- A transition that needs no decision is allowed in every state. -/
theorem Transition.Automatic.allowed {t : Transition} (h : t.Automatic) (d : Db) : t.Allowed d :=
  ⟨h.1, fun ht => absurd ht h.2⟩

/-- A decision, a resumed review, the triage of a run or another transition of it. -/
inductive DeskCall where
  | submit (x : Submission)
  | process (decisionId : Uuid) (stamps : ReviewStamps) (now : Instant)
  | triage (run : RunContext) (stamp : Stamp) (prepared : LiveServices.Prepared) (newId : Uuid)
      (now : Instant)
  | transition (w : LedgerWriter) (t : Transition) (automatic : t.Automatic)

/-- What a call answers. -/
inductive DeskAnswer where
  | decided (response : DecisionResponse)
  | settled (settled : Settled)
  | triaged (payload : Json)
  | done
  deriving DecidableEq

section

variable {ι : Type} [DecidableEq ι] (s : DecisionService)

/-- Any number of calls at once, each on a connection of its own. -/
def desk : System ι (Server ι Db Write Lock) Engine Exn DeskAnswer DeskCall where
  body c := match c with
    | .submit x => do
      let response ← s.submit x
      return .decided response
    | .process decisionId stamps now => do
      let settled ← DecisionResumeWorker.process (resumeRun stamps) decisionId now
      return .settled settled
    | .triage run stamp prepared newId now => do
      let payload ← LiveServices.queueException run stamp prepared newId now
      return .triaged payload
    | .transition w t _ => do
      WorkflowTransitions.appendOnce w t
      return .done
  reset i g := g.close i

/-- How a call ends. -/
def DeskPost (c : DeskCall) (i : ι) (entry : Server ι Db Write Lock) (out : Except Exn DeskAnswer)
    (g : Server ι Db Write Lock) : Prop :=
  match c with
  | .submit x => ∃ answer, out = answer.map .decided ∧ Submitted i x entry answer g
  | .process decisionId _ _ => ∀ a, out = .ok a → ∃ settled, a = .settled settled ∧
      settled.Sound decisionId g.db
  | .triage run _ _ _ _ => ∀ a, out = .ok a → ∃ payload, a = .triaged payload ∧
      run.Triaged payload g.db
  | .transition _ t _ => ∀ a, out = .ok a → t.Committed g.db

/-- Every call at the desk, from any state of the invariant, answers as its postcondition says. -/
theorem desk_verified : (desk s : System ι _ Engine Exn DeskAnswer DeskCall).Verified
    (operations s.lockKey (ReviewInv s.host)) DeskPost where
  body c i g hi hidle := by
    cases c with
    | submit x =>
      refine Protocol.wp_bind hi (Protocol.wp_mono (fun out g' hi' h => ?_) (wp_submit hi hidle))
      cases out with
      | ok response =>
        refine Protocol.wp_ret (stable_submitted g (.ok response)) hi' h fun g'' _ h'' => ?_
        exact ⟨h''.1, .ok response, rfl, h''.2⟩
      | error e => exact ⟨h.1, .error e, rfl, h.2⟩
    | process decisionId stamps now =>
      exact rest_answer (lasting_sound decisionId) hi (wp_process
        (fun m decision g' hsigned hi' hidle' hm => wp_resumeRun hsigned hi' hidle' hm) hi hidle)
    | triage run stamp prepared newId now =>
      exact rest_answer (fun _ => lasting_event _) hi (wp_queueException hi hidle)
    | transition w t automatic =>
      refine Protocol.wp_mono (fun out g' _ h => ⟨h.1, fun a ha => ?_⟩) (rest_answer
        (q := fun _ => t.Committed) (f := fun _ => DeskAnswer.done) (fun _ => lasting_event _) hi
        (wp_appendOnce hi hidle (automatic.allowed g.db)))
      obtain ⟨-, -, hcommitted⟩ := h.2 a ha
      exact hcommitted
  reset i g hi := by
    obtain ⟨hg, hi', hat⟩ := close_step hi
    exact ⟨hi', hg, hat.idle⟩

/-- From a database in which every exception is in its state, any interleaving of decisions, resumed
reviews, triages and transitions leaves it so. An exception is open and undecided, in review under
one proposal of the analyst, or signed by the manager over that proposal, and only then settled, as
the manager decided ; an approval is approved by both. The ledger has the decisions, each once and
in their order, and no review that is not signed. Every call that has ended ends as it should, and
two answers to one key are the same. -/
theorem four_eyes {d : Db} (h₀ : ReviewInv s.host d)
    {cfg : Config ι (Server ι Db Write Lock) Engine Exn DeskAnswer DeskCall}
    (h : (desk s).Reachable (Server.start d) cfg) :
    (∀ x ∈ cfg.store.db.exceptions, Reviewed x (cfg.store.db.decisionsOf x.id)) ∧
    (cfg.store.db.decisionEvents.map LedgerEvent.record =
      cfg.store.db.decisions.map (DecisionRow.record s.host)) ∧
    (∀ e ∈ cfg.store.db.ledger, e.eventType = reviewRecorded → cfg.store.db.SignedReview e) ∧
    (∃ log, IsLog schema d cfg.store log) ∧
    (∀ i t out, cfg.thread i = some t → t.rest.outcome? = some out →
      DeskPost t.call i t.entry out cfg.store) ∧
    ∀ i j t t' x x' response response', cfg.thread i = some t → cfg.thread j = some t' →
      t.call = .submit x → t'.call = .submit x' → x.idempotencyKey = x'.idempotencyKey →
      t.rest.outcome? = some (.ok (.decided response)) →
      t'.rest.outcome? = some (.ok (.decided response')) → response = response' := by
  have hv := @desk_verified ι _ s
  have hinv := (System.inv_of_reachable hv (inv_start h₀) (fun i => idle_start d) h).2
  have hpost (i t out) (ht : cfg.thread i = some t) (hout : t.rest.outcome? = some out) :
      DeskPost t.call i t.entry out cfg.store :=
    System.post_of_reachable hv (inv_start h₀) (fun i => idle_start d) h ht hout
  have hanswer (i t x response) (ht : cfg.thread i = some t) (hx : t.call = .submit x)
      (hout : t.rest.outcome? = some (.ok (.decided response))) :
      ∃ row ∈ cfg.store.db.decisions, row.idempotencyKey = x.idempotencyKey ∧
        DecisionResponse.ofRow row = .ok response := by
    have hend := hpost i t _ ht hout
    rw [hx] at hend
    obtain ⟨answer, ha, hend⟩ := hend
    cases answer with
    | error e => cases ha
    | ok r =>
      obtain rfl : response = r := by simpa [Except.map] using ha
      obtain ⟨row, hrow, hkey, -, hof⟩ := hend.answered response rfl
      exact ⟨row, hrow, hkey, hof⟩
  refine ⟨hinv.reviewed, hinv.recorded, hinv.reviews, log_of_reachable hv h₀ h, hpost, ?_⟩
  intro i j t t' x x' response response' ht ht' hx hx' hkey hout hout'
  obtain ⟨row, hrow, hrowKey, hof⟩ := hanswer i t x response ht hx hout
  obtain ⟨row', hrow', hrowKey', hof'⟩ := hanswer j t' x' response' ht' hx' hout'
  obtain rfl : row = row' := List.inj_on_of_nodup_map hinv.keys hrow hrow'
    (hrowKey.trans (hkey.trans hrowKey'.symm))
  exact Except.ok.inj (hof.symm.trans hof')

end

/-! ### A proposal and its signature -/

/-- A run that waits for its review. -/
def pausedRun : RunRow :=
  { sampleRun with status := .paused }

/-- The exception it waits with. -/
def openException : ExceptionRow where
  id := 500
  runId := 7
  invoiceId := 3
  exceptionType := "PRICE_MM"
  status := .open
  priority := 2
  slaDueAt := 0
  evidence := .obj []
  recommendation := .obj []
  createdAt := 0

/-- A store with both. -/
def reviewDb : Db :=
  { Db.empty with runs := [pausedRun], exceptions := [openException] }

/-- The sample store is within the invariant. -/
theorem reviewInv_reviewDb (host : Host) : ReviewInv host reviewDb where
  ledger := ⟨by simp [reviewDb, Db.empty], by simp [reviewDb, Db.empty, Db.eventsOf, oneTo],
    by simp [reviewDb, Db.empty], by simp [reviewDb, Db.empty]⟩
  exceptionIds := by simp [reviewDb]
  decisionIds := by simp [reviewDb, Db.empty]
  keys := by simp [reviewDb, Db.empty]
  reviewed := by
    intro x hx
    obtain rfl := List.mem_singleton.mp hx
    exact .open rfl
  known := by simp [reviewDb, Db.empty]
  recorded := by simp [reviewDb, Db.empty, Db.decisionEvents]
  reviews := by simp [reviewDb, Db.empty]

/-- The service of the sample. -/
def sampleService : DecisionService :=
  ⟨true, .sample, fun key => key.length⟩

/-- An approval, or the signature of a proposal. -/
def sampleRequest (proposalId : Option Uuid) : DecisionRequest where
  action := .approve
  rationale := "ok"
  reasonCode := "OK"
  proposalId
  rationale_ok := by decide
  reason_ok := by decide

/-- An analyst proposes it. -/
def sampleProposal : Submission :=
  ⟨500, sampleRequest none, .analyst, "p", 20, 0, 30, 0⟩

/-- A manager signs it. -/
def sampleSignature : Submission :=
  ⟨500, sampleRequest (some 20), .manager, "mm", 21, 1, 31, 1⟩

/-- The manager waits for the analyst's transaction. -/
def sampleReview : List (Event ℕ Engine DeskCall) :=
  [Event.start 0 (DeskCall.submit sampleProposal), .start 1 (.submit sampleSignature)] ++
    List.replicate 2 (Event.stmt 1 .proceed) ++ List.replicate 12 (Event.stmt 0 .proceed) ++
    List.replicate 9 (Event.stmt 1 .proceed)

set_option maxRecDepth 20000 in
/-- The sample run ends with two decisions of two people. -/
theorem sampleReview_actors :
    (((desk sampleService).replay (System.initial (Server.start reviewDb)) sampleReview).map
      fun cfg => cfg.store.db.decisions.map DecisionRow.actorId) = some
        ["maria-ap-analyst", "dan-procurement-manager"] := by
  decide +kernel

/-- The theorem applies to the sample run. -/
theorem four_eyes_sampleReview :
    ∃ cfg : Config ℕ (Server ℕ Db Write Lock) Engine Exn DeskAnswer DeskCall,
      cfg.store.db.decisions.map DecisionRow.actorId =
        ["maria-ap-analyst", "dan-procurement-manager"] ∧
      ∀ x ∈ cfg.store.db.exceptions, Reviewed x (cfg.store.db.decisionsOf x.id) := by
  obtain ⟨cfg, hcfg, hactors⟩ := Option.map_eq_some_iff.mp sampleReview_actors
  exact ⟨cfg, hactors,
    (four_eyes sampleService (reviewInv_reviewDb _) ⟨sampleReview, hcfg⟩).1⟩

end InvoiceOps
