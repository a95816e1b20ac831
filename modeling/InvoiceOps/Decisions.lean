import InvoiceOps.Calls
import InvoiceOps.AttemptStore
import InvoiceOps.Host

/-!
# Decisions on exceptions

`DecisionService.submit` takes the proposal of an analyst or the countersignature of a manager :
under the advisory lock of its idempotency key it answers a repeated request from the stored row,
and under the locks of the run and the exception it checks the request against the decisions there
are, inserts the row, takes a proposed exception into review and appends the event of the decision.

`Reviewed` is the machine of one exception with its decisions, `ReviewInv` what the database keeps.
A submission keeps it whatever the other sessions do between its statements (`wp_submit`).
-/

set_option linter.unusedSectionVars false

open Shared ReadCommitted

namespace InvoiceOps

/-! ## Requests -/

/-- The roles a session of the API may have. -/
inductive ReadRole where
  | analyst | manager | auditor
  deriving DecidableEq, Repr

/-- `_ACTORS`. -/
def ReadRole.actor : ReadRole → Version
  | .analyst => ⟨"maria-ap-analyst", by decide⟩
  | .manager => ⟨"dan-procurement-manager", by decide⟩
  | .auditor => ⟨"priya-auditor", by decide⟩

/-- Analyst and manager are two actors. -/
theorem ReadRole.actor_ne : ReadRole.manager.actor.val ≠ ReadRole.analyst.actor.val := by
  decide

/-- The decision that an action of a review is proposed as. -/
def ReviewAction.decision : ReviewAction → DecisionAction
  | .approve => .approve
  | .return => .return
  | .escalate => .escalate

/-- The action a review takes for a decision, if a review can take it. -/
def DecisionAction.review? : DecisionAction → Option ReviewAction
  | .approve => some .approve
  | .return => some .return
  | .escalate => some .escalate
  | .reject => none

@[simp] theorem DecisionAction.review?_decision (a : ReviewAction) :
    a.decision.review? = some a := by
  cases a <;> rfl

/-- `^[A-Z][A-Z0-9_]{1,63}$`. -/
def isReasonCode (s : String) : Bool :=
  match s.toList with
  | [] => false
  | c :: cs => c.isUpper && 1 ≤ cs.length && cs.length ≤ 63 &&
      cs.all fun c => c.isUpper || c.isDigit || c = '_'

/-- A request, as its schema admits it : the rationale is stripped after its length was checked. -/
structure DecisionRequest where
  action : ReviewAction
  rationale : String
  reasonCode : String
  proposalId : Option Uuid
  rationale_ok : isBlank rationale = false ∧ rationale.length ≤ 2000
  reason_ok : isReasonCode reasonCode
  deriving DecidableEq

/-- Where a decision stands : it waits for a second person, or for the worker. -/
inductive DecisionStage where
  | pendingSignoff
  | queuedForResume
  deriving DecidableEq, Repr

/-- What `submit` answers. -/
structure DecisionResponse where
  decisionId : Uuid
  exceptionId : Uuid
  runId : Uuid
  invoiceId : Uuid
  action : ReviewAction
  actorId : String
  stage : DecisionStage
  proposalId : Option Uuid
  deriving DecidableEq, Repr

/-- One call of `submit`, with the identifiers and the times it takes. -/
structure Submission where
  exceptionId : Uuid
  request : DecisionRequest
  role : ReadRole
  idempotencyKey : String
  newId : Uuid
  createdAt : Instant
  eventId : Uuid
  stamp : Instant
  deriving DecidableEq

/-! ## Tables -/

namespace DecisionRow

/-- The columns with the `_nonblank` constraint. -/
def texts (row : DecisionRow) : List String :=
  [row.idempotencyKey, row.rationale, row.reasonCode, row.actorId, row.versions.graphVersion.val,
    row.versions.modelVersion.val, row.versions.promptVersion.val, row.versions.policyVersion.val]

end DecisionRow

namespace Db

/-- `decisions` by primary key. -/
def decision? (d : Db) (id : Uuid) : Option DecisionRow :=
  lookup DecisionRow.id d.decisions id

/-- `decisions` by idempotency key. -/
def decisionByKey? (d : Db) (key : String) : Option DecisionRow :=
  lookup DecisionRow.idempotencyKey d.decisions key

/-- The decisions on an exception, in the order they were committed. -/
def decisionsOf (d : Db) (exceptionId : Uuid) : List DecisionRow :=
  d.decisions.filter fun row => row.exceptionId = exceptionId

/-- The exception joined with its run. -/
def underReview? (d : Db) (exceptionId : Uuid) : Option (ExceptionRow × RunRow) :=
  (d.exception? exceptionId).bind fun x => (d.run? x.runId).map fun run => (x, run)

/-- The constraint of the decisions an insert of `row` breaks. No text column takes a NUL. -/
def decisionConflict (d : Db) (row : DecisionRow) : Option String :=
  if row.texts.any hasNul then some "decisions"
  else if row.idempotencyKey.length > 128 then some "idempotency_key"
  else if row.texts.any fun s => s.toList.all (· = ' ') then some "ck_decisions_nonblank"
  else if (d.decision? row.id).isSome then some "decisions_pkey"
  else if (d.decisionByKey? row.idempotencyKey).isSome then some "uq_decisions_idempotency_key"
  else if (d.run? row.runId).map RunRow.invoiceId ≠ some row.invoiceId then
    some "fk_decisions_run_invoice"
  else if (d.exception? row.exceptionId).map (fun x => (x.runId, x.invoiceId)) ≠
      some (row.runId, row.invoiceId) then some "fk_decisions_exception_run_invoice"
  else if row.supersedesId.any fun id => (d.decision? id).isNone then
    some "decisions_supersedes_id_fkey"
  else none

end Db

/-- `ORDER BY created_at, id`. -/
def inDecisionOrder (a b : DecisionRow) : Prop :=
  a.createdAt < b.createdAt ∨ a.createdAt = b.createdAt ∧ a.id ≤ b.id

instance (a b : DecisionRow) : Decidable (inDecisionOrder a b) :=
  inferInstanceAs (Decidable (_ ∨ _))

/-! ## The service -/

/-- The version of the policy that decisions are made under. -/
def fourEyes : Version := ⟨"four-eyes@v1", by decide⟩

/-- The type of the event of an analyst's decision. -/
def decisionProposed : Version := ⟨"decision.proposed", by decide⟩

/-- The type of the event of a manager's decision. -/
def decisionAccepted : Version := ⟨"decision.accepted", by decide⟩

/-- The node the events of decisions are under. -/
def humanDecision : Version := ⟨"HumanDecision", by decide⟩

/-- `_response`. -/
def DecisionResponse.ofRow (row : DecisionRow) : Except Exn DecisionResponse :=
  match row.action.review? with
  | none => .error (.new .validationError "DecisionResponse")
  | some action => .ok {
      decisionId := row.id
      exceptionId := row.exceptionId
      runId := row.runId
      invoiceId := row.invoiceId
      action
      actorId := row.actorId
      stage := if row.actorId = ReadRole.analyst.actor.val then .pendingSignoff
        else .queuedForResume
      proposalId := row.supersedesId }

/-- The row holds the decision the submission asks for. -/
structure DecisionRow.Answers (row : DecisionRow) (x : Submission) : Prop where
  exceptionId : row.exceptionId = x.exceptionId
  action : row.action = x.request.action.decision
  rationale : row.rationale = x.request.rationale
  reasonCode : row.reasonCode = x.request.reasonCode
  actorId : row.actorId = x.role.actor.val
  proposalId : row.supersedesId = x.request.proposalId

instance (row : DecisionRow) (x : Submission) : Decidable (row.Answers x) :=
  decidable_of_iff
    (row.exceptionId = x.exceptionId ∧ row.action = x.request.action.decision ∧
      row.rationale = x.request.rationale ∧ row.reasonCode = x.request.reasonCode ∧
      row.actorId = x.role.actor.val ∧ row.supersedesId = x.request.proposalId)
    ⟨fun ⟨h₁, h₂, h₃, h₄, h₅, h₆⟩ => ⟨h₁, h₂, h₃, h₄, h₅, h₆⟩,
      fun h => ⟨h.1, h.2, h.3, h.4, h.5, h.6⟩⟩

/-- `DecisionConflict(...)`. -/
def decisionConflict (detail : String) : Exn :=
  .new .decisionConflict detail

/-- The answer to a key that has a decision. -/
def replayed (x : Submission) (existing : DecisionRow) : Except Exn DecisionResponse :=
  if existing.Answers x then DecisionResponse.ofRow existing
  else .error (decisionConflict "Idempotency key belongs to a different decision")

/-- What an analyst may propose. -/
def checkProposal (x : Submission) (status : ExceptionStatus) (decisions : List DecisionRow) :
    Except Exn Unit :=
  if x.request.proposalId ≠ none then
    .error (decisionConflict "Analyst proposals cannot countersign a decision")
  else if decisions ≠ [] then
    .error (decisionConflict "Exception already has a decision proposal")
  else if status ≠ .open then
    .error (decisionConflict "Exception is not open for an analyst proposal")
  else .ok ()

/-- What a manager may sign. -/
def checkSignoff (x : Submission) (status : ExceptionStatus) (decisions : List DecisionRow) :
    Except Exn Unit :=
  match x.request.proposalId, decisions with
  | some id, [proposal] =>
    if proposal.id ≠ id ∨ proposal.actorId ≠ ReadRole.analyst.actor.val ∨
        proposal.supersedesId ≠ none then
      .error (decisionConflict "Manager signoff does not match the analyst proposal")
    else if x.request.action = .approve ∧ proposal.action ≠ .approve then
      .error (decisionConflict "Approval requires an analyst approval proposal")
    else if status ≠ .inReview then
      .error (decisionConflict "Exception proposal is no longer in review")
    else .ok ()
  | _, _ => .error (decisionConflict "Manager signoff requires one analyst proposal")

/-- The checks of a request that has no decision yet. -/
def checkDecision (x : Submission) (row : ExceptionRow) (run : RunRow)
    (decisions : List DecisionRow) : Except Exn Unit :=
  if run.status ≠ .paused ∨ row.status ≠ .open ∧ row.status ≠ .inReview then
    .error (decisionConflict "Exception is not awaiting a human decision")
  else if x.role = .analyst then checkProposal x row.status decisions
  else checkSignoff x row.status decisions

namespace Submission

variable (x : Submission)

/-- The versions a decision is pinned to. -/
def pins (graph : Version) : VersionPins :=
  ⟨graph, notApplicable, notApplicable, fourEyes⟩

/-- The row of the decision. -/
def decided (row : ExceptionRow) (graph : Version) : DecisionRow where
  id := x.newId
  runId := row.runId
  invoiceId := row.invoiceId
  exceptionId := x.exceptionId
  idempotencyKey := x.idempotencyKey
  action := x.request.action.decision
  rationale := x.request.rationale
  reasonCode := x.request.reasonCode
  actorId := x.role.actor.val
  versions := pins graph
  supersedesId := x.request.proposalId
  createdAt := x.createdAt

/-- The response to a new decision. -/
def response (row : ExceptionRow) : DecisionResponse where
  decisionId := x.newId
  exceptionId := x.exceptionId
  runId := row.runId
  invoiceId := row.invoiceId
  action := x.request.action
  actorId := x.role.actor.val
  stage := if x.role = .analyst then .pendingSignoff else .queuedForResume
  proposalId := x.request.proposalId

/-- The ledger the decision is recorded in. -/
def writer (graph : Version) : LedgerWriter :=
  ⟨pins graph, x.eventId, x.stamp⟩

end Submission

/-- The event type and the payload of a decision. -/
def DecisionRow.eventType (row : DecisionRow) : Version :=
  if row.actorId = ReadRole.analyst.actor.val then decisionProposed else decisionAccepted

/-- The value of an action. -/
def DecisionAction.text : DecisionAction → String
  | .approve => "APPROVE"
  | .return => "RETURN"
  | .escalate => "ESCALATE"
  | .reject => "REJECT"

/-- The payload of the event of a decision. -/
def DecisionRow.payload (host : Host) (row : DecisionRow) : Json :=
  .obj [("decision_id", .str (host.printUuid row.id)),
    ("exception_id", .str (host.printUuid row.exceptionId)),
    ("action", .str row.action.text), ("rationale", .str row.rationale),
    ("reason_code", .str row.reasonCode),
    ("proposal_id", .ofOption (row.supersedesId.map host.printUuid))]

/-- The command that records a decision. -/
def Submission.command (host : Host) (x : Submission) (row : DecisionRow) : AppendEvent where
  runId := row.runId
  invoiceId := row.invoiceId
  eventType := if x.role = .analyst then decisionProposed else decisionAccepted
  actorType := .human
  actorId := x.role.actor
  payload := row.payload host
  node := some humanDecision
  versions := some { policyVersion := some fourEyes }

/-- `DecisionService`, with the identifiers of its host and the hash of its lock. -/
structure DecisionService where
  /-- `settings.postgres_dsn is not None`. -/
  configured : Bool
  host : Host
  lockKey : String → ℤ

namespace DecisionService

variable {ι A : Type} [DecidableEq ι] (s : DecisionService) (x : Submission)

/-- `pg_advisory_xact_lock`, of the key's hash. -/
def lockKeyOf : Sql Db Write Lock Unit :=
  .lock [.advisory (s.lockKey ("decision:" ++ x.idempotencyKey))]

/-- The join `FOR UPDATE OF r, e`. -/
def selectException (exceptionId : Uuid) : Sql Db Write Lock (Option (ExceptionRow × RunRow)) :=
  .readForUpdate (fun d => d.underReview? exceptionId)
    fun x => [.runRow x.2.id, .exceptionRow x.1.id]

/-- The decisions on an exception, the oldest first. -/
def selectDecisions (exceptionId : Uuid) : Sql Db Write Lock (List DecisionRow) :=
  .read fun d => (d.decisionsOf exceptionId).insertionSort inDecisionOrder

/-- The insert of a decision, with the constraints it may break. -/
def insertDecisionRow (row : DecisionRow) : Sql Db Write Lock Unit :=
  .insert (fun d => d.decisionConflict row) [.decisionPk row.id, .decisionKey row.idempotencyKey]
    (.insertDecision row)

/-- `UPDATE public.exceptions SET status = 'IN_REVIEW' WHERE id = %s`. -/
def setInReview (exceptionId : Uuid) : Sql Db Write Lock (Option ExceptionRow) :=
  .update (fun d => d.exception? exceptionId) (fun row => [.exceptionRow row.id])
    fun row => .setException { row with status := .inReview }

/-- From the insert of the decision on. -/
def record (row : ExceptionRow) (run : RunRow) (graph : Version) : Client ι A DecisionResponse := do
  sql schema (insertDecisionRow (x.decided row graph))
  if x.role = .analyst then
    let _ ← sql schema (setInReview x.exceptionId)
  let _ ← (x.writer graph).append (x.command s.host (x.decided row graph)) run.traceId
  return x.response row

/-- The transaction of a submission. -/
def body : Client ι A DecisionResponse := do
  sql schema (s.lockKeyOf x)
  let existing ← sql schema (.read fun d => d.decisionByKey? x.idempotencyKey)
  match existing with
  | some existing => Prog.ofExcept (replayed x existing)
  | none => do
    let found ← sql schema (selectException x.exceptionId)
    match found with
    | none => throw (.new .decisionNotFound "Exception does not exist")
    | some (row, run) => do
      let decisions ← sql schema (selectDecisions x.exceptionId)
      Prog.ofExcept (checkDecision x row run decisions)
      -- the settings of the writer hold the graph version as a `Version`
      match Version.ofString? run.graphVersion with
      | none => throw (.new .validationError "LedgerSettings")
      | some graph => s.record x row run graph

/-- What a failure of the transaction is reported as. -/
def reported (error : Exn) : Exn :=
  if error.isInstance .decisionError then error
  else if error.isInstance .psycopgError ∨ error.isInstance .ledgerError then
    .chained .decisionUnavailable "Decision persistence failed" error
  else error

/-- `submit`. -/
def submit : Client ι A DecisionResponse :=
  if x.role = .auditor then
    throw (decisionConflict "Auditors cannot make exception decisions")
  else if s.configured then
    (transaction schema (s.body x)).tryCatch fun error => throw (reported error)
  else throw (.new .decisionUnavailable "Decision persistence is not configured")

end DecisionService

/-! ## What the locks guard -/

section

variable {lockKey : String → ℤ}

/-- Only a holder of an exception's row lock writes the row. -/
theorem guards_exception? (id : Uuid) :
    Guards schema (discipline lockKey) (.exceptionRow id) fun d => d.exception? id where
  frame d w hw := by
    cases w with
    | insertException r => exact lookup_append_of_ne (by rintro rfl; simp [discipline] at hw)
    | setException r => exact lookup_replace_of_ne (by rintro rfl; simp [discipline] at hw)
    | _ => rfl
  congr d d' w h := by
    cases w with
    | insertException r =>
      simp only [Db.exception?] at h
      simp only [schema, Db.apply, Db.exception?, lookup_append, h]
    | setException r =>
      simp only [Db.exception?] at h
      simp only [schema, Db.apply, Db.exception?, lookup_replace, h]
    | _ => exact h

/-- Nor does anyone else record a decision on it. -/
theorem guards_decisionsOf (id : Uuid) :
    Guards schema (discipline lockKey) (.exceptionRow id) fun d => d.decisionsOf id where
  frame d w hw := by
    cases w with
    | insertDecision r =>
      have hne : r.exceptionId ≠ id := by rintro rfl; simp [discipline] at hw
      simp [schema, Db.apply, Db.decisionsOf, List.filter_append, hne]
    | _ => rfl
  congr d d' w h := by
    cases w with
    | insertDecision r =>
      simp only [Db.decisionsOf] at h
      simp only [schema, Db.apply, Db.decisionsOf, List.filter_append, h]
    | _ => exact h

/-- Whoever inserts a decision holds its primary key. -/
theorem guards_decision? (id : Uuid) :
    Guards schema (discipline lockKey) (.decisionPk id) fun d => d.decision? id where
  frame d w hw := by
    cases w with
    | insertDecision r => exact lookup_append_of_ne (by rintro rfl; simp [discipline] at hw)
    | _ => rfl
  congr d d' w h := by
    cases w with
    | insertDecision r =>
      simp only [Db.decision?] at h
      simp only [schema, Db.apply, Db.decision?, lookup_append, h]
    | _ => exact h

/-- Whoever uses an idempotency key holds its advisory lock. -/
theorem guards_decisionByKey? (key : String) :
    Guards schema (discipline lockKey) (.advisory (lockKey ("decision:" ++ key)))
      fun d => d.decisionByKey? key where
  frame d w hw := by
    cases w with
    | insertDecision r => exact lookup_append_of_ne (by rintro rfl; simp [discipline] at hw)
    | _ => rfl
  congr d d' w h := by
    cases w with
    | insertDecision r =>
      simp only [Db.decisionByKey?] at h
      simp only [schema, Db.apply, Db.decisionByKey?, lookup_append, h]
    | _ => exact h

end

/-! ## The machine of an exception -/

/-- The analyst's proposal for an exception. -/
structure DecisionRow.Proposes (p : DecisionRow) (x : ExceptionRow) : Prop where
  run : p.runId = x.runId
  invoice : p.invoiceId = x.invoiceId
  actor : p.actorId = ReadRole.analyst.actor.val
  first : p.supersedesId = none

/-- The manager's decision over a proposal. -/
structure DecisionRow.Signs (m p : DecisionRow) (x : ExceptionRow) : Prop where
  run : m.runId = x.runId
  invoice : m.invoiceId = x.invoiceId
  actor : m.actorId = ReadRole.manager.actor.val
  supersedes : m.supersedesId = some p.id
  approves : m.action = .approve → p.action = .approve

/-- The status a signed decision settles its exception in. -/
def DecisionAction.settled : DecisionAction → ExceptionStatus
  | .escalate => .escalated
  | _ => .resolved

/-- The states of an exception with the decisions on it. -/
inductive Reviewed (x : ExceptionRow) : List DecisionRow → Prop
  | «open» (status : x.status = .open) : Reviewed x []
  | proposed {p : DecisionRow} (proposes : p.Proposes x) (status : x.status = .inReview) :
      Reviewed x [p]
  | signed {p m : DecisionRow} (proposes : p.Proposes x) (signs : m.Signs p x)
      (status : x.status = .inReview ∨ x.status = m.action.settled) : Reviewed x [p, m]

/-- One proposal and at most one approval. -/
theorem Reviewed.length_le {x : ExceptionRow} {decisions : List DecisionRow}
    (h : Reviewed x decisions) : decisions.length ≤ 2 := by
  cases h <;> simp

/-- What the ledger holds of a decision. -/
structure DecisionRecord where
  runId : Uuid
  invoiceId : Uuid
  eventType : Version
  actorId : String
  payload : Json

/-- What the event of a decision says. -/
def DecisionRow.record (host : Host) (row : DecisionRow) : DecisionRecord :=
  ⟨row.runId, row.invoiceId, row.eventType, row.actorId, row.payload host⟩

/-- What an event says. -/
def LedgerEvent.record (e : LedgerEvent) : DecisionRecord :=
  ⟨e.runId, e.invoiceId, e.eventType, e.actorId.val, e.payload⟩

/-- The event is a decision's. -/
def isDecision (type : Version) : Bool :=
  type = decisionProposed || type = decisionAccepted

/-- The events of decisions, in the order they were committed. -/
def Db.decisionEvents (d : Db) : List LedgerEvent :=
  d.ledger.filter fun e => isDecision e.eventType

/-- The type of the event of a finished review. -/
def reviewRecorded : Version := ⟨"review.recorded", by decide⟩

/-- `ReviewDecision` of a row. -/
def DecisionRow.review (row : DecisionRow) (action : ReviewAction) : ReviewDecision :=
  ⟨action, row.actorId, row.rationale, row.reasonCode⟩

/-- `e` records a review that a manager has signed on the exception of its run. -/
def Db.SignedReview (d : Db) (e : LedgerEvent) : Prop :=
  ∃ x ∈ d.exceptions, ∃ p m action, d.decisionsOf x.id = [p, m] ∧ x.runId = e.runId ∧
    x.invoiceId = e.invoiceId ∧ m.action.review? = some action ∧
    e.payload = (m.review action).toJson

/-- What the database keeps of the reviews. -/
structure ReviewInv (host : Host) (d : Db) : Prop where
  ledger : LedgerInv d
  exceptionIds : (d.exceptions.map ExceptionRow.id).Nodup
  decisionIds : (d.decisions.map DecisionRow.id).Nodup
  keys : (d.decisions.map DecisionRow.idempotencyKey).Nodup
  reviewed : ∀ x ∈ d.exceptions, Reviewed x (d.decisionsOf x.id)
  known : ∀ row ∈ d.decisions, ∃ x ∈ d.exceptions, x.id = row.exceptionId
  recorded : d.decisionEvents.map LedgerEvent.record = d.decisions.map (DecisionRow.record host)
  reviews : ∀ e ∈ d.ledger, e.eventType = reviewRecorded → d.SignedReview e

namespace ReviewInv

variable {host : Host} {d d' : Db} {x : ExceptionRow} {row : DecisionRow}

/-- The decisions on an exception are those that name it. -/
theorem mem_decisionsOf {id : Uuid} :
    row ∈ d.decisionsOf id ↔ row ∈ d.decisions ∧ row.exceptionId = id := by
  simp [Db.decisionsOf]

/-- A row that is found under its own id is a row of the queue. -/
theorem exception?_mem (hx : d.exception? x.id = some x) : x ∈ d.exceptions :=
  mem_of_lookup hx

/-- The database after a decision : its row, the exception as it leaves it, and its event. -/
def decided (d : Db) (row : DecisionRow) (x : ExceptionRow) (e : LedgerEvent) : Db :=
  { d with
    decisions := d.decisions ++ [row]
    exceptions := replace ExceptionRow.id d.exceptions x
    ledger := d.ledger ++ [e] }

/-- A decision joins those on its own exception. -/
theorem decisionsOf_decided {x' : ExceptionRow} {e : LedgerEvent} (id : Uuid) :
    (decided d row x' e).decisionsOf id =
      d.decisionsOf id ++ if row.exceptionId = id then [row] else [] := by
  by_cases h : row.exceptionId = id <;>
    simp [Db.decisionsOf, decided, List.filter_append, h]

/-- The event of a decision is one of the two kinds. -/
theorem isDecision_eventType (row : DecisionRow) : isDecision row.eventType := by
  unfold DecisionRow.eventType isDecision
  split <;> simp

/-- A decision that fits its exception keeps the invariant. -/
theorem decide (h : ReviewInv host d) (hx : d.exception? x.id = some x)
    (hrow : row.exceptionId = x.id) (hid : d.decision? row.id = none)
    (hkey : d.decisionByKey? row.idempotencyKey = none) {x' : ExceptionRow} (hx' : x'.id = x.id)
    (hreviewed : Reviewed x' (d.decisionsOf x.id ++ [row])) {e : LedgerEvent}
    (hledger : LedgerInv (decided d row x' e)) (hrecord : e.record = row.record host) :
    ReviewInv host (decided d row x' e) := by
  have hmem := exception?_mem hx
  have htype : e.eventType = row.eventType := congrArg DecisionRecord.eventType hrecord
  refine ⟨hledger, ?_, nodup_snoc h.decisionIds (lookup_eq_none.mp hid),
    nodup_snoc h.keys (lookup_eq_none.mp hkey), fun y hy => ?_, fun r hr => ?_, ?_,
    fun e' he' ht => ?_⟩
  · simpa [decided] using h.exceptionIds
  · rw [decisionsOf_decided]
    rcases mem_replace.mp hy with ⟨hy, hne⟩ | ⟨rfl, -⟩
    · rw [if_neg (by rw [hrow, ← hx']; exact hne.symm), List.append_nil]
      exact h.reviewed y hy
    · rw [if_pos (hrow.trans hx'.symm), hx']
      exact hreviewed
  · have hkept : ∀ y ∈ d.exceptions, ∃ z ∈ (decided d row x' e).exceptions, z.id = y.id := by
      intro y hy
      by_cases hyx : y.id = x'.id
      · exact ⟨x', mem_replace.mpr (.inr ⟨rfl, y, hy, hyx⟩), hyx.symm⟩
      · exact ⟨y, mem_replace.mpr (.inl ⟨hy, hyx⟩), rfl⟩
    rcases List.mem_append.mp hr with hr | hr
    · obtain ⟨y, hy, hyr⟩ := h.known r hr
      obtain ⟨z, hz, hzy⟩ := hkept y hy
      exact ⟨z, hz, hzy.trans hyr⟩
    · obtain ⟨z, hz, hzx⟩ := hkept x hmem
      rw [List.mem_singleton.mp hr]
      exact ⟨z, hz, hzx.trans hrow.symm⟩
  · have hfilter : [e].filter (fun e => isDecision e.eventType) = [e] := by
      simp [htype, isDecision_eventType]
    have hrecorded := h.recorded
    unfold Db.decisionEvents at hrecorded ⊢
    simp only [decided, List.filter_append, List.map_append, hrecorded, hfilter, List.map_cons,
      List.map_nil, hrecord]
  · -- a signed exception takes no further decision
    have hold : e' ∈ d.ledger := by
      rcases List.mem_append.mp he' with he' | he'
      · exact he'
      · have hdecision := isDecision_eventType row
        rw [← htype, ← List.mem_singleton.mp he', ht] at hdecision
        exact absurd hdecision (by decide)
    obtain ⟨y, hy, p, m, action, hdecisions, hrun, hinvoice, haction, hpayload⟩ :=
      h.reviews e' hold ht
    have hne : y.id ≠ x.id := by
      intro hyx
      have := hreviewed.length_le
      rw [← hyx, hdecisions] at this
      simp at this
    refine ⟨y, mem_replace.mpr (.inl ⟨hy, hx' ▸ hne⟩), p, m, action, ?_, hrun, hinvoice, haction,
      hpayload⟩
    rw [decisionsOf_decided, if_neg (by rw [hrow]; exact hne.symm), List.append_nil]
    exact hdecisions

end ReviewInv

/-! ## Submissions keep the invariant -/

/-- What a submission commits. -/
def Submission.writes (x : Submission) (row : ExceptionRow) (graph : Version) (e : LedgerEvent) :
    List Write :=
  Write.insertDecision (x.decided row graph) ::
    (if x.role = .analyst then [Write.setException { row with status := .inReview }] else []) ++
    [Write.insertEvent e]

/-- The exception as a submission leaves it. -/
def Submission.left (x : Submission) (row : ExceptionRow) : ExceptionRow :=
  if x.role = .analyst then { row with status := .inReview } else row

/-- Replacing a row by itself changes nothing if the keys are distinct. -/
theorem replace_self {ρ κ : Type} [DecidableEq κ] {key : ρ → κ} {rows : List ρ} {row : ρ}
    (hd : (rows.map key).Nodup) (h : row ∈ rows) : replace key rows row = rows := by
  unfold replace
  rw [List.map_congr_left (g := id), List.map_id]
  intro r hr
  split_ifs with hk
  · exact (List.inj_on_of_nodup_map hd hr h hk).symm
  · rfl

/-- A decision that conflicts with nothing has a new id. -/
theorem fresh_of_decisionConflict {d : Db} {row : DecisionRow} (h : d.decisionConflict row = none) :
    d.decision? row.id = none := by
  by_contra hne
  have hsome := Option.ne_none_iff_isSome.mp hne
  simp only [Db.decisionConflict, hsome, if_true] at h
  split_ifs at h

/-- The actor tells the role. -/
theorem ReadRole.actor_eq_iff (role : ReadRole) :
    role.actor.val = ReadRole.analyst.actor.val ↔ role = .analyst := by
  cases role <;> decide

/-- The event is a proposal for an analyst, an approval for a manager. -/
theorem Submission.eventType_decided (x : Submission) (row : ExceptionRow) (graph : Version) :
    (x.decided row graph).eventType =
      if x.role = .analyst then decisionProposed else decisionAccepted := by
  unfold DecisionRow.eventType Submission.decided
  exact if_congr x.role.actor_eq_iff rfl rfl

/-- The writes of a submission take the store to the one with its decision. -/
theorem Submission.applyAll_writes {host : Host} {d : Db} (hd : ReviewInv host d)
    (x : Submission) {row : ExceptionRow} (hrow : row ∈ d.exceptions) (graph : Version)
    (e : LedgerEvent) : schema.applyAll d (x.writes row graph e) =
      ReviewInv.decided d (x.decided row graph) (x.left row) e := by
  unfold Submission.writes Submission.left
  split_ifs with hrole
  · rfl
  · rw [ReviewInv.decided, replace_self hd.exceptionIds hrow]
    rfl

section

variable {ι A : Type} [DecidableEq ι] {s : DecisionService} {i : ι} {x : Submission}
  {row : ExceptionRow} {run : RunRow} {graph : Version} {wrote : List Write} {ls : List Lock}
  {d₀ : Db} {g : Server ι Db Write Lock}
  {Q : Except Exn DecisionResponse → Server ι Db Write Lock → Prop}

/-- What has been checked when a decision is recorded, with the locks it was checked under. -/
structure Checked (s : DecisionService) (x : Submission) (row : ExceptionRow) (graph : Version)
    (ls : List Lock) (d : Db) : Prop where
  exception : d.exception? x.exceptionId = some row
  reviewed : Reviewed (x.left row) (d.decisionsOf x.exceptionId ++ [x.decided row graph])
  key : d.decisionByKey? x.idempotencyKey = none
  runLock : Lock.runRow row.runId ∈ ls
  exceptionLock : Lock.exceptionRow x.exceptionId ∈ ls
  keyLock : Lock.advisory (s.lockKey ("decision:" ++ x.idempotencyKey)) ∈ ls

/-- What was checked under the row lock holds until the lock is given up. -/
theorem Checked.becomes {d d' : Db} {ls' : List Lock} (h : Checked s x row graph ls d)
    (hd : Becomes s.lockKey ls d d') (hls : ∀ l ∈ ls, l ∈ ls') :
    Checked s x row graph ls' d' where
  exception := (hd.guards (guards_exception? _) h.exceptionLock).trans h.exception
  reviewed := by
    rw [hd.guards (guards_decisionsOf _) h.exceptionLock]
    exact h.reviewed
  key := (hd.guards (guards_decisionByKey? _) h.keyLock).trans h.key
  runLock := hls _ h.runLock
  exceptionLock := hls _ h.exceptionLock
  keyLock := hls _ h.keyLock

/-- A checked decision with its event keeps the invariant. -/
theorem Checked.keeps {d : Db} (h : Checked s x row graph ls d) (hd : ReviewInv s.host d)
    (hid : d.decision? x.newId = none) {e : LedgerEvent} {d₁ : Db} (hledger : d₁.ledger = d.ledger)
    (hruns : d₁.runs = d.runs)
    (ha : (x.writer graph).Appended (x.command s.host (x.decided row graph)) d₁ e) :
    ReviewInv s.host (schema.applyAll d (x.writes row graph e)) := by
  have hrowId : row.id = x.exceptionId := key_of_lookup h.exception
  have hrow : row ∈ d.exceptions := mem_of_lookup h.exception
  rw [x.applyAll_writes hd hrow]
  refine hd.decide (x := row) (by rw [hrowId]; exact h.exception) hrowId.symm hid h.key ?_ ?_ ?_ ?_
  · unfold Submission.left
    split_ifs <;> rfl
  · rw [hrowId]
    exact h.reviewed
  · have h₁ : LedgerInv d₁ := hd.ledger.congr hledger fun r run hrun =>
      ⟨run, by rw [Db.run?, hruns]; exact hrun, rfl, rfl⟩
    refine (h₁.append ha).congr ?_ fun r run hrun => ⟨run, ?_, rfl, rfl⟩
    · simp [ReviewInv.decided, Db.apply, hledger]
    · rw [← hrun]
      simp [Db.run?, ReviewInv.decided, Db.apply, hruns]
  · rw [ha.event, DecisionRow.record, x.eventType_decided]
    rfl

/-- From the event of a decision on. -/
theorem wp_recorded {ws : List Write} (hi : (operations s.lockKey (ReviewInv s.host)).inv g)
    (h : Knows s.lockKey i ⟨.inTrans, ws, wrote⟩ [] ls d₀ g)
    (hws : ∀ e, ws ++ [Write.insertEvent e] = x.writes row graph e)
    (hledger : ∀ d, (schema.applyAll d ws).ledger = d.ledger ∧ (schema.applyAll d ws).runs = d.runs)
    (hchecked : Checked s x row graph ls d₀) (hid : d₀.decision? x.newId = none)
    (hidLock : Lock.decisionPk x.newId ∈ ls)
    (herr : ∀ e d g', Knows s.lockKey i ⟨.idle, [], wrote⟩ [] [] d g' → Q (.error e) g')
    (hok : ∀ e d g', Knows s.lockKey i ⟨.idle, [], wrote ++ x.writes row graph e⟩ [] []
      (schema.applyAll d (x.writes row graph e)) g' → Q (.ok (x.response row)) g') :
    (operations s.lockKey (ReviewInv s.host)).wp i (do
      let _ ← (x.writer graph).append (x.command s.host (x.decided row graph)) run.traceId
      return x.response row : Client ι A DecisionResponse)
      (Done schema (discipline s.lockKey) (ReviewInv s.host) i wrote [] Q) g := by
  refine Protocol.wp_bind hi (wp_append hi h ?_ ?_ ?_)
  · exact fun e g' _ h' => ⟨_, _, _, _, h', fun g'' h'' => herr e _ g'' h''⟩
  · exact fun e g' _ h' => ⟨_, _, _, _, h', fun g'' h'' => herr e _ g'' h''⟩
  · intro e d _ hev ha g' hi' h'
    refine wp_ret hi' h' fun g₁ hi₁ h₁ => ⟨_, _, _, _, h₁, .inl rfl, fun d' hd' hev' => ?_⟩
    have hev₀ : Becomes s.lockKey ls d₀ d' := hev.trans (hev'.mono (by simp +contextual))
    have hmem (l : Lock) (hl : l ∈ LedgerWriter.locks e) : l ∈ [] ++ (ls ++ LedgerWriter.locks e) :=
      List.mem_append_right _ (List.mem_append_right _ hl)
    have ha' : (x.writer graph).Appended (x.command s.host (x.decided row graph))
        (schema.applyAll d' ws) e :=
      ha.congr (hev'.guards_view (guards_run? _) (hmem _ (by simp [LedgerWriter.locks])) ws)
        (hev'.guards_view (guards_eventsOf _) (hmem _ (by simp [LedgerWriter.locks])) ws)
        (hev'.guards_view (guards_event? _) (hmem _ (by simp [LedgerWriter.locks])) ws)
    have hid' : d'.decision? x.newId = none :=
      (hev₀.guards (guards_decision? _) hidLock).trans hid
    rw [hws e]
    exact ⟨(hchecked.becomes hev₀ fun _ h => h).keeps hd' hid' (hledger d').1 (hledger d').2 ha',
      fun g'' h'' => hok e d' g'' h'', fun e' g'' h'' => herr _ _ g'' h''⟩

/-- The rule of the insert of a checked decision, with what follows it. -/
theorem wp_record (hi : (operations s.lockKey (ReviewInv s.host)).inv g)
    (h : Knows s.lockKey i ⟨.inTrans, [], wrote⟩ [] ls d₀ g)
    (hchecked : Checked s x row graph ls d₀)
    (herr : ∀ e d g', Knows s.lockKey i ⟨.idle, [], wrote⟩ [] [] d g' → Q (.error e) g')
    (hok : ∀ e d g', Knows s.lockKey i ⟨.idle, [], wrote ++ x.writes row graph e⟩ [] []
      (schema.applyAll d (x.writes row graph e)) g' → Q (.ok (x.response row)) g') :
    (operations s.lockKey (ReviewInv s.host)).wp i
      (s.record x row run graph : Client ι A DecisionResponse)
      (Done schema (discipline s.lockKey) (ReviewInv s.host) i wrote [] Q) g := by
  have hfails : Fails s.lockKey (ReviewInv s.host) i wrote [] d₀
      (Done schema (discipline s.lockKey) (ReviewInv s.host) i wrote [] Q) :=
    fun e g' _ h' => ⟨_, _, _, _, h', fun g'' h'' => herr _ _ g'' h''⟩
  unfold DecisionService.record
  refine wp_insert hi h (by simp [schema]) ?_ hfails ?_
  · have := hchecked.exceptionLock
    have := hchecked.keyLock
    simp [discipline, Submission.decided, *]
  · intro d₁ _ hev₁ hconflict g₁ hi₁ h₁
    have hid : d₁.decision? x.newId = none := fresh_of_decisionConflict hconflict
    have hchecked₁ :
      Checked s x row graph (ls ++ [Lock.decisionPk x.newId, .decisionKey x.idempotencyKey]) d₁ :=
      hchecked.becomes hev₁ fun _ h => List.mem_append_left _ h
    have hfails₁ := hfails.since hev₁
    by_cases hrole : x.role = .analyst
    · rw [if_pos hrole]
      refine wp_update hi₁ h₁ (by simp [schema]) hfails₁ ?_ ?_
      · intro d₂ _ hev₂ hnone
        have hview : (schema.applyAll d₂ [.insertDecision (x.decided row graph)]).exception?
          x.exceptionId = d₂.exception? x.exceptionId := rfl
        have hsome := (hchecked₁.becomes hev₂ fun _ h => h).exception
        rw [List.nil_append, hview, hsome] at hnone
        cases hnone
      · intro d₂ _ hev₂ row' hrow'
        have hchecked₂ := hchecked₁.becomes hev₂ fun _ h => h
        obtain rfl : row = row' := Option.some.inj (hchecked₂.exception.symm.trans hrow')
        refine ⟨by simp [discipline], fun g₂ hi₂ h₂ => ?_⟩
        refine wp_recorded hi₂ h₂ (fun e => ?_) (fun d => ⟨rfl, rfl⟩)
          (hchecked₂.becomes (Evolved.refl _ _) fun _ h => List.mem_append_left _ h) ?_
          (by simp [Submission.decided]) herr hok
        · simp [Submission.writes, hrole]
        · exact (hev₂.guards (guards_decision? _) (by simp [Submission.decided])).trans hid
    · rw [if_neg hrole]
      refine wp_recorded hi₁ h₁ (fun e => ?_) (fun d => ⟨rfl, rfl⟩) hchecked₁ hid
        (by simp [Submission.decided]) herr hok
      simp [Submission.writes, hrole]

/-- A request that passes the checks takes its exception one step on. -/
theorem reviewed_of_check {decisions : List DecisionRow} (h : Reviewed row decisions)
    (hrole : x.role ≠ .auditor)
    (hc : checkDecision x row run (decisions.insertionSort inDecisionOrder) = .ok ()) :
    Reviewed (x.left row) (decisions ++ [x.decided row graph]) := by
  have hperm := List.perm_insertionSort inDecisionOrder decisions
  unfold checkDecision at hc
  split_ifs at hc with hwaiting hanalyst
  · unfold checkProposal at hc
    split_ifs at hc with hproposal hempty hopen
    have hnil : decisions = [] := by
      rw [not_not.mp hempty] at hperm
      exact hperm.nil_eq.symm
    subst hnil
    refine .proposed ⟨?_, ?_, ?_, ?_⟩ ?_
    · simp [Submission.decided, Submission.left, hanalyst]
    · simp [Submission.decided, Submission.left, hanalyst]
    · simp [Submission.decided, hanalyst]
    · simpa [Submission.decided] using hproposal
    · simp [Submission.left, hanalyst]
  · have hmanager : x.role = .manager := by
      cases hx : x.role with
      | analyst => exact absurd hx hanalyst
      | manager => rfl
      | auditor => exact absurd hx hrole
    have hleft : x.left row = row := if_neg hanalyst
    unfold checkSignoff at hc
    split at hc
    · rename_i id proposal hid hsorted
      split_ifs at hc with hmatch happrove hreview
      obtain ⟨hpid, hactor, hfirst⟩ := by simpa only [not_or, not_not, ne_eq] using hmatch
      have hone : decisions = [proposal] := List.perm_singleton.mp (hsorted ▸ hperm.symm)
      subst hone
      cases h with
      | proposed proposes status =>
        rw [hleft]
        refine .signed proposes ⟨rfl, rfl, ?_, ?_, fun ha => ?_⟩ (.inl status)
        · simp [Submission.decided, hmanager]
        · simp [Submission.decided, hid, hpid]
        · by_contra hne
          refine happrove ⟨?_, hne⟩
          simp only [Submission.decided] at ha
          cases hx : x.request.action <;> simp [hx, ReviewAction.decision] at ha
          rfl
    · cases hc

/-- The row of a decision answers its submission. -/
theorem Submission.answers_decided (x : Submission) (row : ExceptionRow) (graph : Version) :
    (x.decided row graph).Answers x :=
  ⟨rfl, rfl, rfl, rfl, rfl, rfl⟩

/-- The answer is the one read back from the row. -/
theorem Submission.ofRow_decided (x : Submission) (row : ExceptionRow) (graph : Version) :
    DecisionResponse.ofRow (x.decided row graph) = .ok (x.response row) := by
  have hstage : (x.decided row graph).actorId = ReadRole.analyst.actor.val ↔ x.role = .analyst :=
    x.role.actor_eq_iff
  unfold DecisionResponse.ofRow
  simp only [hstage]
  simp [Submission.decided, Submission.response]

/-- How a submission ends : an answer is that of the stored decision of its key, a repeated key
is answered from its decision and nothing is written, and a failure writes nothing. -/
structure Submitted (i : ι) (x : Submission) (entry : Server ι Db Write Lock)
    (out : Except Exn DecisionResponse) (g : Server ι Db Write Lock) : Prop where
  answered : ∀ response, out = .ok response → ∃ row ∈ g.db.decisions,
    row.idempotencyKey = x.idempotencyKey ∧ row.Answers x ∧
      DecisionResponse.ofRow row = .ok response
  wrote : (g.session i).wrote = (entry.session i).wrote ∨ out.toOption ≠ none ∧
    ∃ row graph e, (g.session i).wrote = (entry.session i).wrote ++ x.writes row graph e
  repeated : x.role ≠ .auditor → ∀ row ∈ entry.db.decisions,
    row.idempotencyKey = x.idempotencyKey → (g.session i).wrote = (entry.session i).wrote ∧
      (out = replayed x row ∨ ∃ e, out = .error e ∧ e.isInstance .decisionUnavailable)
  auditor : x.role = .auditor → (g.session i).wrote = (entry.session i).wrote ∧
    out = .error (decisionConflict "Auditors cannot make exception decisions")

/-- Nobody else undoes what a submission was answered. -/
theorem stable_submitted {inv : Db → Prop} {lockKey : String → ℤ}
    (entry : Server ι Db Write Lock) (out : Except Exn DecisionResponse) :
    (operations lockKey inv).Stable i fun g =>
      (operations lockKey inv).idle i g ∧ Submitted i x entry out g := by
  rintro g g' - - hr ⟨hidle, h⟩
  refine ⟨(operations lockKey inv).idle_rely i g g' hr hidle, ?_⟩
  obtain ⟨hs, -, ws, hdb, -⟩ := hr
  refine ⟨fun response hresponse => ?_, by rw [hs]; exact h.wrote, by rw [hs]; exact h.repeated,
    by rw [hs]; exact h.auditor⟩
  obtain ⟨row, hrow, hanswer⟩ := h.answered response hresponse
  refine ⟨row, ?_, hanswer⟩
  rw [hdb]
  exact schema.applyAll_induction (fun d w _ => mem_decisions_apply d w) hrow

/-- Every failure of the database is reported as one kind of error. -/
theorem unavailable_of_sql (e : SqlError) :
    (DecisionService.reported (OfSql.ofSql e)).isInstance .decisionUnavailable := by
  cases e <;> rfl

variable {entry : Server ι Db Write Lock}

/-- A failure that has written nothing. -/
theorem Submitted.failed {e : Exn} (hrole : x.role ≠ .auditor)
    (hwrote : (g.session i).wrote = (entry.session i).wrote)
    (he : e.isInstance .decisionUnavailable ∨
      ∀ row ∈ entry.db.decisions, row.idempotencyKey ≠ x.idempotencyKey) :
    Submitted i x entry (.error e) g where
  answered _ h := by cases h
  wrote := .inl hwrote
  repeated _ row hrow hkey := by
    refine ⟨hwrote, .inr ?_⟩
    rcases he with he | he
    · exact ⟨e, rfl, he⟩
    · exact absurd hkey (he row hrow)
  auditor h := absurd h hrole

/-- What the transaction of a submission owes : the end of the submission, with a failure as it is
reported. -/
def Submitting (lockKey : String → ℤ) (inv : Db → Prop) (i : ι) (x : Submission)
    (entry : Server ι Db Write Lock) (out : Except Exn DecisionResponse)
    (g : Server ι Db Write Lock) : Prop :=
  (operations lockKey inv).idle i g ∧
    Submitted i x entry (out.mapError DecisionService.reported) g

/-- Decisions are never removed. -/
theorem mem_decisions_becomes {lockKey : String → ℤ} {d d' : Db} {r : DecisionRow}
    (h : Becomes lockKey ls d d') (hr : r ∈ d.decisions) : r ∈ d'.decisions :=
  h.lasting (p := fun d => r ∈ d.decisions) (fun d w => mem_decisions_apply d w) hr

/-- The answer to a key that has a decision. -/
theorem wp_replayed {r : DecisionRow} (hrole : x.role ≠ .auditor)
    (hi : (operations s.lockKey (ReviewInv s.host)).inv g)
    (h : Knows s.lockKey i ⟨.inTrans, [], (entry.session i).wrote⟩ [] ls d₀ g)
    (hinv : ReviewInv s.host d₀) (hentry : ∀ row ∈ entry.db.decisions, row ∈ d₀.decisions)
    (hr : d₀.decisionByKey? x.idempotencyKey = some r) :
    (operations s.lockKey (ReviewInv s.host)).wp i
      (Prog.ofExcept (replayed x r) : Client ι A DecisionResponse)
      (Done schema (discipline s.lockKey) (ReviewInv s.host) i (entry.session i).wrote []
        (Submitting s.lockKey (ReviewInv s.host) i x entry)) g := by
  have hmem : r ∈ d₀.decisions := mem_of_lookup hr
  have hkey : r.idempotencyKey = x.idempotencyKey := key_of_lookup hr
  have honly : ∀ row ∈ entry.db.decisions, row.idempotencyKey = x.idempotencyKey → row = r := by
    intro row hrow hrowKey
    exact List.inj_on_of_nodup_map hinv.keys (hentry row hrow) hmem (hrowKey.trans hkey.symm)
  have hreported : (replayed x r).mapError DecisionService.reported = replayed x r := by
    unfold replayed DecisionResponse.ofRow
    by_cases hanswers : r.Answers x
    · rw [if_pos hanswers]
      cases r.action.review? <;> rfl
    · rw [if_neg hanswers]
      rfl
  have hrepeated {out : Except Exn DecisionResponse} (hout : replayed x r = out)
      {g' : Server ι Db Write Lock} (hwrote : (g'.session i).wrote = (entry.session i).wrote) :
      x.role ≠ .auditor → ∀ row ∈ entry.db.decisions, row.idempotencyKey = x.idempotencyKey →
        (g'.session i).wrote = (entry.session i).wrote ∧ (out = replayed x row ∨
          ∃ e, out = .error e ∧ e.isInstance .decisionUnavailable) := by
    intro _ row hrow hrowKey
    rw [honly row hrow hrowKey]
    exact ⟨hwrote, .inl hout.symm⟩
  unfold Submitting
  cases hout : replayed x r with
  | error e =>
    refine wp_raise hi h fun g' hi' h' => ⟨_, _, _, _, h', fun g'' h'' => ⟨h''.idle, ?_⟩⟩
    rw [← hout, hreported, hout]
    exact ⟨fun _ h => (by cases h), .inl (At.committed h''),
      hrepeated hout (At.committed h''), fun h => absurd h hrole⟩
  | ok response =>
    refine wp_ret hi h fun g' hi' h' => ⟨_, _, _, _, h', .inl rfl, fun d hd hev => ⟨hd, ?_, ?_⟩⟩
    · refine fun g'' h'' => ⟨h''.idle, ?_⟩
      have hwrote : (g''.session i).wrote = (entry.session i).wrote := by
        simpa using At.committed h''
      refine ⟨fun response' h => ?_, .inl hwrote, hrepeated hout hwrote,
        fun h => absurd h hrole⟩
      obtain rfl : response = response' := Except.ok.inj h
      refine ⟨r, mem_decisions_becomes h''.evolved (mem_decisions_becomes hev hmem), hkey, ?_⟩
      unfold replayed at hout
      split_ifs at hout with hanswers
      exact ⟨hanswers, hout⟩
    · exact fun e g'' h'' => ⟨h''.idle, .failed hrole (At.committed h'')
        (.inl (unavailable_of_sql e))⟩

/-- An exception under review has its own run. -/
theorem underReview?_some {d : Db} {id : Uuid} (h : d.underReview? id = some (row, run)) :
    d.exception? id = some row ∧ row.id = id ∧ run.id = row.runId := by
  obtain ⟨y, hy, hrun⟩ := Option.bind_eq_some_iff.mp h
  obtain ⟨r, hr, heq⟩ := Option.map_eq_some_iff.mp hrun
  cases heq
  exact ⟨hy, key_of_lookup hy, key_of_lookup hr⟩

/-- The rule of a submission's transaction. -/
theorem wp_body (hrole : x.role ≠ .auditor)
    (hi : (operations s.lockKey (ReviewInv s.host)).inv g)
    (h : Knows s.lockKey i ⟨.inTrans, [], (entry.session i).wrote⟩ [] [] entry.db g) :
    (operations s.lockKey (ReviewInv s.host)).wp i (s.body x : Client ι A DecisionResponse)
      (Done schema (discipline s.lockKey) (ReviewInv s.host) i (entry.session i).wrote []
        (Submitting s.lockKey (ReviewInv s.host) i x entry)) g := by
  have hfails : ∀ d, Fails s.lockKey (ReviewInv s.host) i (entry.session i).wrote [] d
      (Done schema (discipline s.lockKey) (ReviewInv s.host) i (entry.session i).wrote []
        (Submitting s.lockKey (ReviewInv s.host) i x entry)) :=
    fun d e g' _ h' => ⟨_, _, _, _, h', fun g'' h'' =>
      ⟨h''.idle, .failed hrole (At.committed h'') (.inl (unavailable_of_sql e))⟩⟩
  unfold DecisionService.body
  refine wp_lock hi h (by simp [schema]) (hfails _) fun d₁ _ hev₁ g₁ hi₁ h₁ => ?_
  refine wp_read hi₁ h₁ (hfails _) fun d₂ hd₂ hev₂ g₂ hi₂ h₂ => ?_
  have hentry : ∀ row ∈ entry.db.decisions, row ∈ d₂.decisions := fun row hrow =>
    mem_decisions_becomes hev₂ (mem_decisions_becomes hev₁ hrow)
  cases hexisting : d₂.decisionByKey? x.idempotencyKey with
  | some r =>
    simp only [Schema.applyAll_nil, hexisting]
    exact wp_replayed hrole hi₂ h₂ hd₂ hentry hexisting
  | none =>
    simp only [Schema.applyAll_nil, hexisting]
    -- the key is new, so that nothing is owed of a repeated request
    have hnew : ∀ row ∈ entry.db.decisions, row.idempotencyKey ≠ x.idempotencyKey :=
      fun row hrow => lookup_eq_none.mp hexisting row (hentry row hrow)
    have hraise {e : Exn} {ls : List Lock} {d : Db} {g : Server ι Db Write Lock}
        (hi : (operations s.lockKey (ReviewInv s.host)).inv g)
        (h : Knows s.lockKey i ⟨.inTrans, [], (entry.session i).wrote⟩ [] ls d g) :
        (operations s.lockKey (ReviewInv s.host)).wp i
          (.raise e : Client ι A DecisionResponse) (Done schema (discipline s.lockKey)
            (ReviewInv s.host) i (entry.session i).wrote []
            (Submitting s.lockKey (ReviewInv s.host) i x entry)) g :=
      wp_raise hi h fun g' _ h' => ⟨_, _, _, _, h', fun g'' h'' =>
        ⟨h''.idle, .failed hrole (At.committed h'') (.inr hnew)⟩⟩
    refine wp_readForUpdate hi₂ h₂ (by simp [schema]) (hfails _) ?_ ?_
    · exact fun d _ _ _ g' hi' h' => hraise hi' h'
    · rintro d₃ _ hev₃ ⟨row, run⟩ hfound g₃ hi₃ h₃
      refine wp_read hi₃ h₃ (hfails _) fun d₄ hd₄ hev₄ g₄ hi₄ h₄ => ?_
      obtain ⟨hexception, hrow, hrun⟩ := underReview?_some hfound
      have hexception₄ : d₄.exception? x.exceptionId = some row :=
        (hev₄.guards (guards_exception? _) (by simp [hrow])).trans hexception
      rw [Schema.applyAll_nil]
      cases hcheck : checkDecision x row run
          ((d₄.decisionsOf x.exceptionId).insertionSort inDecisionOrder) with
      | error e => exact hraise hi₄ h₄
      | ok u =>
        cases hgraph : Version.ofString? run.graphVersion with
        | none => exact hraise hi₄ h₄
        | some graph =>
          have hreviewed := hd₄.reviewed row (mem_of_lookup hexception₄)
          rw [hrow] at hreviewed
          refine wp_record hi₄ h₄ ⟨hexception₄, reviewed_of_check hreviewed hrole hcheck,
            ?_, ?_, ?_,
            ?_⟩ ?_ ?_
          · exact (hev₄.guards (guards_decisionByKey? _) (by simp)).trans
              ((hev₃.guards (guards_decisionByKey? _) (by simp)).trans hexisting)
          · simp [hrun]
          · simp [hrow]
          · simp
          · exact fun e d g' h' => ⟨h'.idle, .failed hrole (At.committed h') (.inr hnew)⟩
          · refine fun e d g' h' => ⟨h'.idle, fun response hresponse => ?_,
              .inr ⟨by simp [Except.toOption, Except.mapError], row, graph, e, At.committed h'⟩,
              fun _ r hr hkey => absurd hkey (hnew r hr), fun h => absurd h hrole⟩
            obtain rfl : x.response row = response := Except.ok.inj hresponse
            refine ⟨x.decided row graph, mem_decisions_becomes h'.evolved ?_, rfl,
              x.answers_decided row graph, x.ofRow_decided row graph⟩
            have hdecisions : (schema.applyAll d (x.writes row graph e)).decisions =
                d.decisions ++ [x.decided row graph] := by
              unfold Submission.writes
              split_ifs <;> rfl
            rw [hdecisions]
            exact List.mem_append_right _ (List.mem_singleton.mpr rfl)

/-- The rule of `submit`. -/
theorem wp_submit (hi : (operations s.lockKey (ReviewInv s.host)).inv entry)
    (hidle : (operations s.lockKey (ReviewInv s.host)).idle i entry) :
    (operations s.lockKey (ReviewInv s.host)).wp i (s.submit x : Client ι A DecisionResponse)
      (fun out g => (operations s.lockKey (ReviewInv s.host)).idle i g ∧
        Submitted i x entry out g) entry := by
  have hat := At.of_idle (S := schema) (D := discipline s.lockKey) hidle
  unfold DecisionService.submit
  split_ifs with hrole hconfigured
  · refine wp_raise hi hat fun g _ h => ⟨h.idle, fun _ h => (by cases h), .inl (At.committed h),
      fun h => absurd hrole h, fun _ => ⟨At.committed h, rfl⟩⟩
  · refine Protocol.wp_tryCatch hi (Protocol.wp_mono (fun out g hi' h => ?_)
      (wp_transaction (Q := Submitting s.lockKey (ReviewInv s.host) i x entry)
        (fun out => stable_submitted entry _) hi hat ?_ ?_))
    · cases out with
      | ok response => exact h
      | error e =>
        exact Protocol.wp_raise (stable_submitted entry _) hi' h fun _ _ h => h
    · exact fun e g h => ⟨h.idle, .failed hrole (At.committed h) (.inl (unavailable_of_sql e))⟩
    · exact fun g hi' h => wp_body hrole hi' h
  · refine wp_raise hi hat fun g _ h => ⟨h.idle, .failed hrole (At.committed h) (.inl ?_)⟩
    decide

end

end InvoiceOps
