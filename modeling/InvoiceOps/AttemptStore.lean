import InvoiceOps.Ledger
import InvoiceOps.Retry
import InvoiceOps.State

/-!
# The retry worker's store

`PostgresAttemptStore` keeps a run's attempts in its row : `begin` claims the next attempt,
`settle` and `failed` end one, `redrive` takes a dead letter back to the queue. Each call is
one transaction that locks the run's row before it decides anything about the run, so it is
modelled as one step on the database : its answer and its writes, or an exception and no
write.

What a call can write is said once for each call (`begin_ok`, `settle_ok`, `failed_ok`,
`redrive_ok`).
-/

open ReadCommitted

namespace InvoiceOps

/-! ## Records -/

/-- `^[A-Za-z][A-Za-z0-9_]{0,127}$`. -/
def isErrorName (s : String) : Bool :=
  match s.toList with
  | [] => false
  | c :: cs => c.isAlpha && cs.length ≤ 127 && cs.all fun c => c.isAlphanum || c = '_'

/-- What `runs.error` holds. -/
structure RetryState where
  attempts : ℕ
  cycle : ℕ
  errorType : Option String
  retryable : Option Bool
  deadLettered : Bool
  deriving DecidableEq, Repr

namespace RetryState

/-- The state of a run that has not failed in this cycle. -/
def fresh (cycle : ℕ) : RetryState :=
  ⟨0, cycle, none, none, false⟩

/-- The bounds and the pattern of the schema. -/
def Valid (s : RetryState) : Prop :=
  s.attempts ≤ 10 ∧ s.errorType.all isErrorName = true

instance (s : RetryState) : Decidable s.Valid :=
  inferInstanceAs (Decidable (_ ∧ _))

/-- A flag as JSON, `null` where it is not known. -/
def flagJson : Option Bool → Json
  | none => .null
  | some b => .bool b

/-- `model_dump(mode="json")`. -/
def toJson (s : RetryState) : Json :=
  .obj [("attempts", .num s.attempts), ("cycle", .num s.cycle),
    ("error_type", .ofOption s.errorType), ("retryable", flagJson s.retryable),
    ("dead_lettered", .bool s.deadLettered)]

/-- An absent count is zero. -/
def countField : Option Json → Option ℕ
  | none => some 0
  | some (.num n) => n.toNat?
  | some _ => none

/-- An absent text and `null` are the same. -/
def textField : Option Json → Option (Option String)
  | none | some .null => some none
  | some (.str s) => some (some s)
  | some _ => none

/-- An absent flag and `null` are the same. -/
def optionalFlag : Option Json → Option (Option Bool)
  | none | some .null => some none
  | some (.bool b) => some (some b)
  | some _ => none

/-- An absent flag is false. -/
def flag : Option Json → Option Bool
  | none => some false
  | some (.bool b) => some b
  | some _ => none

/-- The fields of a stored retry state. -/
def fieldNames : List String :=
  ["attempts", "cycle", "error_type", "retryable", "dead_lettered"]

/-- `model_validate` of what the column holds. -/
def validate (value : Json) : Option RetryState :=
  match value with
  | .obj fields => do
    guard (fields.all fun f => f.1 ∈ fieldNames)
    let attempts ← countField (value.get? "attempts")
    let cycle ← countField (value.get? "cycle")
    let errorType ← textField (value.get? "error_type")
    let retryable ← optionalFlag (value.get? "retryable")
    let deadLettered ← flag (value.get? "dead_lettered")
    let state : RetryState := ⟨attempts, cycle, errorType, retryable, deadLettered⟩
    guard state.Valid
    return state
  | _ => none

/-- What is dumped reads back. -/
theorem validate_toJson {s : RetryState} (h : s.Valid) : validate s.toJson = some s := by
  obtain ⟨attempts, cycle, errorType, retryable, deadLettered⟩ := s
  have htext : textField (some (Json.ofOption errorType)) = some errorType := by
    cases errorType <;> rfl
  have hflag : optionalFlag (some (flagJson retryable)) = some retryable := by
    cases retryable <;> rfl
  have hcount : ∀ n : ℕ, countField (some (.num n)) = some n := fun n => rfl
  simp [validate, toJson, Json.get?, fieldNames, hcount, flag, htext, hflag, h, guard]

/-- A stored retry state is one state's only. -/
theorem toJson_injective : Function.Injective toJson := by
  rintro ⟨a, c, e, r, d⟩ ⟨a', c', e', r', d'⟩ h
  simp only [toJson, Json.obj.injEq, List.cons.injEq, Prod.mk.injEq, true_and, Json.num.injEq,
    Json.bool.injEq, and_true] at h
  obtain ⟨ha, hc, he, hr, rfl⟩ := h
  obtain rfl : a = a' := by omega
  obtain rfl : c = c' := by omega
  have he' : e = e' := by cases e <;> cases e' <;> simp_all [Json.ofOption]
  have hr' : r = r' := by cases r <;> cases r' <;> simp_all [flagJson]
  rw [he', hr']

/-- `_state`. -/
def ofColumn : Option Json → Except Exn RetryState
  | none => .ok (fresh 0)
  | some value =>
    match validate value with
    | some state => .ok state
    | none => .error (.chained .workerError "Stored retry state is invalid"
        (.new .validationError "RetryState"))

/-- A state of which no attempt was made can be stored. -/
theorem valid_fresh (cycle : ℕ) : (fresh cycle).Valid :=
  ⟨Nat.zero_le _, rfl⟩

/-- What was stored is read back. -/
theorem ofColumn_toJson {s : RetryState} (h : s.Valid) : ofColumn (some s.toJson) = .ok s := by
  rw [ofColumn, validate_toJson h]

end RetryState

/-- A claimed attempt, as its schema admits it. -/
structure RunAttempt where
  runId : Uuid
  invoiceId : Uuid
  traceId : String
  graphVersion : String
  attempt : ℕ
  cycle : ℕ
  trace : isTraceId traceId
  graph : 1 ≤ graphVersion.length ∧ graphVersion.length ≤ 128
  attempt_pos : 1 ≤ attempt
  attempt_le : attempt ≤ 10
  deriving DecidableEq

namespace RunAttempt

/-- The number an attempt is told apart by. -/
def number (a : RunAttempt) : ℕ × ℕ :=
  (a.cycle, a.attempt)

/-- `RunAttempt(...)` of a run's row. -/
def validate (row : RunRow) (attempt cycle : ℕ) : Except Exn RunAttempt :=
  if h : isTraceId row.traceId ∧
      (1 ≤ row.graphVersion.length ∧ row.graphVersion.length ≤ 128) ∧
      1 ≤ attempt ∧ attempt ≤ 10 then
    .ok ⟨row.id, row.invoiceId, row.traceId, row.graphVersion, attempt, cycle, h.1, h.2.1,
      h.2.2.1, h.2.2.2⟩
  else .error (.new .validationError "RunAttempt")

/-- An attempt is of its row, within the bounds of its schema. -/
theorem validate_ok {row : RunRow} {attempt cycle : ℕ} {a : RunAttempt}
    (h : validate row attempt cycle = .ok a) :
    a.runId = row.id ∧ a.invoiceId = row.invoiceId ∧ a.traceId = row.traceId ∧
      a.graphVersion = row.graphVersion ∧ a.attempt = attempt ∧ a.cycle = cycle := by
  unfold validate at h
  split at h <;> cases h
  exact ⟨rfl, rfl, rfl, rfl, rfl, rfl⟩

end RunAttempt

/-- A run that waits for an operator. -/
structure DeadLetter where
  runId : Uuid
  invoiceId : Uuid
  attempts : ℕ
  cycle : ℕ
  errorType : String
  retryable : Bool
  attempts_pos : 1 ≤ attempts
  deriving DecidableEq

/-- `_KEY` and `_ACTOR` : letters and digits, then also the signs of `more`, 128 in all. -/
def isHandle (more : List Char) (s : String) : Bool :=
  match s.toList with
  | [] => false
  | c :: cs => c.isAlphanum && cs.length ≤ 127 && cs.all fun c => c.isAlphanum || c ∈ more

/-- The form of an idempotency key. -/
def isKey : String → Bool :=
  isHandle ['.', '_', ':', '-']

/-- The form of an actor's identifier. -/
def isActor : String → Bool :=
  isHandle ['.', '_', ':', '@', '-']

/-- The type of the event that ends a run's attempts. -/
def deadLettered : Version := ⟨"workflow.dead_lettered", by decide⟩

/-- The type of the event that lets a run be tried again. -/
def redriven : Version := ⟨"workflow.redriven", by decide⟩

/-- The version of a prompt or a model that has no part in an event. -/
def notApplicable : Version := ⟨"not-applicable@v1", by decide⟩

/-- The version of the retry policy, as the events name it. -/
def retryVersion : Version := ⟨"invoice-retry@v2", by decide⟩

/-- The node the events of the worker are under. -/
def workerNode : Version := ⟨"Worker", by decide⟩

/-- The actor the events of the worker are under. -/
def retryWorker : Version := ⟨"invoiceops-retry-worker", by decide⟩

/-- `payload ->> field = text`. Only a string has the text of a valid handle and is written
by a redrive ; a number has the text of its digits. -/
def Json.hasText (payload : Json) (field text : String) : Bool :=
  match payload.get? field with
  | some (.str s) => s = text
  | some (.num n) => toString n = text
  | some (.bool b) => toString b = text
  | _ => false

/-! ## The calls -/

/-- One call of the store : its policy, the clock it reads first, and the clock and the
identifier of an event it appends. -/
structure PostgresAttemptStore where
  config : RetryConfig
  now : Instant
  stamp : Instant
  newId : Uuid

namespace PostgresAttemptStore

variable (store : PostgresAttemptStore)

/-- An `UPDATE` to `row`, under `ck_runs_time_order`. -/
def updateRun (row : RunRow) : Except Exn (List Write) :=
  match row.startedAt, row.completedAt with
  | some started, some completed =>
    if started ≤ completed then .ok [.setRun row]
    else .error (.new .integrityError "ck_runs_time_order")
  | _, _ => .ok [.setRun row]

/-- `_writer`. -/
def writer (a : RunAttempt) : Except Exn LedgerWriter :=
  match Version.ofString? a.graphVersion with
  | some graph =>
    .ok ⟨⟨graph, notApplicable, notApplicable, retryVersion⟩, store.newId, store.stamp⟩
  | none => .error (.new .validationError "LedgerSettings")

/-- The row a claim leaves. -/
def claimed (row : RunRow) : RunRow :=
  { row with status := .running, startedAt := some store.now, completedAt := none }

/-- The end of `begin`, on a row it may claim. -/
def claim (row : RunRow) : Except Exn (Option RunAttempt × List Write) := do
  let state ← RetryState.ofColumn row.error
  if store.config.maxAttempts ≤ state.attempts then
    .error (.new .workerError "Retry budget is exhausted; run needs recovery")
  else do
    let writes ← updateRun (store.claimed row)
    let attempt ← RunAttempt.validate row (state.attempts + 1) state.cycle
    return (some attempt, writes)

/-- `begin`. -/
def begin (runId : Uuid) (continuation : Bool) (d : Db) :
    Except Exn (Option RunAttempt × List Write) :=
  match d.run? runId with
  | none => .error (.new .runNotFound "Invoice worker run is absent")
  | some row =>
    match row.status with
    | .completed | .paused => .ok (none, [])
    | .failed => .error (.new .runInDeadLetter "Run is in the dead-letter queue")
    | .cancelled => .error (.new .workerError "Cancelled run cannot execute")
    | .queued | .running =>
      if row.status = .running ∧ continuation = false ∧
          row.startedAt.any fun started => store.now - started < store.config.lease then
        .error (.new .runInProgress "Invoice worker already owns run")
      else store.claim row

/-- The status a settled result leaves the run in. -/
def settledStatus : GraphStatus → Option RunStatus
  | .awaitingReview => some .paused
  | .completed | .rejected => some .completed
  | .queued | .running => none

/-- The row a settlement leaves. -/
def settled (row : RunRow) (status : RunStatus) : RunRow :=
  { row with
    status := status
    completedAt := if status = .completed then some store.now else none
    error := none }

/-- `settle`. -/
def settle (a : RunAttempt) (result : InvoiceGraphState) (d : Db) : Except Exn (List Write) :=
  if result.runId ≠ a.runId ∨ result.invoiceId ≠ a.invoiceId ∨ result.traceId ≠ a.traceId then
    .error (.new .workerError "Workflow result identity differs from the claimed run")
  else
    match settledStatus result.status with
    | none => .error (.new .workerError "Workflow did not reach a settled state")
    | some status =>
      match d.run? a.runId with
      | none => .error (.new .workerError "Claimed run changed before settlement")
      | some row =>
        if row.status = .running then updateRun (store.settled row status)
        else if row.status = status ∧ row.error = none then .ok []
        else .error (.new .workerError "Claimed run changed before settlement")

/-- What `failed` records. -/
def failure (a : RunAttempt) (errorType : String) (retryable terminal : Bool) : RetryState :=
  ⟨a.attempt, a.cycle, some errorType, some retryable, terminal⟩

/-- A terminal failure ends the run ; another one leaves it running. -/
def failedStatus (terminal : Bool) : RunStatus :=
  if terminal then .failed else .running

/-- The row a failure leaves. -/
def afterFailure (row : RunRow) (state : RetryState) : RunRow :=
  { row with
    status := failedStatus state.deadLettered
    completedAt := if state.deadLettered then some store.now else none
    error := some state.toJson }

/-- The event of a terminal failure. -/
def deadLetterEvent (a : RunAttempt) (errorType : String) (retryable : Bool) : AppendEvent where
  runId := a.runId
  invoiceId := a.invoiceId
  eventType := deadLettered
  node := some workerNode
  actorType := .system
  actorId := retryWorker
  versions := some { policyVersion := some retryVersion }
  payload := .obj [("attempts", .num a.attempt), ("cycle", .num a.cycle),
    ("error_type", .str errorType), ("retryable", .bool retryable)]

/-- `failed`. -/
def failed (a : RunAttempt) (errorType : String) (retryable terminal : Bool) (d : Db) :
    Except Exn (List Write) :=
  let state := failure a errorType retryable terminal
  if state.Valid then
    match d.run? a.runId with
    | none => .error (.new .workerError "Claimed run changed before failure recording")
    | some row =>
      if row.status = .running then do
        let writes ← updateRun (store.afterFailure row state)
        if terminal then do
          let writer ← store.writer a
          let events ← writer.appendNow (deadLetterEvent a errorType retryable) a.traceId
            (schema.applyAll d writes)
          return writes ++ events
        else return writes
      else if row.status = failedStatus terminal ∧ row.error = some state.toJson then .ok []
      else .error (.new .workerError "Claimed run changed before failure recording")
  else .error (.new .validationError "RetryState")

/-- The row a redrive leaves. -/
def requeued (row : RunRow) (cycle : ℕ) : RunRow :=
  { row with
    status := .queued
    startedAt := none
    completedAt := none
    error := some (RetryState.fresh cycle).toJson }

/-- The payload of a redrive ; it names the cycle that begins. -/
def redrivePayload (key actorId reason : String) (cycle : ℕ) : Json :=
  .obj [("idempotency_key", .str key), ("actor_id", .str actorId), ("reason", .str reason),
    ("from_cycle", .num cycle), ("to_cycle", .num (cycle + 1 : ℕ))]

/-- The event of a redrive. -/
def redriveEvent (a : RunAttempt) (actorId : Version) (payload : Json) : AppendEvent where
  runId := a.runId
  invoiceId := a.invoiceId
  eventType := redriven
  node := some workerNode
  actorType := .human
  actorId := actorId
  versions := some { policyVersion := some retryVersion }
  payload := payload

/-- An earlier redrive of the run with this key. -/
def earlierRedrive (d : Db) (runId : Uuid) (key : String) : Option LedgerEvent :=
  (d.eventsOf runId).find? fun e =>
    e.eventType = redriven ∧ e.payload.hasText "idempotency_key" key

/-- `redrive`. -/
def redrive (runId : Uuid) (key actorId reason : String) (d : Db) :
    Except Exn (Bool × List Write) :=
  if ¬isKey key ∨ ¬isActor actorId then
    .error (.new .invalidRedrive "Redrive requires a valid key and actor")
  else if isBlank reason ∨ 2000 < reason.length then
    .error (.new .invalidRedrive "Redrive requires a bounded reason")
  else
    match d.run? runId with
    | none => .error (.new .runNotFound "Dead-letter run is absent")
    | some row =>
      match earlierRedrive d runId key with
      | some previous =>
        if previous.payload.get? "actor_id" ≠ some (.str actorId) ∨
            previous.payload.get? "reason" ≠ some (.str reason) then
          .error (.new .invalidRedrive "Redrive key belongs to another request")
        else .ok (false, [])
      | none =>
        if row.status ≠ .failed then
          .error (.new .invalidRedrive "Only a dead-lettered run can be redriven")
        else do
          let state ← RetryState.ofColumn row.error
          if state.deadLettered = false then
            .error (.new .invalidRedrive "Failed run lacks a dead-letter record")
          else do
            let writes ← updateRun (requeued row (state.cycle + 1))
            let a ← RunAttempt.validate row 1 (state.cycle + 1)
            let writer ← store.writer a
            match Version.ofString? actorId with
            | none => .error (.new .validationError "AppendEvent")
            | some actor =>
              let events ← writer.appendNow
                (redriveEvent a actor (redrivePayload key actorId reason state.cycle)) a.traceId
                (schema.applyAll d writes)
              return (true, writes ++ events)

/-- `ORDER BY completed_at, id`, the rows without a completion last. -/
def deadLetterOrder (a b : RunRow) : Bool :=
  match a.completedAt, b.completedAt with
  | some x, some y => x < y || (x = y && a.id ≤ b.id)
  | some _, none => true
  | none, some _ => false
  | none, none => a.id ≤ b.id

/-- The dead letter of a row of the page. -/
def deadLetter (row : RunRow) : Except Exn DeadLetter := do
  let state ← RetryState.ofColumn row.error
  match state.deadLettered, state.errorType with
  | true, some errorType =>
    if h : 1 ≤ state.attempts then
      .ok ⟨row.id, row.invoiceId, state.attempts, state.cycle, errorType,
        state.retryable.getD false, h⟩
    else .error (.new .validationError "DeadLetter")
  | _, _ => .error (.new .workerError "Failed run lacks a dead-letter record")

/-- `list_dead_letters`. -/
def listDeadLetters (limit : ℤ) (d : Db) : Except Exn (List DeadLetter) :=
  if 1 ≤ limit ∧ limit ≤ 100 then
    (((d.runs.filter fun r => r.status = .failed).mergeSort deadLetterOrder).take
      limit.toNat).mapM deadLetter
  else .error (.new .valueError "Dead-letter page limit must be between 1 and 100")

/-! ## What a call writes -/

variable {store} {d : Db} {a : RunAttempt} {runId : Uuid} {row : RunRow} {ws : List Write}

/-- An update of a run is one write. -/
theorem updateRun_ok (h : updateRun row = .ok ws) : ws = [.setRun row] := by
  unfold updateRun at h
  split at h
  · split at h <;> cases h
    rfl
  · cases h
    rfl

/-- An append is one event, with what the command asks. -/
theorem appendNow_ok {w : LedgerWriter} {command : AppendEvent} {traceId : String}
    (h : w.appendNow command traceId d = .ok ws) :
    ∃ e, ws = [.insertEvent e] ∧ w.Appended command d e := by
  unfold LedgerWriter.appendNow at h
  split at h
  · split at h
    · rename_i e he
      cases h
      exact ⟨e, rfl, LedgerWriter.appended_of_event he⟩
    · cases h
  · cases h

/-- A claim needs an attempt that is left, and names the next one. -/
theorem claim_ok {answer : Option RunAttempt} (h : store.claim row = .ok (answer, ws)) :
    ∃ state a, answer = some a ∧ ws = [.setRun (store.claimed row)] ∧
      RetryState.ofColumn row.error = .ok state ∧ state.attempts < store.config.maxAttempts ∧
      a.runId = row.id ∧ a.number = (state.cycle, state.attempts + 1) := by
  unfold claim at h
  obtain ⟨state, hstate, h⟩ := bind_eq_ok.mp h
  split at h
  · cases h
  · rename_i hlt
    obtain ⟨writes, hw, h⟩ := bind_eq_ok.mp h
    obtain ⟨a, ha, h⟩ := bind_eq_ok.mp h
    cases h
    obtain ⟨hrun, -, -, -, hattempt, hcycle⟩ := RunAttempt.validate_ok ha
    refine ⟨state, a, rfl, updateRun_ok hw, hstate, by omega, hrun, ?_⟩
    rw [RunAttempt.number, hattempt, hcycle]

/-- `begin` finds the run settled and claims nothing, or claims the next attempt. -/
theorem begin_ok {continuation : Bool} {answer : Option RunAttempt}
    (h : store.begin runId continuation d = .ok (answer, ws)) :
    ∃ row, d.run? runId = some row ∧
      ((row.status = .completed ∨ row.status = .paused) ∧ answer = none ∧ ws = [] ∨
        (row.status = .queued ∨ row.status = .running) ∧
          store.claim row = .ok (answer, ws)) := by
  unfold begin at h
  cases hrow : d.run? runId with
  | none => simp [hrow] at h
  | some row =>
    refine ⟨row, rfl, ?_⟩
    cases hst : row.status <;> simp only [hrow, hst] at h
    case completed =>
      cases h
      exact .inl ⟨.inl rfl, rfl, rfl⟩
    case paused =>
      cases h
      exact .inl ⟨.inr rfl, rfl, rfl⟩
    case failed => cases h
    case cancelled => cases h
    all_goals
      split at h
      · cases h
      · exact .inr ⟨by simp, h⟩

/-- A run is settled as paused or completed. -/
theorem settledStatus_cases {g : GraphStatus} {status : RunStatus}
    (h : settledStatus g = some status) : status = .paused ∨ status = .completed := by
  cases g <;> cases h <;> simp

/-- `settle` settles a running run, or finds it settled so. -/
theorem settle_ok {result : InvoiceGraphState} (h : store.settle a result d = .ok ws) :
    (result.runId = a.runId ∧ result.invoiceId = a.invoiceId ∧ result.traceId = a.traceId) ∧
      ∃ row status, d.run? a.runId = some row ∧ settledStatus result.status = some status ∧
      (row.status = .running ∧ ws = [.setRun (store.settled row status)] ∨
        row.status = status ∧ row.error = none ∧ ws = []) := by
  unfold settle at h
  split at h
  · cases h
  rename_i hidentity
  simp only [ne_eq, not_or, not_not] at hidentity
  refine ⟨hidentity, ?_⟩
  cases hs : settledStatus result.status with
  | none => simp [hs] at h
  | some status =>
    cases hrow : d.run? a.runId with
    | none => simp [hs, hrow] at h
    | some row =>
      refine ⟨row, status, rfl, rfl, ?_⟩
      simp only [hs, hrow] at h
      split at h
      · exact .inl ⟨‹_›, updateRun_ok h⟩
      split at h
      · cases h
        exact .inr ⟨(‹_ ∧ _›).1, (‹_ ∧ _›).2, rfl⟩
      · cases h

/-- `failed` records its state in a running run, with the event if it is terminal, or finds
it recorded. -/
theorem failed_ok {errorType : String} {retryable terminal : Bool}
    (h : store.failed a errorType retryable terminal d = .ok ws) :
    (failure a errorType retryable terminal).Valid ∧ ∃ row, d.run? a.runId = some row ∧
      (row.status = .running ∧
          (terminal = false ∧
            ws = [.setRun (store.afterFailure row (failure a errorType retryable terminal))] ∨
          terminal = true ∧ ∃ w e,
            ws = [.setRun (store.afterFailure row (failure a errorType retryable terminal)),
              .insertEvent e] ∧
            LedgerWriter.Appended w (deadLetterEvent a errorType retryable)
              (schema.applyAll d
                [.setRun (store.afterFailure row (failure a errorType retryable terminal))])
              e) ∨
        row.status = failedStatus terminal ∧
          row.error = some (failure a errorType retryable terminal).toJson ∧ ws = []) := by
  unfold failed at h
  dsimp only at h
  split at h
  · refine ⟨‹_›, ?_⟩
    cases hrow : d.run? a.runId with
    | none => simp [hrow] at h
    | some row =>
      refine ⟨row, rfl, ?_⟩
      simp only [hrow] at h
      split at h
      · rename_i hrunning
        obtain ⟨writes, hw, h⟩ := bind_eq_ok.mp h
        obtain rfl := updateRun_ok hw
        split at h
        · rename_i hterm
          obtain ⟨w, -, h⟩ := bind_eq_ok.mp h
          obtain ⟨events, hev, h⟩ := bind_eq_ok.mp h
          obtain ⟨e, rfl, he⟩ := appendNow_ok hev
          cases h
          exact .inl ⟨hrunning, .inr ⟨hterm, w, e, rfl, he⟩⟩
        · rename_i hterm
          cases h
          exact .inl ⟨hrunning, .inl ⟨by simpa using hterm, rfl⟩⟩
      split at h
      · cases h
        exact .inr ⟨(‹_ ∧ _›).1, (‹_ ∧ _›).2, rfl⟩
      · cases h
  · cases h

/-- `redrive` requeues a dead letter in its next cycle, or finds that its key has. -/
theorem redrive_ok {key actorId reason : String} {answer : Bool}
    (h : store.redrive runId key actorId reason d = .ok (answer, ws)) :
    isKey key = true ∧ ∃ row, d.run? runId = some row ∧
      ((∃ e, earlierRedrive d runId key = some e) ∧ answer = false ∧ ws = [] ∨
        ∃ state w e a actor, earlierRedrive d runId key = none ∧ row.status = .failed ∧
          RetryState.ofColumn row.error = .ok state ∧ state.deadLettered = true ∧
          answer = true ∧ a.runId = runId ∧
          ws = [.setRun (requeued row (state.cycle + 1)), .insertEvent e] ∧
          LedgerWriter.Appended w
            (redriveEvent a actor (redrivePayload key actorId reason state.cycle))
            (schema.applyAll d [.setRun (requeued row (state.cycle + 1))]) e) := by
  unfold redrive at h
  split at h
  · cases h
  rename_i hkey
  split at h
  · cases h
  refine ⟨by simp only [not_or, not_not] at hkey; exact hkey.1, ?_⟩
  cases hrow : d.run? runId with
  | none => simp [hrow] at h
  | some row =>
    refine ⟨row, rfl, ?_⟩
    cases hprev : earlierRedrive d runId key with
    | some previous =>
      simp only [hrow, hprev] at h
      split at h
      · cases h
      · cases h
        exact .inl ⟨⟨previous, rfl⟩, rfl, rfl⟩
    | none =>
      simp only [hrow, hprev] at h
      split at h
      · cases h
      rename_i hfailed
      obtain ⟨state, hstate, h⟩ := bind_eq_ok.mp h
      split at h
      · cases h
      rename_i hdead
      obtain ⟨writes, hw, h⟩ := bind_eq_ok.mp h
      obtain rfl := updateRun_ok hw
      obtain ⟨a, ha, h⟩ := bind_eq_ok.mp h
      obtain ⟨w, -, h⟩ := bind_eq_ok.mp h
      split at h
      · cases h
      rename_i actor _
      obtain ⟨events, hev, h⟩ := bind_eq_ok.mp h
      obtain ⟨e, rfl, he⟩ := appendNow_ok hev
      cases h
      have hid : a.runId = runId := (RunAttempt.validate_ok ha).1.trans (key_of_lookup hrow)
      exact .inr ⟨state, w, e, a, actor, rfl, by simpa using hfailed, hstate,
        by simpa using hdead, rfl, hid, rfl, he⟩

end PostgresAttemptStore

end InvoiceOps
