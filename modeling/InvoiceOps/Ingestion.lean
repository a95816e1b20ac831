import InvoiceOps.Calls
import InvoiceOps.AttemptStore
import InvoiceOps.Documents

/-!
# Ingestion

`IngestionService.ingest` keeps a document and answers with the invoice and the run it has made for
its content. An upload is first answered from the stored outcome of its key, if there is one. The
transaction takes the advisory lock of the key, claims the nonce of a signed email, looks for the
outcome again, and inserts the invoice of the content unless there is one already : it either makes
the invoice with its run, or names the ones there are. The event and the outcome are inserted with
it.

`IngestInv` is what the database keeps. `ingestions` is any number of such calls at once.
-/

set_option linter.unusedSectionVars false

open Shared ReadCommitted

namespace InvoiceOps

/-! ## Requests -/

/-- The nonce of a signed request, and when it was signed. -/
structure WebhookNonce where
  nonce : String
  signedAt : Instant
  deriving DecidableEq, Repr

/-- One call of `ingest`, with the identifiers and the times it takes. Its document is the one that
is read from a body. -/
structure Ingest where
  contentType : DocumentType
  source : IngestionSource
  body : List UInt8
  key : String
  traceId : String
  nonce : Option WebhookNonce
  invoiceId : Uuid
  runId : Uuid
  createdAt : Instant
  eventId : Uuid
  stamp : Instant
  deriving DecidableEq

/-- The document of a call. -/
def Ingest.document (hash : HashObject) (x : Ingest) : RawDocument :=
  .ofBody hash x.contentType x.source (hash.sha256 x.body) x.body

/-- `IngestionOutcome` : a duplicate is answered with 200, what is accepted with 201. -/
structure IngestionOutcome where
  responseStatus : ℕ
  body : IngestionResult
  status_ok : responseStatus = if body.duplicate then 200 else 201
  deriving DecidableEq, Repr

namespace IngestionOutcome

/-- A new invoice was accepted. -/
def accepted (invoiceId runId : Uuid) : IngestionOutcome :=
  ⟨201, ⟨invoiceId, runId, false⟩, rfl⟩

/-- `model_copy(update={"duplicate": True})` of the original. -/
def rejected (original : IngestionResult) : IngestionOutcome :=
  ⟨200, { original with duplicate := true }, rfl⟩

/-- `IngestionOutcome.model_validate`. -/
def ofRow (row : RequestRow) : Except Exn IngestionOutcome :=
  if h : row.responseStatus = if row.responseBody.duplicate then 200 else 201 then
    .ok ⟨row.responseStatus, row.responseBody, h⟩
  else .error (.new .validationError "IngestionOutcome")

end IngestionOutcome

/-! ## Raw documents -/

/-- The key of a document in the bucket, by its content. -/
def RawDocument.objectKey (document : RawDocument) : String :=
  "sha256/" ++ String.ofList (document.contentHash.val.toList.take 2) ++ "/" ++
    document.contentHash.val

/-- What the object store answers to a `put_object` that must not overwrite. -/
inductive PutAnswer where
  | stored
  | clientError (code : String)
  | unreachable (cause : String)
  deriving DecidableEq, Repr

namespace S3RawStorage

variable {ι : Type} (bucket : String) (document : RawDocument)

/-- Where a document is stored. -/
def rawRef : String :=
  "s3://" ++ bucket ++ "/" ++ document.objectKey

/-- The store failed. -/
def unavailable (cause : Exn) : Exn :=
  .chained .ingestionUnavailable "Raw document storage is unavailable." cause

/-- `put`. An object that is there already is the document. -/
def put : Client ι PutAnswer String := do
  let answer ← Prog.ask some
  match answer with
  | .stored => return rawRef bucket document
  | .clientError code =>
    if code = "PreconditionFailed" then return rawRef bucket document
    else throw (unavailable (.new (.other "ClientError") code))
  | .unreachable cause => throw (unavailable (.new (.other cause) ""))

end S3RawStorage

/-! ## Tables -/

/-- `length(btrim(column)) > 0` fails, or the text has a NUL. -/
def isBare (s : String) : Bool :=
  hasNul s || s.toList.all (· = ' ')

namespace Db

/-- `invoices` by content. -/
def invoiceByHash? (d : Db) (contentHash : String) : Option InvoiceRow :=
  lookup InvoiceRow.contentHash d.invoices contentHash

/-- `webhook_nonces` by nonce. -/
def nonce? (d : Db) (nonce : String) : Option NonceRow :=
  lookup NonceRow.nonce d.nonces nonce

/-- The constraint of the runs an insert of `row` breaks. -/
def runConflict (d : Db) (row : RunRow) : Option String :=
  if isBare row.graphVersion || isBare row.traceId then some "ck_runs_nonblank"
  else if row.traceId.length > 32 then some "trace_id"
  else if (d.run? row.id).isSome then some "runs_pkey"
  else if (d.invoice? row.invoiceId).isNone then some "runs_invoice_id_fkey"
  else none

/-- The constraint of the requests an insert of `row` breaks. -/
def requestConflict (d : Db) (row : RequestRow) : Option String :=
  if isBare row.idempotencyKey then some "ck_ingestion_requests_nonblank"
  else if row.idempotencyKey.length > 128 then some "idempotency_key"
  else if (d.request? row.idempotencyKey).isSome then some "ingestion_requests_pkey"
  else if (d.run? row.runId).map RunRow.invoiceId ≠ some row.invoiceId then
    some "fk_ingestion_requests_run_invoice"
  else none

end Db

/-- The constraint of the nonces that no database lets `row` in with. -/
def NonceRow.check (row : NonceRow) : Option String :=
  if isBare row.nonce then some "ck_webhook_nonces_nonblank"
  else if row.nonce.length > 128 then some "nonce"
  else none

/-- `OriginalIngestion`, with the row of its invoice. -/
structure OriginalIngestion where
  invoice : InvoiceRow
  run : RunRow
  request : RequestRow
  deriving DecidableEq, Repr

/-- `ORDER BY request.created_at, request.idempotency_key`. -/
def inRequestOrder (a b : OriginalIngestion) : Prop :=
  a.request.createdAt < b.request.createdAt ∨
    a.request.createdAt = b.request.createdAt ∧ a.request.idempotencyKey ≤ b.request.idempotencyKey

instance (a b : OriginalIngestion) : Decidable (inRequestOrder a b) :=
  inferInstanceAs (Decidable (_ ∨ _))

/-- The join of the invoice of the content with its runs and their accepted requests. -/
def Db.originals (d : Db) (contentHash : String) : List OriginalIngestion :=
  (d.invoices.filter fun v => v.contentHash = contentHash).flatMap fun v =>
    (d.runs.filter fun r => r.invoiceId = v.id).flatMap fun r =>
      (d.requests.filter fun q => q.runId = r.id ∧ q.invoiceId = v.id ∧
        q.responseStatus = 201).map fun q => ⟨v, r, q⟩

/-- The first request that was accepted for the content. -/
def Db.original? (d : Db) (contentHash : String) : Option OriginalIngestion :=
  ((d.originals contentHash).insertionSort inRequestOrder).head?

/-! ## The service -/

/-- The schema version of the ledger is a version. -/
theorem isVersion_ingestion : isVersion "invoice-v1" := by decide

/-- The version of the workflow a run is started in. -/
def ingestionVersion : Version := ⟨"invoice-v1", isVersion_ingestion⟩

/-- The type of the event of a new invoice. -/
def ingestAccepted : Version := ⟨"ingest.accepted", by decide⟩

/-- The type of the event of a duplicate. -/
def ingestDuplicateRejected : Version := ⟨"ingest.duplicate_rejected", by decide⟩

/-- The actor of these events. -/
def ingestionActor : Version := ⟨"invoiceops-ingestion", by decide⟩

/-- The node of these events : a duplicate is rejected. -/
def ingestNode (created : Bool) : Version :=
  if created then ⟨"Ingest", by decide⟩ else ⟨"Reject", by decide⟩

/-- The key belongs to another request. -/
def idempotencyConflict : Exn :=
  .new .idempotencyConflict "Idempotency key was already used for a different request."

/-- The nonce was used before. -/
def webhookNonceReuse : Exn :=
  .new .webhookNonceReuse "This webhook nonce has already been used."

/-- What a request is answered with that finds `row` under its key. -/
def replayOf (requestHash : Sha256) : Option RequestRow → Except Exn (Option IngestionOutcome)
  | none => .ok none
  | some row =>
    if row.requestHash ≠ requestHash.val then .error idempotencyConflict
    else (IngestionOutcome.ofRow row).map some

/-- `int.from_bytes`, of the first 8 bytes of a digest, signed. -/
def lockOf (digest : Sha256) : ℤ :=
  let value (c : Char) := if c.isDigit then c.toNat - 48 else c.toNat - 87
  let n := (digest.val.toList.take 16).foldl (fun n c => 16 * n + value c) 0
  if n < 2 ^ 63 then n else n - 2 ^ 64

/-- The ingestion service : the digests it takes, and its bucket. -/
structure IngestionService where
  hash : HashObject
  bucket : String

namespace IngestionService

/-- The lock of a key, which is ASCII. -/
def lockKey (s : IngestionService) (key : String) : ℤ :=
  lockOf (s.hash.sha256 (encodeAscii key))

variable {ι A : Type} [DecidableEq ι] (s : IngestionService) (x : Ingest)

/-- The document of a call. -/
def document : RawDocument :=
  x.document s.hash

/-- Where it is stored. -/
def rawRef : String :=
  S3RawStorage.rawRef s.bucket (s.document x)

/-- The row of a new invoice. -/
def invoiceRow : InvoiceRow where
  id := x.invoiceId
  contentHash := (s.document x).contentHash.val
  rawRef := s.rawRef x
  contentType := x.contentType
  source := x.source
  status := .queued
  createdAt := x.createdAt

/-- The row of its run. -/
def runRow : RunRow where
  id := x.runId
  invoiceId := x.invoiceId
  status := .queued
  graphVersion := ingestionVersion.val
  traceId := x.traceId
  startedAt := none
  completedAt := none
  error := none
  createdAt := x.createdAt

/-- The row of the request. -/
def requestRow (outcome : IngestionOutcome) : RequestRow where
  idempotencyKey := x.key
  requestHash := (s.document x).requestHash.val
  invoiceId := outcome.body.invoiceId
  runId := outcome.body.runId
  responseStatus := outcome.responseStatus
  responseBody := outcome.body
  createdAt := x.createdAt

/-- The evidence of an ingestion. -/
def payload (created : Bool) (rawRef : String) : Json :=
  .obj ([("content_hash", .str (s.document x).contentHash.val), ("raw_ref", .str rawRef),
    ("source", .str x.source.text), ("content_type", .str x.contentType.text),
    ("size_bytes", .num x.body.length)] ++
    if created then [] else [("route", .str "REJECT"), ("reason", .str "DUP_EXACT")])

/-- The event of an ingestion. -/
def command (outcome : IngestionOutcome) (rawRef : String) (versions : Option VersionOverrides) :
    AppendEvent where
  runId := outcome.body.runId
  invoiceId := outcome.body.invoiceId
  eventType := if outcome.body.duplicate then ingestDuplicateRejected else ingestAccepted
  actorType := .system
  actorId := ingestionActor
  payload := s.payload x (!outcome.body.duplicate) rawRef
  node := some (ingestNode !outcome.body.duplicate)
  versions

/-- The writer of that event. -/
def writer : LedgerWriter :=
  ⟨⟨ingestionVersion, notApplicable, notApplicable, notApplicable⟩, x.eventId, x.stamp⟩

/-- `lock_key` : the key is encoded as ASCII before it is hashed. -/
def lockKeyOf : Client ι A Unit :=
  if isAscii x.key then sql schema (.lock [.advisory (s.lockKey x.key)])
  else throw (.new .valueError "UnicodeEncodeError")

/-- The insert of a nonce ; one that is there already is left. -/
def insertNonce (row : NonceRow) : Sql Db Write Lock Bool :=
  .insertOnConflict row.check (fun d => (d.nonce? row.nonce).isSome) (fun _ => none)
    [.nonce row.nonce] (.insertNonce row)

/-- `claim_nonce`. -/
def claimNonce (row : NonceRow) : Client ι A Unit := do
  let claimed ← sql schema (insertNonce row)
  if claimed then return () else throw webhookNonceReuse

/-- `replay`. -/
def replay : Client ι A (Option IngestionOutcome) := do
  let row ← sql schema (.read fun d => d.request? x.key)
  Prog.ofExcept (replayOf (s.document x).requestHash row)

/-- The insert of an invoice ; a content that is there already is left. -/
def insertInvoice (row : InvoiceRow) : Sql Db Write Lock Bool :=
  .insertOnConflict (if isBare row.rawRef then some "ck_invoices_nonblank" else none)
    (fun d => (d.invoiceByHash? row.contentHash).isSome)
    (fun d => if (d.invoice? row.id).isSome then some "invoices_pkey" else none)
    [.invoiceRow row.id, .invoicePk row.id, .contentHash row.contentHash] (.insertInvoice row)

/-- The insert of a run. -/
def insertRun (row : RunRow) : Sql Db Write Lock Unit :=
  .insert (fun d => d.runConflict row) [.runRow row.id, .runPk row.id] (.insertRun row)

/-- `SELECT ... FOR UPDATE OF invoices`. -/
def selectOriginal (contentHash : String) : Sql Db Write Lock (Option OriginalIngestion) :=
  .readForUpdate (fun d => d.original? contentHash) fun o => [.invoiceRow o.invoice.id]

/-- The insert of a request. -/
def insertRequest (row : RequestRow) : Sql Db Write Lock Unit :=
  .insert (fun d => d.requestConflict row) [.requestKey row.idempotencyKey] (.insertRequest row)

/-- The event of an outcome, and the row it is remembered by. -/
def finish (outcome : IngestionOutcome) (rawRef : String) (versions : Option VersionOverrides) :
    Client ι A IngestionOutcome := do
  let _ ← (writer x).append (s.command x outcome rawRef versions) x.traceId
  sql schema (insertRequest (s.requestRow x outcome))
  return outcome

/-- What a content that has an invoice already is answered with. -/
def reject : Client ι A IngestionOutcome := do
  let original ← sql schema (selectOriginal (s.document x).contentHash.val)
  match original with
  | none => throw (.new .ingestionUnavailable "The original ingestion identity is unavailable.")
  | some original =>
    match Version.ofString? original.run.graphVersion with
    | none => throw (.new .validationError "VersionOverrides")
    | some graph =>
      s.finish x (.rejected original.request.responseBody) original.invoice.rawRef
        (some ⟨some graph, some notApplicable, some notApplicable, some notApplicable⟩)

/-- `create`, with what follows it. -/
def create : Client ι A IngestionOutcome := do
  let created ← sql schema (insertInvoice (s.invoiceRow x))
  if created then
    sql schema (insertRun (runRow x))
    s.finish x (.accepted x.invoiceId x.runId) (s.rawRef x) none
  else s.reject x

/-- The transaction of an ingestion. -/
def body : Client ι A IngestionOutcome := do
  s.lockKeyOf x
  match x.nonce with
  | none => pure ()
  | some nonce => claimNonce ⟨nonce.nonce, nonce.signedAt, x.createdAt⟩
  let stored ← s.replay x
  match stored with
  | some outcome => return outcome
  | none => s.create x

/-- What a failure of an ingestion is reported as. -/
def reported (error : Exn) : Exn :=
  if error.isInstance .psycopgError ∨ error.isInstance .ledgerError ∨
      error.isInstance .validationError ∨ error.isInstance .timeoutError then
    .chained .ingestionUnavailable "Invoice persistence is unavailable." error
  else error

/-- An upload is answered from the outcome of its key before its document is stored. -/
def early : Client ι A (Option IngestionOutcome) :=
  match x.nonce with
  | none => s.replay x
  | some _ => return none

/-- `ingest`. -/
def ingest : Client ι PutAnswer IngestionOutcome :=
  if decide (x.source = .email) ≠ x.nonce.isSome then
    throw (.new .valueError "Email ingestion requires a nonce; upload ingestion forbids one")
  else
    Prog.tryCatch (do
      let stored ← s.early x
      match stored with
      | some outcome => return outcome
      | none => do
        let _ ← S3RawStorage.put s.bucket (s.document x)
        transaction schema (s.body x))
      fun error => throw (reported error)

end IngestionService

/-! ## What the locks guard -/

/-- The discipline of the ingestions : no update of an invoice gives it a content whose lock its
session does not hold. -/
def ingestDiscipline (lockKey : String → ℤ) : Discipline Write Lock where
  locks w := (discipline lockKey).locks w ++ match w with
    | .setInvoice row => [.contentHash row.contentHash]
    | _ => []

/-- Ingestion asks for every lock that the tables ask for. -/
theorem stricter_ingest (lockKey : String → ℤ) : Stricter lockKey (ingestDiscipline lockKey) where
  locks w l hl := List.mem_append_left _ hl
  event e l hl := by simpa [ingestDiscipline] using hl

section

variable {lockKey : String → ℤ}

/-- Only a holder of the lock of an idempotency key stores its request. -/
theorem guards_request? (key : String) :
    Guards schema (discipline lockKey) (.advisory (lockKey key)) fun d => d.request? key where
  frame d w hw := by
    cases w with
    | insertRequest r => exact lookup_append_of_ne (by rintro rfl; simp [discipline] at hw)
    | _ => rfl
  congr d d' w h := by
    cases w with
    | insertRequest r =>
      simp only [Db.request?] at h
      simp only [schema, Db.apply, Db.request?, lookup_append, h]
    | _ => exact h

/-- Only a holder of a nonce's row claims it. -/
theorem guards_nonce? (nonce : String) :
    Guards schema (discipline lockKey) (.nonce nonce) fun d => d.nonce? nonce where
  frame d w hw := by
    cases w with
    | insertNonce r => exact lookup_append_of_ne (by rintro rfl; simp [discipline] at hw)
    | _ => rfl
  congr d d' w h := by
    cases w with
    | insertNonce r =>
      simp only [Db.nonce?] at h
      simp only [schema, Db.apply, Db.nonce?, lookup_append, h]
    | _ => exact h

/-- Only a holder of an invoice's row writes it. -/
theorem guards_invoice? (id : Uuid) :
    Guards schema (discipline lockKey) (.invoiceRow id) fun d => d.invoice? id where
  frame d w hw := by
    cases w with
    | insertInvoice r => exact lookup_append_of_ne (by rintro rfl; simp [discipline] at hw)
    | setInvoice r => exact lookup_replace_of_ne (by rintro rfl; simp [discipline] at hw)
    | _ => rfl
  congr d d' w h := by
    cases w with
    | insertInvoice r =>
      simp only [Db.invoice?] at h
      simp only [schema, Db.apply, Db.invoice?, lookup_append, h]
    | setInvoice r =>
      simp only [Db.invoice?] at h
      simp only [schema, Db.apply, Db.invoice?, lookup_replace, h]
    | _ => exact h

/-- A content that has no invoice gets none while its lock is held. -/
theorem fresh_hash {ls : List Lock} {d₀ d : Db} {contentHash : String}
    (hev : Evolved schema (ingestDiscipline lockKey) ls d₀ d) (hl : .contentHash contentHash ∈ ls)
    (h : d₀.invoiceByHash? contentHash = none) : d.invoiceByHash? contentHash = none := by
  refine lookup_eq_none.mpr (hev.kept (p := fun d => ∀ v ∈ d.invoices, v.contentHash ≠ contentHash)
    (fun d w hw hd v hv => ?_) (lookup_eq_none.mp h))
  have hfree := hw _ hl
  cases w with
  | insertInvoice r =>
    rcases List.mem_append.mp hv with hv | hv
    · exact hd v hv
    · rintro rfl
      rw [List.mem_singleton.mp hv] at hfree
      simp [ingestDiscipline, discipline] at hfree
  | setInvoice r =>
    rcases mem_replace.mp hv with ⟨hv, -⟩ | ⟨rfl, -⟩
    · exact hd v hv
    · rintro rfl
      simp [ingestDiscipline, discipline] at hfree
  | _ => exact hd v hv

end

/-! ## What the database keeps -/

/-- The event is an ingestion's. -/
def isIngest (type : Version) : Bool :=
  type = ingestAccepted || type = ingestDuplicateRejected

/-- What the ledger holds of a request. -/
structure IngestRecord where
  runId : Uuid
  invoiceId : Uuid
  eventType : Version

/-- The event a request leaves in the ledger. -/
def RequestRow.record (row : RequestRow) : IngestRecord :=
  ⟨row.runId, row.invoiceId,
    if row.responseBody.duplicate then ingestDuplicateRejected else ingestAccepted⟩

/-- What an event says of an ingestion. -/
def LedgerEvent.ingestRecord (e : LedgerEvent) : IngestRecord :=
  ⟨e.runId, e.invoiceId, e.eventType⟩

/-- The events of ingestions, in the order they were committed. -/
def Db.ingestEvents (d : Db) : List LedgerEvent :=
  d.ledger.filter fun e => isIngest e.eventType

/-- The requests that have made an invoice. -/
def Db.acceptedRequests (d : Db) : List RequestRow :=
  d.requests.filter fun row => !row.responseBody.duplicate

/-- `e` records an ingestion of the invoice's content, and where it is kept. -/
def LedgerEvent.Describes (e : LedgerEvent) (v : InvoiceRow) : Prop :=
  v.id = e.invoiceId ∧ e.payload.get? "content_hash" = some (.str v.contentHash) ∧
    e.payload.get? "raw_ref" = some (.str v.rawRef)

/-- A stored outcome : it names a run and the invoice of the content of a document with its request
hash. -/
structure RequestRow.Names (hash : HashObject) (d : Db) (row : RequestRow) : Prop where
  status : row.responseStatus = if row.responseBody.duplicate then 200 else 201
  invoiceId : row.responseBody.invoiceId = row.invoiceId
  runId : row.responseBody.runId = row.runId
  run : ∃ r ∈ d.runs, r.id = row.runId ∧ r.invoiceId = row.invoiceId
  invoice : ∃ v ∈ d.invoices, v.id = row.invoiceId ∧ ∃ contentType source body,
    v.contentHash = (hash.sha256 body).val ∧ row.requestHash =
      (RawDocument.ofBody hash contentType source (hash.sha256 body) body).requestHash.val

/-- A request that names its rows still does when there are more. -/
theorem RequestRow.Names.mono {hash : HashObject} {d d' : Db} {row : RequestRow}
    (h : row.Names hash d) (hr : ∀ r ∈ d.runs, r ∈ d'.runs)
    (hv : ∀ v ∈ d.invoices, v ∈ d'.invoices) : row.Names hash d' where
  status := h.status
  invoiceId := h.invoiceId
  runId := h.runId
  run := h.run.imp fun r hrun => ⟨hr r hrun.1, hrun.2⟩
  invoice := h.invoice.imp fun v hinvoice => ⟨hv v hinvoice.1, hinvoice.2⟩

/-- The invoices, their runs and the requests that made them are in step, and so are the requests
and the events of ingestions. -/
structure IngestInv (hash : HashObject) (d : Db) : Prop where
  ledger : LedgerInv d
  invoiceIds : (d.invoices.map InvoiceRow.id).Nodup
  hashes : (d.invoices.map InvoiceRow.contentHash).Nodup
  runIds : (d.runs.map RunRow.id).Nodup
  keys : (d.requests.map RequestRow.idempotencyKey).Nodup
  nonces : (d.nonces.map NonceRow.nonce).Nodup
  invoices : d.invoices.map InvoiceRow.id = d.acceptedRequests.map RequestRow.invoiceId
  runs : d.runs.map (fun r => (r.id, r.invoiceId)) =
    d.acceptedRequests.map fun row => (row.runId, row.invoiceId)
  recorded : d.ingestEvents.map LedgerEvent.ingestRecord = d.requests.map RequestRow.record
  requests : ∀ row ∈ d.requests, row.Names hash d
  events : ∀ e ∈ d.ledger, isIngest e.eventType → ∃ v ∈ d.invoices, e.Describes v

namespace IngestInv

variable {hash : HashObject} {d : Db} {v : InvoiceRow} {r : RunRow} {e : LedgerEvent}
  {q : RequestRow}

/-- The record of a request is an ingestion event's. -/
theorem isIngest_record (row : RequestRow) : isIngest row.record.eventType := by
  unfold RequestRow.record isIngest
  dsimp only
  split <;> simp

/-- An invoice has one run. -/
theorem run_invoiceIds (h : IngestInv hash d) : (d.runs.map RunRow.invoiceId).Nodup := by
  have hruns := congrArg (List.map Prod.snd) h.runs
  simp only [List.map_map, Function.comp_def] at hruns
  rw [hruns, ← h.invoices]
  exact h.invoiceIds

/-- A request that was answered with an invoice there was has the body of the request that made it,
but for the mark of the duplicate. -/
theorem original (h : IngestInv hash d) (hq : q ∈ d.requests) :
    ∃ a ∈ d.acceptedRequests, q.responseBody =
      { a.responseBody with duplicate := q.responseBody.duplicate } := by
  have hnames := h.requests q hq
  obtain ⟨v, hv, hid, -⟩ := hnames.invoice
  have hmem := List.mem_map_of_mem (f := InvoiceRow.id) hv
  rw [h.invoices, hid] at hmem
  obtain ⟨a, ha, hai⟩ := List.mem_map.mp hmem
  have hnames' := h.requests a (List.mem_filter.mp ha).1
  obtain ⟨r, hr, hrid, hri⟩ := hnames.run
  obtain ⟨r', hr', hrid', hri'⟩ := hnames'.run
  obtain rfl : r = r' := List.inj_on_of_nodup_map h.run_invoiceIds hr hr'
    (hri.trans (hai.symm.trans hri'.symm))
  refine ⟨a, ha, ?_⟩
  have hinvoice : q.responseBody.invoiceId = a.responseBody.invoiceId :=
    hnames.invoiceId.trans (hai.symm.trans hnames'.invoiceId.symm)
  have hrun : q.responseBody.runId = a.responseBody.runId :=
    hnames.runId.trans (hrid.symm.trans (hrid'.trans hnames'.runId.symm))
  cases hbody : q.responseBody
  simp_all

/-- A nonce that is new. -/
theorem claim (h : IngestInv hash d) {row : NonceRow} (hrow : d.nonce? row.nonce = none) :
    IngestInv hash { d with nonces := d.nonces ++ [row] } where
  ledger := h.ledger.congr rfl fun _ run hrun => ⟨run, hrun, rfl, rfl⟩
  invoiceIds := h.invoiceIds
  hashes := h.hashes
  runIds := h.runIds
  keys := h.keys
  nonces := nodup_snoc h.nonces (lookup_eq_none.mp hrow)
  invoices := h.invoices
  runs := h.runs
  recorded := h.recorded
  requests row hrow := (h.requests row hrow).mono (fun _ h => h) fun _ h => h
  events := h.events

/-- The database with an invoice and its run. -/
def started (d : Db) (v : InvoiceRow) (r : RunRow) : Db :=
  { d with invoices := d.invoices ++ [v], runs := d.runs ++ [r] }

/-- Starting a run keeps the ledger in sequence. -/
theorem ledger_started (h : IngestInv hash d) : LedgerInv (started d v r) := by
  refine h.ledger.congr rfl fun id row hrow => ⟨row, ?_, rfl, rfl⟩
  rw [Db.run?] at hrow ⊢
  simp [started, lookup_append, hrow]

/-- The database after an accepted document : its invoice, its run, its event and its outcome. -/
def accepted (d : Db) (v : InvoiceRow) (r : RunRow) (e : LedgerEvent) (q : RequestRow) : Db :=
  { started d v r with ledger := d.ledger ++ [e], requests := d.requests ++ [q] }

/-- The database after a duplicate : its event and its outcome. -/
def rejected (d : Db) (e : LedgerEvent) (q : RequestRow) : Db :=
  { d with ledger := d.ledger ++ [e], requests := d.requests ++ [q] }

/-- One more event of ingestion is one more request. -/
theorem recorded_snoc (h : IngestInv hash d) (he : e.ingestRecord = q.record) :
    ((d.ledger ++ [e]).filter fun e => isIngest e.eventType).map LedgerEvent.ingestRecord =
      (d.requests ++ [q]).map RequestRow.record := by
  have htype : isIngest e.eventType := by
    have := isIngest_record q
    rwa [← he] at this
  have hrecorded := h.recorded
  unfold Db.ingestEvents at hrecorded
  simp [List.filter_append, htype, hrecorded, he]

/-- An accepted document keeps the invariant. -/
theorem accept (h : IngestInv hash d) (hv : d.invoice? v.id = none)
    (hhash : d.invoiceByHash? v.contentHash = none) (hr : d.run? r.id = none)
    (hrv : r.invoiceId = v.id) (hkey : d.request? q.idempotencyKey = none)
    (hq : q.Names hash (accepted d v r e q)) (hqv : q.invoiceId = v.id) (hqr : q.runId = r.id)
    (hnew : q.responseBody.duplicate = false) (he : e.ingestRecord = q.record)
    (hdescribes : e.Describes v) (hledger : LedgerInv (accepted d v r e q)) :
    IngestInv hash (accepted d v r e q) where
  ledger := hledger
  invoiceIds := nodup_snoc h.invoiceIds (lookup_eq_none.mp hv)
  hashes := nodup_snoc h.hashes (lookup_eq_none.mp hhash)
  runIds := nodup_snoc h.runIds (lookup_eq_none.mp hr)
  keys := nodup_snoc h.keys (lookup_eq_none.mp hkey)
  nonces := h.nonces
  invoices := by
    have := h.invoices
    simp only [Db.acceptedRequests] at this
    simp [accepted, started, Db.acceptedRequests, List.filter_append, hnew, this, hqv]
  runs := by
    have := h.runs
    simp only [Db.acceptedRequests] at this
    simp [accepted, started, Db.acceptedRequests, List.filter_append, hnew, this, hqv, hqr, hrv]
  recorded := h.recorded_snoc he
  requests row hrow := by
    rcases List.mem_append.mp hrow with hrow | hrow
    · exact (h.requests row hrow).mono (fun _ => List.mem_append_left _)
        fun _ => List.mem_append_left _
    · rwa [List.mem_singleton.mp hrow]
  events e' he' htype := by
    rcases List.mem_append.mp he' with he' | he'
    · obtain ⟨w, hw, hdescribes'⟩ := h.events e' he' htype
      exact ⟨w, List.mem_append_left _ hw, hdescribes'⟩
    · rw [List.mem_singleton.mp he']
      exact ⟨v, List.mem_append_right _ (List.mem_singleton.mpr rfl), hdescribes⟩

/-- A duplicate keeps the invariant. -/
theorem reject (h : IngestInv hash d) (hv : v ∈ d.invoices)
    (hkey : d.request? q.idempotencyKey = none) (hq : q.Names hash d)
    (hold : q.responseBody.duplicate = true) (he : e.ingestRecord = q.record)
    (hdescribes : e.Describes v) (hledger : LedgerInv (rejected d e q)) :
    IngestInv hash (rejected d e q) where
  ledger := hledger
  invoiceIds := h.invoiceIds
  hashes := h.hashes
  runIds := h.runIds
  keys := nodup_snoc h.keys (lookup_eq_none.mp hkey)
  nonces := h.nonces
  invoices := by
    have := h.invoices
    simp only [Db.acceptedRequests] at this
    simp [rejected, Db.acceptedRequests, List.filter_append, hold, this]
  runs := by
    have := h.runs
    simp only [Db.acceptedRequests] at this
    simp [rejected, Db.acceptedRequests, List.filter_append, hold, this]
  recorded := h.recorded_snoc he
  requests row hrow := by
    rcases List.mem_append.mp hrow with hrow | hrow
    · exact (h.requests row hrow).mono (fun _ h => h) fun _ h => h
    · rw [List.mem_singleton.mp hrow]
      exact hq.mono (fun _ h => h) fun _ h => h
  events e' he' htype := by
    rcases List.mem_append.mp he' with he' | he'
    · exact h.events e' he' htype
    · rw [List.mem_singleton.mp he']
      exact ⟨v, hv, hdescribes⟩

end IngestInv

end InvoiceOps
