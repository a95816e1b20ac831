import InvoiceOps.Ledger
import InvoiceOps.Retry
import InvoiceOps.State

/-!
# What a failure looks like to the retry loop

Between the code that fails and `RetryWorker.process` stand functions that catch what they
know, wrap it, replace it or let it pass : a `Layer` is the `except` clauses of one of them.
`Point.layers` lists, for every point of the live workflow where a time-out or a database
failure is raised, the layers it passes on its way out, the innermost first, and
`Point.reaches` is what comes out of the last. `is_infrastructure_error` sees only the root of
that, so a layer that drops the cause, or a cause that is no infrastructure error itself, ends
the retries (`retried_iff`).
-/

namespace InvoiceOps

/-! ## Layers -/

/-- The layers of code an exception passes on its way to the worker. -/
inductive Layer where
  | operationSpan
  | ledgerWriter
  | auditSink
  | auditedNode
  | extractionAudit
  | documentReader
  | documentPreflight
  | extractionOutcome
  | identifierOcr
  | gatewayClient
  | triageFallback
  | erpRepository
  | similarityRepository
  | checkpointSaver
  | invoiceGraphRunner
  deriving DecidableEq, Repr

namespace Layer

/-- The `except` clauses of a layer : what it raises in the place of `error`, or nothing if it
goes on without. -/
def handle (layer : Layer) (error : Exn) : Option Exn :=
  match layer with
  | .operationSpan => some error
  | .ledgerWriter => some (LedgerWriter.reported error)
  | .auditSink =>
    if error.isInstance .psycopgError ∨ error.isInstance .timeoutError ∨
        error.isInstance .osError then
      some (.new .ledgerStorageError "Audit event could not be committed.")
    else some error
  -- the node logs a `LedgerError` and raises it again
  | .auditedNode => some error
  | .extractionAudit =>
    if error.isInstance .ledgerError ∨ error.isInstance .timeoutError ∨
        error.isInstance .osError then
      some (.new .extractionAuditFailed "extraction_audit_failed")
    else some error
  | .documentReader =>
    if error.isInstance .timeoutError ∨ error.isInstance .osError then
      some (.new .documentUnavailable "")
    else some error
  | .documentPreflight =>
    if error.isInstance .timeoutError then some (.new .documentUnavailable "")
    else if error.isInstance .osError ∨ error.isInstance .valueError then
      some (.new .documentError "")
    else some error
  -- `_extract` escalates instead
  | .extractionOutcome =>
    if error.isInstance .documentError then none
    else if error.isInstance .gatewayConfigurationError then some error
    else if error.isInstance .gatewayError then none
    else some error
  | .identifierOcr =>
    if error.isInstance .osError ∨ error.isInstance .timeoutError ∨
        error.isInstance .valueError then none
    else some error
  | .gatewayClient =>
    if error.isInstance .timeoutError then
      some (.new .gatewayDeadlineExceeded "gateway_deadline_exceeded")
    else some error
  | .triageFallback =>
    if error.isInstance .gatewayConfigurationError then some error
    else if error.isInstance .gatewayError then none
    else some error
  -- the repository logs and raises again
  | .erpRepository => some error
  | .similarityRepository =>
    if error.isInstance .timeoutError ∨ error.isInstance .psycopgError then
      some (.new .similarityRepositoryError "Similarity storage failed")
    else some error
  | .checkpointSaver =>
    if error.isInstance .psycopgError then
      some (.chained .checkpointUnavailable "Checkpoint connection failed" error)
    else some error
  | .invoiceGraphRunner =>
    if error.isInstance .graphError then some error
    else if error.isInstance .timeoutError then
      some (.chained .graphTimeout "Invoice workflow timed out" error)
    else if error.isInstance .exception then
      some (.chained .graphExecutionError "Invoice workflow failed" error)
    else some error

end Layer

/-! ## Failures -/

/-- What is raised first : a limit of `asyncio.timeout`, an error of the database driver, or a
row that does not fit its schema. -/
inductive Failure where
  | timeout
  | driver (cls : ExnClass) (detail : String) (ofDriver : cls.isSubclass .psycopgError = true)
  | validation (detail : String)

/-- An `OperationalError` or an `InterfaceError`. -/
def isConnectionClass (cls : ExnClass) : Bool :=
  cls.isSubclass .operationalError || cls.isSubclass .interfaceError

namespace Failure

/-- `asyncio.timeout` raises its error from the cancellation it caught. -/
def error : Failure → Exn
  | .timeout => .chained .timeoutError "" (.new .cancelledError "")
  | .driver cls detail _ => .new cls detail
  | .validation detail => .new .validationError detail

/-- The connection is lost. -/
def isConnection : Failure → Bool
  | .driver cls _ _ => isConnectionClass cls
  | _ => false

end Failure

/-! ## Points -/

/-- Where a time-out or a database failure is raised. -/
inductive Point where
  /-- `load_invoice_state`, before the graph. -/
  | loadState
  | checkpointSetup
  | runLock
  | checkpoint
  /-- The deadline of `InvoiceGraphRunner.run`. -/
  | deadline
  /-- `EventCache.read`. -/
  | eventRead (node : InvoiceNodeName)
  | documentRead
  | documentPreflight
  | identifierOcr
  | extractionGateway
  /-- The audit sink of the extraction, and the ledger writer inside it. -/
  | extractionAudit
  | extractionAppend
  | erpRead
  /-- The audit sink of the other nodes, and the ledger writer inside it. -/
  | audit (node : InvoiceNodeName)
  | auditAppend (node : InvoiceNodeName)
  | embedding
  /-- `SimilarityRepository.detect_and_store`. -/
  | similaritySearch
  | triageGateway
  /-- A transaction of a node, and the ledger writer inside it : of the similarity decision,
  the review queue, an approval, the archive or a rejection. -/
  | transaction (node : InvoiceNodeName)
  | append (node : InvoiceNodeName)
  deriving DecidableEq, Repr

namespace Point

/-- The layers between a point and the retry loop, the innermost first. -/
def layers : Point → List Layer
  | .loadState => []
  | .checkpointSetup => [.checkpointSaver]
  | .runLock | .checkpoint | .deadline => [.invoiceGraphRunner]
  | .eventRead _ => [.operationSpan, .invoiceGraphRunner]
  | .documentRead =>
    [.documentReader, .operationSpan, .extractionOutcome, .operationSpan, .invoiceGraphRunner]
  | .documentPreflight =>
    [.documentPreflight, .operationSpan, .extractionOutcome, .operationSpan, .invoiceGraphRunner]
  | .identifierOcr => [.identifierOcr, .operationSpan, .invoiceGraphRunner]
  | .extractionGateway =>
    [.gatewayClient, .operationSpan, .extractionOutcome, .operationSpan, .invoiceGraphRunner]
  | .extractionAudit => [.auditSink, .extractionAudit, .operationSpan, .invoiceGraphRunner]
  | .extractionAppend =>
    [.ledgerWriter, .auditSink, .extractionAudit, .operationSpan, .invoiceGraphRunner]
  | .erpRead => [.erpRepository, .operationSpan, .invoiceGraphRunner]
  | .audit _ => [.auditSink, .auditedNode, .operationSpan, .invoiceGraphRunner]
  | .auditAppend _ =>
    [.ledgerWriter, .auditSink, .auditedNode, .operationSpan, .invoiceGraphRunner]
  | .embedding => [.gatewayClient, .operationSpan, .invoiceGraphRunner]
  | .similaritySearch => [.similarityRepository, .operationSpan, .invoiceGraphRunner]
  | .triageGateway =>
    [.gatewayClient, .triageFallback, .operationSpan, .invoiceGraphRunner]
  | .transaction _ => [.operationSpan, .invoiceGraphRunner]
  | .append _ => [.ledgerWriter, .operationSpan, .invoiceGraphRunner]

/-- The point has a time limit. -/
def isTimed : Point → Bool
  | .deadline | .documentRead | .documentPreflight | .identifierOcr | .extractionGateway
  | .extractionAudit | .erpRead | .audit _ | .embedding | .similaritySearch | .triageGateway =>
    true
  | _ => false

/-- The point sends statements to the database. -/
def isDatabase : Point → Bool
  | .loadState | .checkpointSetup | .runLock | .checkpoint | .eventRead _ | .extractionAudit
  | .erpRead | .audit _ | .similaritySearch | .transaction _ => true
  | _ => false

/-- The point is the ledger writer. -/
def isWriter : Point → Bool
  | .extractionAppend | .auditAppend _ | .append _ => true
  | _ => false

/-- The failures in question : time-outs, an `OperationalError` or an `InterfaceError`, and
what the writer reports as a `LedgerStorageError`. -/
def Raises (p : Point) (f : Failure) : Prop :=
  p.isTimed = true ∧ f = .timeout ∨ p.isDatabase = true ∧ f.isConnection = true ∨
    p.isWriter = true ∧ (LedgerWriter.reported f.error).cls = .ledgerStorageError

/-- What reaches the retry loop, if anything does. -/
def reaches (p : Point) (f : Failure) : Option Exn :=
  p.layers.foldlM (fun error layer => layer.handle error) f.error

/-- What reaches the retry loop is retried. -/
def retried (p : Point) (f : Failure) : Bool :=
  (p.reaches f).all isInfrastructureError

/-- Nothing on the way hides that the failure is one of the infrastructure's : it is not the
runner's deadline or a time-out of the ERP read, whose cause is a cancellation ; it is not of
the similarity search or of the extraction's audit, whose errors replace it ; and the writer
does not report another kind of failure as a failure of its storage. -/
def Keeps : Point → Failure → Prop
  | .deadline, _ => False
  | .erpRead, .timeout => False
  | .similaritySearch, _ => False
  | .extractionAudit, _ => False
  | .extractionAppend, _ => False
  | .auditAppend _, f => f.isConnection = true
  | .append _, f => f.isConnection = true
  | _, _ => True

end Point

namespace Exn

/-- The exception and what it was raised from, down to the root. -/
def chain : Exn → List Exn
  | .new cls detail => [.new cls detail]
  | .chained cls detail cause => .chained cls detail cause :: cause.chain

/-- The root of an error is in its chain. -/
theorem rootError_mem_chain : ∀ e : Exn, rootError e ∈ e.chain
  | .new _ _ => List.mem_singleton_self _
  | .chained _ _ cause => List.mem_cons_of_mem _ (rootError_mem_chain cause)

end Exn

/-- An exception is one of the listed types. -/
def isListed (e : Exn) : Bool :=
  infrastructure.any fun cls => e.isInstance cls

/-! ## What is retried -/

/-- A class of the driver is one of the infrastructure's only if a connection raises it. -/
theorem isListed_driver {cls : ExnClass} (h : cls.isSubclass .psycopgError = true)
    (detail : String) : isListed (.new cls detail) = isConnectionClass cls := by
  cases cls
  case other => exact absurd h (by simp [ExnClass.isSubclass, ExnClass.mro, ExnClass.base])
  all_goals first | rfl | exact absurd h (by decide)

@[simp] theorem isInfrastructureError_new (cls : ExnClass) (detail : String) :
    isInfrastructureError (.new cls detail) = isListed (.new cls detail) :=
  rfl

/-- The root decides, so a layer that chains its own error to the cause changes nothing. -/
@[simp] theorem isInfrastructureError_chained (cls : ExnClass) (detail : String) (cause : Exn) :
    isInfrastructureError (.chained cls detail cause) = isInfrastructureError cause :=
  rfl

/-- An error none of whose causes is listed is not retried. -/
theorem isInfrastructureError_unlisted {e : Exn} (h : ∀ x ∈ e.chain, isListed x = false) :
    isInfrastructureError e = false :=
  h _ (Exn.rootError_mem_chain e)

/-- What the `except` clauses ask of a class of the driver. -/
theorem driver_instances {cls : ExnClass} (h : cls.isSubclass .psycopgError = true) :
    cls.isSubclass .exception = true ∧ cls.isSubclass .ledgerError = false ∧
      cls.isSubclass .timeoutError = false ∧ cls.isSubclass .osError = false ∧
      cls.isSubclass .graphError = false := by
  cases cls
  case other => exact absurd h (by simp [ExnClass.isSubclass, ExnClass.mro, ExnClass.base])
  all_goals first | exact absurd h Bool.false_ne_true | decide

/-- What the writer reports as a failure of its storage hides nothing : the cause is retried if
it is a connection's. -/
theorem reported_storage {f : Failure}
    (h : (LedgerWriter.reported f.error).cls = .ledgerStorageError) :
    LedgerWriter.reported f.error =
        .chained .ledgerStorageError "Ledger append failed" f.error ∧
      isInfrastructureError f.error = f.isConnection := by
  obtain _ | ⟨cls, detail, ofDriver⟩ | detail := f
  · exact absurd h (by decide)
  · obtain ⟨-, hl, -⟩ := driver_instances ofDriver
    have hr : LedgerWriter.reported (.new cls detail) =
        if cls.isSubclass .integrityError then
          .chained .ledgerConflict "Ledger append conflicts with persisted constraints"
            (.new cls detail)
        else .chained .ledgerStorageError "Ledger append failed" (.new cls detail) := by
      simp [LedgerWriter.reported, Exn.isInstance, Exn.cls, hl, ofDriver]
    refine ⟨?_, isListed_driver ofDriver detail⟩
    rw [Failure.error, hr] at h ⊢
    split_ifs at h ⊢ with hi
    · exact ExnClass.noConfusion h
    · rfl
  · exact ⟨rfl, rfl⟩

namespace Point

/-- A timeout at a timed point is retried unless something there changes it. -/
theorem retried_timeout {p : Point} (h : p.isTimed = true) :
    p.retried .timeout = true ↔ p.Keeps .timeout := by
  cases p <;> first
    | exact absurd h Bool.false_ne_true
    | exact iff_of_true rfl trivial
    | exact iff_of_false Bool.false_ne_true not_false

/-- So is a lost connection at a point that talks to the database. -/
theorem retried_connection {p : Point} {f : Failure} (h : p.isDatabase = true)
    (hf : f.isConnection = true) : p.retried f = true ↔ p.Keeps f := by
  obtain _ | ⟨cls, detail, ofDriver⟩ | _ := f
  · exact absurd hf Bool.false_ne_true
  · have hi := driver_instances ofDriver
    have hl : isListed (.new cls detail) = true := (isListed_driver ofDriver detail).trans hf
    cases p <;> first
      | exact absurd h Bool.false_ne_true
      | simp +decide [retried, reaches, layers, Layer.handle, Failure.error, Keeps,
          Exn.isInstance, Exn.cls, ofDriver, hi, hl]
  · exact absurd hf Bool.false_ne_true

/-- So is a failure that the ledger's writer reports as one of its storage. -/
theorem retried_storage {p : Point} {f : Failure} (h : p.isWriter = true)
    (hf : (LedgerWriter.reported f.error).cls = .ledgerStorageError) :
    p.retried f = true ↔ p.Keeps f := by
  obtain ⟨hr, hc⟩ := reported_storage hf
  cases p <;> first
    | exact absurd h Bool.false_ne_true
    | simp +decide [retried, reaches, layers, Layer.handle, Keeps, hr, hc, Exn.isInstance,
        Exn.cls]

/-- Every raised failure in question is retried exactly where nothing hides it. -/
theorem retried_iff {p : Point} {f : Failure} (h : p.Raises f) :
    p.retried f = true ↔ p.Keeps f := by
  obtain ⟨ht, rfl⟩ | ⟨hd, hc⟩ | ⟨hw, hs⟩ := h
  · exact retried_timeout ht
  · exact retried_connection hd hc
  · exact retried_storage hw hs

/-- A failure is retried just when all that the runner may see of it is. -/
theorem retried_eq_true {p : Point} {f : Failure} :
    p.retried f = true ↔ ∀ e, p.reaches f = some e → isInfrastructureError e = true := by
  rw [retried, Option.all_eq_true]

end Point

/-- A time-out, a connection's failure or a failure of the ledger's storage is retried, whatever
wraps it, exactly where no layer hides it ; and what none of the listed types is in the chain of
is never retried. -/
theorem infrastructure_failures_retried (p : Point) (f : Failure) (h : p.Raises f) (raised : Exn) :
    ((∀ e, p.reaches f = some e → isInfrastructureError e = true) ↔ p.Keeps f) ∧
      ((∀ x ∈ raised.chain, isListed x = false) → isInfrastructureError raised = false) :=
  ⟨Point.retried_eq_true.symm.trans (Point.retried_iff h), isInfrastructureError_unlisted⟩

/-- A lost connection of the ERP read is retried. -/
theorem infrastructure_failures_retried_erpRead :
    Point.erpRead.Raises (.driver .operationalError "server closed the connection" rfl) ∧
      ∀ e, Point.erpRead.reaches (.driver .operationalError "server closed the connection" rfl) =
        some e → isInfrastructureError e = true :=
  have h : Point.erpRead.Raises (.driver .operationalError "server closed the connection" rfl) :=
    .inr (.inl ⟨rfl, rfl⟩)
  ⟨h, (infrastructure_failures_retried _ _ h (.new .valueError "")).1.2 trivial⟩

/-- The runner's deadline is a `GraphTimeout` that comes from a cancellation, and is given up at
the first attempt ; so are a time-out of the ERP read, a lost connection of the similarity search
and a time-out of the extraction's audit. -/
theorem hidden_failures :
    (Point.deadline.Raises .timeout ∧ Point.deadline.retried .timeout = false) ∧
      (Point.erpRead.Raises .timeout ∧ Point.erpRead.retried .timeout = false) ∧
      (Point.similaritySearch.Raises (.driver .operationalError "" rfl) ∧
        Point.similaritySearch.retried (.driver .operationalError "" rfl) = false) ∧
      (Point.extractionAudit.Raises .timeout ∧
        Point.extractionAudit.retried .timeout = false) ∧
      ¬ ∀ (p : Point) (f : Failure), p.Raises f →
        ∀ e, p.reaches f = some e → isInfrastructureError e = true :=
  ⟨⟨.inl ⟨rfl, rfl⟩, rfl⟩, ⟨.inl ⟨rfl, rfl⟩, rfl⟩, ⟨.inr (.inl ⟨rfl, rfl⟩), rfl⟩,
    ⟨.inl ⟨rfl, rfl⟩, rfl⟩, fun h => Bool.false_ne_true
      (Point.retried_eq_true.2 (h .deadline .timeout (.inl ⟨rfl, rfl⟩)))⟩

end InvoiceOps
