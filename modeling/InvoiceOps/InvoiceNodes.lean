import InvoiceOps.State

/-!
# The nodes of the invoice workflow

`InvoiceNodes` leaves the business work to injected services. A `NodeResult` is what they
answered at a node, dumped to JSON ; `InvoiceNodes.update` is the state with the update the
node returns for it. `validProgress` is the check every state passes before it is kept.
-/

namespace InvoiceOps

/-- A value is there and is not empty. -/
def truthy : Option Json → Bool
  | some (.obj (_ :: _)) => true
  | _ => false

/-! ## States -/

/-- What a run is loaded with. -/
structure Loaded where
  invoiceId : Uuid
  traceId : String
  asOf : Date
  rawRef : String
  contentHash : String
  contentType : String
  duplicate : Bool
  deriving DecidableEq, Repr

namespace InvoiceGraphState

/-- The state of a run that has not started : every other field has its default. -/
def initial (runId : Uuid) (loaded : Loaded) : InvoiceGraphState where
  runId := runId
  invoiceId := loaded.invoiceId
  traceId := loaded.traceId
  asOf := loaded.asOf
  rawRef := loaded.rawRef
  contentHash := loaded.contentHash
  contentType := loaded.contentType
  duplicate := loaded.duplicate
  status := .queued
  route := none
  extractionOutcome := none
  extraction := none
  validation := none
  «match» := none
  snapshot := none
  similarity := none
  taxonomy := none
  policy := none
  gate := none
  triage := none
  review := none
  completedNodes := []

/-- `valid_progress`. -/
def validProgress (s : InvoiceGraphState) : Bool :=
  s.completedNodes.Nodup && (s.status ≠ .completed || .archive ∈ s.completedNodes) &&
    (s.status ≠ .rejected || .reject ∈ s.completedNodes)

end InvoiceGraphState

/-! ## Nodes -/

/-- What the services answer at a node. -/
inductive NodeResult where
  | ingest
  | extract (outcome : Json) (extraction : Option Json)
  | validate (result : Json)
  | match3Way (snapshot : Option Json) (result : Json)
  | policy (similarity : Option Json) (taxonomy decision : Json)
  | gate (result : Json) (route : InvoiceRoute)
  | autoApprove
  | exceptionTriage (result : Json)
  | humanReview (decision : ReviewDecision)
  | archive
  | reject
  deriving DecidableEq, Repr

namespace NodeResult

/-- The node a result is of. -/
def node : NodeResult → InvoiceNodeName
  | ingest => .ingest
  | extract .. => .extract
  | validate _ => .validate
  | match3Way .. => .match3Way
  | policy .. => .policy
  | gate .. => .gate
  | autoApprove => .autoApprove
  | exceptionTriage _ => .exceptionTriage
  | humanReview _ => .humanReview
  | archive => .archive
  | reject => .reject

/-- The decision a review applies. -/
def decision : NodeResult → Option ReviewDecision
  | humanReview decision => some decision
  | _ => none

end NodeResult

namespace InvoiceNodes

/-- The fields a node sets besides `completed_nodes`. -/
def fields (s : InvoiceGraphState) : NodeResult → InvoiceGraphState
  | .ingest => { s with status := .running, route := if s.duplicate then some .reject else none }
  | .extract outcome extraction =>
    { s with extractionOutcome := some outcome, extraction := extraction }
  | .validate result => { s with validation := some result }
  | .match3Way snapshot result => { s with snapshot := snapshot, «match» := some result }
  | .policy similarity taxonomy decision =>
    { s with similarity := similarity, taxonomy := some taxonomy, policy := some decision }
  | .gate result route => { s with gate := some result, route := some route }
  | .autoApprove => s
  | .exceptionTriage result =>
    { s with status := .awaitingReview, route := some .review, triage := some result }
  | .humanReview decision => { s with review := some decision.toJson, status := .running }
  | .archive => { s with status := .completed }
  | .reject => { s with status := .rejected }

/-- The state with the update of a node. -/
def update (s : InvoiceGraphState) (result : NodeResult) : InvoiceGraphState :=
  { fields s result with completedNodes := s.completedNodes ++ [result.node] }

@[simp] theorem update_status (s : InvoiceGraphState) (result : NodeResult) :
    (update s result).status = (fields s result).status :=
  rfl

/-- Only `ExceptionTriage` leaves a state that waits for a review. -/
theorem awaitingReview_of_update {s : InvoiceGraphState} {result : NodeResult}
    (h : (update s result).status = .awaitingReview) :
    result.node = .exceptionTriage ∨ s.status = .awaitingReview := by
  cases result <;> first | exact .inl rfl | exact .inr h | exact GraphStatus.noConfusion h

end InvoiceNodes

end InvoiceOps
