import InvoiceOps.Values

/-!
# The workflow state

`InvoiceGraphState` is the state the graph checkpoints after each node, `ReviewDecision` the
decision a person resumes it with.
-/

namespace InvoiceOps

/-- The nodes of the workflow. -/
inductive InvoiceNodeName where
  | ingest | extract | validate | match3Way | policy | gate | autoApprove | exceptionTriage
  | humanReview | archive | reject
  deriving DecidableEq, Repr

/-- How far a run of the workflow is. -/
inductive GraphStatus where
  | queued | running | awaitingReview | completed | rejected
  deriving DecidableEq, Repr

/-- Where the workflow sends an invoice. -/
inductive InvoiceRoute where
  | autoApprove | review | reject
  deriving DecidableEq, Repr

/-- What a reviewer may do. -/
inductive ReviewAction where
  | approve | «return» | escalate
  deriving DecidableEq, Repr

/-- A date, as the number of its day. -/
abbrev Date := ℤ

/-- `ReviewDecision`. -/
structure ReviewDecision where
  action : ReviewAction
  actorId : String
  rationale : String
  reasonCode : String
  deriving DecidableEq, Repr

namespace ReviewDecision

/-- The value of an action. -/
def actionText : ReviewAction → String
  | .approve => "APPROVE"
  | .return => "RETURN"
  | .escalate => "ESCALATE"

/-- `model_dump(mode="json")`. -/
def toJson (d : ReviewDecision) : Json :=
  .obj [("action", .str (actionText d.action)), ("actor_id", .str d.actorId),
    ("rationale", .str d.rationale), ("reason_code", .str d.reasonCode)]

theorem actionText_injective : Function.Injective actionText := by
  intro a b h
  cases a <;> cases b <;> first | rfl | exact absurd h (by decide)

theorem toJson_injective : Function.Injective toJson := by
  rintro ⟨a, b, c, d⟩ ⟨a', b', c', d'⟩ h
  simp only [toJson, Json.obj.injEq, List.cons.injEq, Prod.mk.injEq, Json.str.injEq, true_and,
    and_true] at h
  obtain ⟨ha, rfl, rfl, rfl⟩ := h
  rw [actionText_injective ha]

end ReviewDecision

/-- `InvoiceGraphState`. -/
structure InvoiceGraphState where
  runId : Uuid
  invoiceId : Uuid
  traceId : String
  asOf : Date
  rawRef : String
  contentHash : String
  contentType : String
  duplicate : Bool
  status : GraphStatus
  route : Option InvoiceRoute
  extractionOutcome : Option Json
  extraction : Option Json
  validation : Option Json
  «match» : Option Json
  snapshot : Option Json
  similarity : Option Json
  taxonomy : Option Json
  policy : Option Json
  gate : Option Json
  triage : Option Json
  review : Option Json
  completedNodes : List InvoiceNodeName
  deriving DecidableEq, Repr

end InvoiceOps
