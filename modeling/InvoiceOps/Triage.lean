import InvoiceOps.GatewaySettings
import InvoiceOps.Policy

/-!
# Triage

`gatherTriageEvidence` turns the results of the checks into facts with references, the first 150 of
which are the evidence of a review. `TriageAgent.prepare` asks a model for a draft about them : it
may cite nothing else, and approve nothing that the evidence says is blocked.
-/

namespace InvoiceOps

/-! ## Facts -/

/-- `^[a-z_]+:[A-Za-z0-9_:.\-]+$`, of at most 100 characters. -/
def isFactRef (s : String) : Bool :=
  let low := fun c => ('a' ≤ c && c ≤ 'z') || c = '_'
  let any := fun c => ('A' ≤ c && c ≤ 'Z') || ('a' ≤ c && c ≤ 'z') || ('0' ≤ c && c ≤ '9') ||
    c ∈ ['_', ':', '.', '-']
  s.length ≤ 100 && s.toList.takeWhile low ≠ [] &&
    match s.toList.dropWhile low with
    | [] => false
    | c :: rest => c = ':' && rest ≠ [] && rest.all any

/-- `TriageFact`, before its bounds are checked. -/
structure TriageFactData where
  ref : String
  detail : String
  deriving DecidableEq

/-- The reference has its form, and the detail its length. -/
def TriageFactData.Valid (fact : TriageFactData) : Prop :=
  isFactRef fact.ref ∧ 1 ≤ fact.detail.length ∧ fact.detail.length ≤ 500

instance : DecidablePred TriageFactData.Valid :=
  fun _ => inferInstanceAs (Decidable (_ ∧ _))

/-- A fact that `TriageFact` accepts. -/
abbrev TriageFact := { fact : TriageFactData // fact.Valid }

/-- The versions of the evidence. -/
inductive EvidenceVersion where
  | v1
  deriving DecidableEq, Repr

/-- `TriageEvidence` : at most 150 facts, each under a reference of its own. -/
structure TriageEvidence where
  version : EvidenceVersion
  facts : { facts : List TriageFact //
    (1 ≤ facts.length ∧ facts.length ≤ 150) ∧ (facts.map fun fact => fact.val.ref).Nodup }
  deriving DecidableEq

/-- A fact as JSON. -/
def TriageFact.codec : Codec TriageFact :=
  ((Codec.record ((Fields.required "ref" Codec.string).and <|
      .required "detail" Codec.string) (by simp)).map
    (fun (ref, detail) => (⟨ref, detail⟩ : TriageFactData)) (fun fact => (fact.ref, fact.detail))
    fun _ => rfl).check TriageFactData.Valid fun fact h => by
      obtain ⟨ref, detail⟩ := fact
      exact h

theorem canon_triageFact (fact : TriageFact) : TriageFact.codec.canon fact = fact :=
  rfl

/-- The evidence as JSON, as its digest covers it. -/
def TriageEvidence.codec : Codec TriageEvidence :=
  (Codec.record
    ((Fields.default "version" (Codec.literal (fun _ => "triage-evidence@v1") [EvidenceVersion.v1]
      fun x => by cases x; rfl) .v1).and <|
      .required "facts" (TriageFact.codec.list.check
        (fun facts => (1 ≤ facts.length ∧ facts.length ≤ 150) ∧
          (facts.map fun fact => fact.val.ref).Nodup)
        fun facts h => by rwa [Codec.canon_list _ canon_triageFact])) (by simp)).map
    (fun (version, facts) => ⟨version, facts⟩) (fun evidence => (evidence.version, evidence.facts))
    fun _ => rfl

/-! ## The evidence -/

namespace Triage

/-- A reference, of its parts. -/
def ref (parts : List String) : String :=
  ":".intercalate parts

/-- The parts of a fact's reference, and its detail. -/
abbrev Entry := List String × String

/-- `TriageFact(...)`. -/
def newFact (entry : Entry) : Except Exn TriageFact :=
  construct "TriageFact" TriageFactData.Valid ⟨ref entry.1, entry.2⟩

/-- The facts every review begins with. -/
def workflowEntries (extractionEscalated : Bool) : List Entry :=
  [(["workflow", "review"], "Human review is required"),
    (["extraction", "status"], if extractionEscalated then "ESCALATED" else "COMPLETED")]

/-- The findings, each with how many there were of its code so far. -/
def numbered (counts : ExceptionCode → ℕ) :
    List ExceptionFinding → List (ExceptionFinding × ℕ)
  | [] => []
  | f :: fs =>
    let counts := Function.update counts f.code (counts f.code + 1)
    (f, counts f.code) :: numbered counts fs

/-- The reference of a code's first finding, or of a later one. -/
def codeRef (code : ExceptionCode) (count : ℕ) : List String :=
  if count = 1 then ["taxonomy", code.text] else ["taxonomy", code.text, toString count]

/-- What a finding is shown as. -/
def findingDetail (evidence : EvidenceRefData) : String :=
  let suffix := match evidence.lineNumber with
    | none => ""
    | some n => if n = 0 then "" else " line " ++ toString n
  evidence.source.text ++ "." ++ evidence.field ++ suffix

/-- The facts of a classification. -/
def taxonomyEntries (taxonomy : TaxonomyResultData) : List Entry :=
  (["taxonomy", "status"], taxonomy.status.text) ::
    (numbered (fun _ => 0) taxonomy.findings).map fun f =>
      (codeRef f.1.code f.2, findingDetail f.1.evidence.val)

/-- The facts of a policy result. -/
def policyEntries (policy : PolicyResultData) : List Entry :=
  (["policy", "status"], policy.status.text) ::
    policy.findings.map fun f => (["policy", f.reason.text], f.field.val)

/-- `str`, of a decimal that may be missing. -/
def decimalStr (d : Option Decimal) : String :=
  d.elim "None" fun d => String.ofList d.scientific

/-- What an identity check is shown as. -/
def identityDetail (check : IdentityCheck) : String :=
  check.field.text ++ " " ++ check.status.text

/-- What a numeric check is shown as. -/
def numericDetail (check : NumericCheckData) : String :=
  check.field.text ++ " " ++ check.status.text ++ "; delta=" ++ decimalStr check.difference ++
    "; tolerance=" ++ decimalStr check.tolerance

/-- The facts of a match : its status, and the checks that do not match. -/
def matchEntries (result : MatchResultData) : List Entry :=
  (["match", "status"], result.status.text) ::
    ((result.identityChecks.zipIdx.filter fun c => c.1.status ≠ .match).map fun c =>
      (["match", "identity", toString c.2], identityDetail c.1)) ++
    (result.numericChecks.zipIdx.filter fun c => c.1.val.status ≠ .match).map fun c =>
      (["match", "numeric", toString c.2], numericDetail c.1.val)

/-- The facts of a validation. -/
def validationEntries (result : ValidationResultData) : List Entry :=
  (["validation", "status"], result.status.text) ::
    result.issues.zipIdx.map fun issue =>
      (["validation", "issue", toString issue.2],
        issue.1.val.code.text ++ " " ++ issue.1.val.field)

/-- All the facts there are. -/
def entries (taxonomy : Option TaxonomyResult) (policy : Option PolicyResult)
    (result : Option MatchResult) (validation : Option ValidationResult)
    (extractionEscalated : Bool) : List Entry :=
  workflowEntries extractionEscalated ++ taxonomy.elim [] (fun t => taxonomyEntries t.val) ++
    policy.elim [] (fun p => policyEntries p.val) ++ result.elim [] (fun m => matchEntries m.val) ++
    validation.elim [] fun v => validationEntries v.val

end Triage

/-- `gather_triage_evidence`. -/
def gatherTriageEvidence (taxonomy : Option TaxonomyResult) (policy : Option PolicyResult)
    (result : Option MatchResult) (validation : Option ValidationResult)
    (extractionEscalated : Bool) : Except Exn TriageEvidence := do
  let facts ← (Triage.entries taxonomy policy result validation extractionEscalated).mapM
    Triage.newFact
  let facts ← construct "TriageEvidence" (fun facts : List TriageFact =>
    (1 ≤ facts.length ∧ facts.length ≤ 150) ∧ (facts.map fun fact => fact.val.ref).Nodup)
    (facts.take 150)
  return ⟨.v1, facts⟩

/-! ## The agent -/

/-- `TriageRequest`, before its digest is checked. -/
structure TriageRequestData where
  runId : Uuid
  invoiceId : Uuid
  traceId : { s : String // isTraceId s }
  evidence : TriageEvidence
  evidenceSha256 : Sha256
  deriving DecidableEq

/-- `coherent_evidence`. -/
def TriageRequestData.Valid (host : Host) (request : TriageRequestData) : Prop :=
  request.evidenceSha256 = host.modelDigest TriageEvidence.codec request.evidence

instance (host : Host) : DecidablePred (TriageRequestData.Valid host) :=
  fun _ => inferInstanceAs (Decidable (_ = _))

/-- A request under the digest of its evidence. -/
abbrev TriageRequest (host : Host) := { request : TriageRequestData // request.Valid host }

/-- `TriageDraft`. -/
structure TriageDraft where
  recommendedAction : ReviewAction
  summary : Text 1 500
  rationale : Text 1 2000
  evidenceRefs : { refs : List String // (1 ≤ refs.length ∧ refs.length ≤ 20) ∧ refs.Nodup }
  deriving DecidableEq

/-- How a triage ended. -/
inductive TriageStatus where
  | draft | fallback
  deriving DecidableEq, Repr

/-- Why a triage has no draft. -/
inductive FallbackReason where
  | gatewayFailure | invalidEvidenceRefs | policyConflict
  deriving DecidableEq, Repr

/-- `TriageResult`, before its bounds and its status are checked. -/
structure TriageResultData where
  status : TriageStatus
  draft : Option TriageDraft
  fallbackReason : Option FallbackReason
  evidenceSha256 : Sha256
  modelVersion : String
  gatewayAttempts : ℕ
  inputTokens : Option ℕ := none
  outputTokens : Option ℕ := none
  costUsd : Option Decimal := none
  deriving DecidableEq

/-- `coherent_outcome`, with the bounds of the fields. -/
def TriageResultData.Valid (result : TriageResultData) : Prop :=
  (1 ≤ result.modelVersion.length ∧ result.modelVersion.length ≤ 160) ∧
    result.gatewayAttempts ≤ 6 ∧ (∀ c ∈ result.costUsd, 0 ≤ c.value) ∧
    (result.status = .draft ↔ result.draft.isSome) ∧
    (result.status = .fallback ↔ result.fallbackReason.isSome)

instance : DecidablePred TriageResultData.Valid :=
  fun _ => inferInstanceAs (Decidable (_ ∧ _ ∧ _ ∧ _ ∧ _))

/-- A result that `TriageResult` accepts. -/
abbrev TriageResult := { result : TriageResultData // result.Valid }

/-- What comes of a request to the gateway : a draft, an error of the configuration, which the agent
does not catch, or a failure. -/
inductive GatewayReply where
  | completed (response : GatewayResult TriageDraft)
  | misconfigured (error : Exn)
  | failed (attempts : ℕ) (costUsd : Option Cost)

namespace TriageAgent

variable {host : Host}

/-- `_fallback`. -/
def fallback (request : TriageRequest host) (modelVersion : String) (reason : FallbackReason)
    (attempts : ℕ) (costUsd : Option Decimal) : Except Exn TriageResult :=
  construct "TriageResult" TriageResultData.Valid
    { status := .fallback
      draft := none
      fallbackReason := some reason
      evidenceSha256 := request.val.evidenceSha256
      modelVersion := modelVersion
      gatewayAttempts := attempts
      costUsd := costUsd }

/-- The fact that the policy blocks the invoice. -/
def isBlock (fact : TriageFact) : Bool :=
  fact.val.ref = "policy:status" && fact.val.detail = "BLOCK"

/-- `prepare`, under the model version of the configured policy. -/
def prepare (request : TriageRequest host) (policyVersion : GatewayVersion) :
    GatewayReply → Except Exn TriageResult
  | .misconfigured error => .error error
  | .failed attempts costUsd =>
    fallback request policyVersion.val .gatewayFailure attempts (costUsd.map Subtype.val)
  | .completed response =>
    let draft := response.value
    let facts := request.val.evidence.facts.val
    let modelVersion := response.provenance.modelVersion.val
    let costUsd := response.costUsd.map Subtype.val
    if ¬∀ r ∈ draft.evidenceRefs.val, r ∈ facts.map fun fact => fact.val.ref then
      fallback request modelVersion .invalidEvidenceRefs response.attempts costUsd
    else if draft.recommendedAction = .approve ∧ facts.any isBlock then
      fallback request modelVersion .policyConflict response.attempts costUsd
    else
      construct "TriageResult" TriageResultData.Valid
        { status := .draft
          draft := some draft
          fallbackReason := none
          evidenceSha256 := request.val.evidenceSha256
          modelVersion := modelVersion
          gatewayAttempts := response.attempts
          inputTokens := some response.usage.inputTokens
          outputTokens := some response.usage.outputTokens
          costUsd := costUsd }

end TriageAgent

end InvoiceOps
