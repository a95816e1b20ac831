import InvoiceOps.GateContexts
import InvoiceOps.Similarity
import InvoiceOps.TriageEvidence

/-!
# Evidence at a replay

A node of a run reads the evidence of the nodes before it from the checkpoint, and its own result,
if it is committed, from the ledger. Between a write and a read, JSON may be stored with the keys of
its objects in another order, and it may have been read and written again (`Codec.Persisted`). The
digests of committed results are those of the evidence the nodes read back (`requireDigest`).

A result of the gate is checked once more when it is read back, with the numbers of the context it
is read in. That it is accepted is a fact about contexts that compute as the default one
(`Gate.Fixed`).

`replay_accepted` : whatever checkpoints and restarts did to the evidence of a run, every node
accepts the results that are committed, and the gate is what it is on any other checkpoint.
-/

open Decimal (Ambient)

namespace InvoiceOps

/-! ## A result of the gate that is read back -/

/-- A share is read back with its value. -/
theorem Share.value_canon (share : Share) :
    (Share.codec.canon share).val.value = share.val.value :=
  Decimal.value_canonical share.val

/-- The score of a configuration that is read back is the same. -/
theorem roundedScore_canon (config : CompositeGateConfig) (fieldTerm matchDelta policyTerm : ℚ) :
    (CompositeGateConfig.codec.canon config).val.roundedScore fieldTerm matchDelta policyTerm =
      config.val.roundedScore fieldTerm matchDelta policyTerm := by
  unfold CompositeGateConfigData.roundedScore
  rw [← Share.value_canon config.val.weightField, ← Share.value_canon config.val.weightMatch,
    ← Share.value_canon config.val.weightPolicy]
  rfl

/-- So is the reason. -/
theorem roundedReason_canon (status : PolicyStatus) (config : CompositeGateConfig) (score : ℚ) :
    Gate.roundedReason status (CompositeGateConfig.codec.canon config).val score =
      Gate.roundedReason status config.val score := by
  unfold Gate.roundedReason
  rw [← Share.value_canon config.val.threshold]
  rfl

/-- The checks are about values, however they are written. -/
theorem roundedRoute_canon (result : CompositeGateResultData) :
    (CompositeGateResultData.codec.canon result).roundedRoute = result.roundedRoute := by
  have hfield := Share.value_canon result.minimumFieldConfidence
  have hdelta := Share.value_canon result.normalizedMatchDelta
  have hterm := Share.value_canon result.policySeverityTerm
  have hscore := Share.value_canon result.score
  unfold CompositeGateResultData.roundedRoute
  rw [← hfield, ← hdelta, ← hterm, ← hscore, ← roundedScore_canon result.config,
    ← roundedReason_canon _ result.config]
  rfl

/-- What the gate wrote in one context is accepted in another, if both compute as the default
one. -/
theorem validate_persisted {amb amb' : Ambient} (h : Gate.Fixed amb) (h' : Gate.Fixed amb')
    {host : Host} {request : PolicyRequest host} {policy : PolicyResult}
    {rules : CompositeGateConfig} {result : CompositeGateResultData}
    (hresult : evaluateCompositeGate amb host request policy rules = .ok result) {event : Json}
    (hevent : CompositeGateResultData.codec.Persisted result event) :
    GateOutcome.validate amb' event =
      .ok (.composite (CompositeGateResultData.codec.canon result)) := by
  have hprovisional : GateResult.codec.parse event = none := by
    rw [← GateResult.codec.parse_sorted, hevent.sorted_eq, GateResult.codec.parse_sorted]
    exact provisional_parse_composite result
  obtain ⟨-, -, -, hcoherent⟩ := of_gate_ok hresult
  have hrounded : (CompositeGateResultData.codec.canon result).revalidate amb' = .ok () := by
    rw [revalidate_rounded h'.like, roundedRoute_canon, ← coherentRoute_rounded h.like, hcoherent]
  unfold GateOutcome.validate
  rw [hprovisional, hevent.parse_eq]
  dsimp only
  rw [hrounded]
  rfl

namespace LiveServices

/-! ## The nodes -/

/-- The channels of the state that the checks are about. -/
structure EvidenceState where
  extraction : Option Json
  validation : Option Json
  «match» : Option Json
  snapshot : Option Json
  taxonomy : Option Json
  policy : Option Json

/-- `model_validate`. -/
def modelValidate {α : Type} (c : Codec α) (stored : Json) : Except Exn α :=
  match c.parse stored with
  | none => .error (.new .validationError "")
  | some x => .ok x

/-- A channel that a node needs. -/
def required {α : Type} (c : Codec α) (missing : String) : Option Json → Except Exn α
  | none => .error (.new .replayEvidenceError missing)
  | some stored => modelValidate c stored

/-- A channel that may be empty. -/
def optional {α : Type} (c : Codec α) : Option Json → Except Exn (Option α)
  | none => .ok none
  | some stored => (modelValidate c stored).map some

section

variable (host : Host) (configs : NodeConfigs) (run : RunInput)

/-- `_require_digest`. -/
def requireDigest {α : Type} (c : Codec α) (expected : Sha256) (value : α) (label : String) :
    Except Exn Unit :=
  if expected ≠ host.modelDigest c value then
    .error (.new .replayEvidenceError (label ++ " input changed after committed evidence"))
  else .ok ()

namespace EvidenceState

variable (state : EvidenceState)

/-- `_required_extraction`. -/
def requiredExtraction : Except Exn InvoiceExtraction :=
  required (InvoiceExtraction.codec host) "Extraction is unavailable for workflow node"
    state.extraction

/-- `_required_validation`. -/
def requiredValidation : Except Exn ValidationResult :=
  required ValidationResult.codec "Validation is unavailable for workflow node" state.validation

/-- `_required_match`. -/
def requiredMatch : Except Exn MatchResult :=
  required MatchResult.codec "Matching is unavailable for workflow node" state.match

/-- `_gate_request`. -/
def gateRequest : Except Exn (PolicyRequest host) :=
  match state.taxonomy with
  | none => .error (.new .replayEvidenceError "Taxonomy is unavailable for confidence gating")
  | some taxonomy => do
    let extraction ← state.requiredExtraction host
    let validation ← state.requiredValidation
    let result ← state.requiredMatch
    let taxonomy ← modelValidate TaxonomyResult.codec taxonomy
    let snapshot ← optional (ERPSnapshot.codec host) state.snapshot
    construct "PolicyRequest" (PolicyRequestData.Valid host)
      (policyRequestData { run with extraction, snapshot } validation result taxonomy)

end EvidenceState

/-- `LiveInvoiceServices.validate`, with the event that is committed. -/
def validateNode (state : EvidenceState) (cached : Option Json) :
    Except Exn ValidationResult := do
  let extraction ← state.requiredExtraction host
  match cached with
  | some event =>
    let result ← modelValidate ValidationResult.codec event
    requireDigest host (InvoiceExtraction.codec host) result.val.inputSha256 extraction "Validation"
    return result
  | none => validateInvoice host extraction configs.validation

/-- `LiveInvoiceServices.match`, on the snapshot of the store. -/
def matchNode (state : EvidenceState) (cached : Option Json) : Except Exn MatchResult := do
  let extraction ← state.requiredExtraction host
  match cached with
  | some event =>
    let result ← modelValidate MatchResult.codec event
    requireDigest host (InvoiceExtraction.codec host) result.val.extractionSha256 extraction
      "Matching extraction"
    if result.val.snapshotSha256 ≠ run.snapshot.map (host.modelDigest (ERPSnapshot.codec host)) then
      .error (.new .replayEvidenceError "ERP snapshot changed after committed matching evidence")
    else return result
  | none => matchInvoice host (matchRequest { run with extraction }) configs.matching

/-- The near-duplicate agent of a process : its configuration, and how a detection ends. -/
structure SimilarityService where
  config : SimilarityConfig
  detect : SimilarityRequest → Except Exn SimilarityResult

/-- The request `policy` builds for the detection. -/
def SimilarityService.request (service : SimilarityService) : SimilarityRequest where
  runId := run.runId
  invoiceId := run.invoiceId
  traceId := run.traceId.val
  extraction := run.extraction
  config := service.config

/-- `LiveInvoiceServices.policy`, with the events that are committed. -/
def policyNode (floats : FloatJson) (service : SimilarityService) (state : EvidenceState)
    (cachedSimilarity cachedTaxonomy cachedPolicy : Option Json) :
    Except Exn (SimilarityResult × TaxonomyResult × PolicyResult) := do
  let extraction ← state.requiredExtraction host
  let validation ← state.requiredValidation
  let result ← state.requiredMatch
  let snapshot ← optional (ERPSnapshot.codec host) state.snapshot
  let run := { run with extraction, snapshot }
  let similarity ← cachedSimilarity.elim (service.detect (service.request run))
    (modelValidate (SimilarityResult.codec host floats))
  requireDigest host (InvoiceExtraction.codec host) similarity.extractionSha256 extraction
    "Similarity"
  let run := { run with nearDuplicate := similarity.status = .nearDuplicate }
  let taxonomyRequest ← construct "TaxonomyRequest" (TaxonomyRequestData.Valid host)
    (taxonomyRequestData configs run validation result)
  let taxonomy ← cachedTaxonomy.elim
    (classifyExceptions host taxonomyRequest configs.taxonomy) (modelValidate TaxonomyResult.codec)
  requireDigest host (TaxonomyRequestData.codec host) taxonomy.val.inputSha256 taxonomyRequest.val
    "Taxonomy"
  let policyRequest ← construct "PolicyRequest" (PolicyRequestData.Valid host)
    (policyRequestData run validation result taxonomy)
  let policy ← cachedPolicy.elim
    (evaluatePolicy host policyRequest configs.policy) (modelValidate (PolicyResult.codec host))
  requireDigest host (PolicyRequest.codec host) policy.val.inputSha256 policyRequest "Policy"
  return (similarity, taxonomy, policy)

/-- `LiveInvoiceServices.gate`, with the event that is committed. -/
def gateNode (amb : Ambient) (rules : CompositeGateConfig) (state : EvidenceState)
    (cached : Option Json) : Except Exn GateOutcome := do
  let request ← state.gateRequest host run
  let policy ← state.policy.elim (.error (.new .validationError ""))
    (modelValidate (PolicyResult.codec host))
  requireDigest host (PolicyRequest.codec host) policy.val.inputSha256 request "Gate policy inputs"
  match cached with
  | some event =>
    let outcome ← GateOutcome.validate amb event
    requireDigest host (InvoiceExtraction.codec host) outcome.extractionSha256
      (← state.requiredExtraction host) "Gate extraction"
    requireDigest host (PolicyResult.codec host) outcome.policySha256 policy "Gate policy"
    match outcome with
    | .composite result =>
      requireDigest host MatchResult.codec result.matchSha256 (← state.requiredMatch)
        "Gate matching"
    | .provisional _ => pure ()
    return outcome
  | none =>
    let result ← evaluateCompositeGate amb host request policy rules
    return .composite result

/-! ## Checkpoints -/

/-- The state has the extraction. -/
structure EvidenceState.Extracted (state : EvidenceState) : Prop where
  extraction : (InvoiceExtraction.codec host).PersistedIn (some run.extraction) state.extraction

/-- The state has the results of validation and matching too. -/
structure EvidenceState.Checked (evidence : Evidence) (state : EvidenceState) : Prop
    extends state.Extracted host run where
  validation : ValidationResult.codec.PersistedIn (some evidence.validation) state.validation
  «match» : MatchResult.codec.PersistedIn (some evidence.match) state.match
  snapshot : (ERPSnapshot.codec host).PersistedIn run.snapshot state.snapshot

/-- The state has all the evidence. -/
structure EvidenceState.Decided (evidence : Evidence) (state : EvidenceState) : Prop
    extends state.Checked host run evidence where
  taxonomy : TaxonomyResult.codec.PersistedIn (some evidence.taxonomy) state.taxonomy
  policy : (PolicyResult.codec host).PersistedIn (some evidence.policy) state.policy

variable {host configs run}

/-- A value that was stored is validated into its canonical form. -/
theorem modelValidate_eq {α : Type} {c : Codec α} {x : α} {stored : Json}
    (h : c.Persisted x stored) : modelValidate c stored = .ok (c.canon x) := by
  rw [modelValidate, h.parse_eq]

/-- So is one that is required. -/
theorem required_eq {α : Type} {c : Codec α} {x : α} {missing : String} {stored : Option Json}
    (h : c.PersistedIn (some x) stored) : required c missing stored = .ok (c.canon x) := by
  cases stored with
  | none => cases h
  | some stored => exact modelValidate_eq h

/-- And one that is optional. -/
theorem optional_eq {α : Type} {c : Codec α} {x : Option α} {stored : Option Json}
    (h : c.PersistedIn x stored) : optional c stored = .ok (x.map c.canon) := by
  cases stored with
  | none =>
    cases x with
    | none => rfl
    | some x => cases h
  | some stored =>
    cases x with
    | none => cases h
    | some x => rw [optional, modelValidate_eq h]; rfl

/-- A digest of the value passes. -/
theorem requireDigest_eq {α : Type} {c : Codec α} {expected : Sha256} {value : α} {label : String}
    (h : expected = host.modelDigest c value) :
    requireDigest host c expected value label = .ok () :=
  if_neg (not_not.mpr h)

/-- A snapshot is read back as it was. -/
theorem canon_snapshot (snapshot : Option ERPSnapshot) :
    snapshot.map (ERPSnapshot.codec host).canon = snapshot := by
  have hcanon : (ERPSnapshot.codec host).canon = id :=
    funext fun s => Subtype.ext (canon_snapshotData host s.val)
  rw [hcanon, Option.map_id]
  rfl

namespace Ran

variable {evidence : Evidence}

/-- The request of the policy is valid. -/
theorem valid (h : Ran host configs run evidence) : PolicyRequestData.Valid host
    (policyRequestData run evidence.validation evidence.match evidence.taxonomy) :=
  h.policy.choose

/-- The result of the policy is about the request. -/
theorem policy_digest (h : Ran host configs run evidence) : evidence.policy.val.inputSha256 =
    host.modelDigest (PolicyRequest.codec host) ⟨_, h.valid⟩ := by
  obtain ⟨hvalid, hpolicy⟩ := h.policy
  rw [policy_ok] at hpolicy
  rw [← Except.ok.inj hpolicy]
  rfl

/-- The result of the taxonomy is about its request. -/
theorem taxonomy_digest (h : Ran host configs run evidence) (hsized : Sized evidence) :
    evidence.taxonomy.val.inputSha256 = host.modelDigest (TaxonomyRequestData.codec host)
      (taxonomyRequestData configs run evidence.validation evidence.match) := by
  obtain ⟨hvalid, htaxonomy⟩ := h.taxonomy
  obtain ⟨taxonomy, hclassify, ⟨findings, unresolved, hresult⟩, -⟩ := classify_ok host
    ⟨_, hvalid⟩ configs.taxonomy
    ⟨rfl, ⟨_, rfl, hsized.issues, hsized.fields⟩, ⟨_, rfl, hsized.match⟩⟩
  obtain rfl : taxonomy = evidence.taxonomy := Except.ok.inj (hclassify.symm.trans htaxonomy)
  rw [hresult]
  rfl

end Ran

/-! ## The requests of a replay -/

variable (host run) in
/-- The run with the extraction as it is read back. -/
def readBack : RunInput :=
  { run with extraction := (InvoiceExtraction.codec host).canon run.extraction }

/-- A result of the search for duplicates is about the run. -/
structure About (host : Host) (run : RunInput) (similarity : SimilarityResult) : Prop where
  extraction : similarity.extractionSha256 =
    host.modelDigest (InvoiceExtraction.codec host) run.extraction
  status : run.nearDuplicate = decide (similarity.status = .nearDuplicate)

/-- What the policy node finds of the duplicates : the result that is committed or, if there is
none, the one of a detection. -/
inductive Detected (host : Host) (run : RunInput) (floats : FloatJson)
    (service : SimilarityService) : Option Json → SimilarityResult → Prop
  | committed {similarity : SimilarityResult} {event : Json} : About host run similarity →
    (SimilarityResult.codec host floats).Persisted similarity event →
    Detected host run floats service (some event)
      ((SimilarityResult.codec host floats).canon similarity)
  | fresh {similarity : SimilarityResult} : About host run similarity →
    service.detect (service.request (readBack host run)) = .ok similarity →
    Detected host run floats service none similarity

namespace Detected

variable {floats : FloatJson} {service : SimilarityService} {cached : Option Json}
  {similarity : SimilarityResult}

/-- The result that the node goes on with. -/
theorem found (h : Detected host run floats service cached similarity) :
    cached.elim (service.detect (service.request (readBack host run)))
      (modelValidate (SimilarityResult.codec host floats)) = .ok similarity := by
  cases h with
  | committed _ hevent => exact modelValidate_eq hevent
  | fresh _ hdetect => exact hdetect

/-- It is about the run as it is read back. -/
theorem about (h : Detected host run floats service cached similarity) :
    About host (readBack host run) similarity := by
  have hextraction := host.modelDigest_canon (InvoiceExtraction.codec host) run.extraction
  cases h with
  | committed habout _ => exact ⟨habout.extraction.trans hextraction.symm, habout.status⟩
  | fresh habout _ => exact ⟨habout.extraction.trans hextraction.symm, habout.status⟩

end Detected

section

variable {evidence : Evidence}

/-- The request of the policy is rebuilt as it is read back. -/
theorem policyRequest_readBack (h : PolicyRequestData.Valid host
      (policyRequestData run evidence.validation evidence.match evidence.taxonomy)) :
    policyRequestData (readBack host run) (evidence.canon host).validation
        (evidence.canon host).match (evidence.canon host).taxonomy =
      ((PolicyRequest.codec host).canon ⟨_, h⟩).val := by
  have hsnapshot : ((PolicyRequest.codec host).canon ⟨_, h⟩).val.snapshot = run.snapshot :=
    canon_snapshot run.snapshot
  calc _ = (⟨run.runId, run.invoiceId, run.traceId, run.asOf,
        (InvoiceExtraction.codec host).canon run.extraction, (evidence.canon host).validation,
        (evidence.canon host).match, (evidence.canon host).taxonomy, run.snapshot⟩ :
          PolicyRequestData) := rfl
    _ = _ := by
      rw [← hsnapshot]
      rfl

/-- So is the request of the taxonomy. -/
theorem taxonomyRequest_readBack :
    taxonomyRequestData configs (readBack host run) (evidence.canon host).validation
        (evidence.canon host).match =
      (TaxonomyRequestData.codec host).canon
        (taxonomyRequestData configs run evidence.validation evidence.match) := by
  have hiban (iban : Option (Text 0 64)) : iban.map (Text.codec 0 64).canon = iban := by
    cases iban <;> rfl
  have hbank := hiban (vendorBankIban run.snapshot)
  calc _ = (⟨run.runId, run.invoiceId, run.traceId,
        some ((InvoiceExtraction.codec host).canon run.extraction),
        some (evidence.canon host).validation, some (evidence.canon host).match,
        vendorBankIban run.snapshot, false, run.nearDuplicate,
        poAgeExceeded run.snapshot run.asOf configs.policy.maxPoAgeDays.val⟩ :
          TaxonomyRequestData) := rfl
    _ = _ := by
      rw [← hbank]
      rfl

/-- The request that is rebuilt is valid. -/
theorem policyRequest_valid (h : Ran host configs run evidence) : PolicyRequestData.Valid host
    (policyRequestData (readBack host run) (evidence.canon host).validation
      (evidence.canon host).match (evidence.canon host).taxonomy) := by
  rw [policyRequest_readBack h.valid]
  exact ((PolicyRequest.codec host).canon ⟨_, h.valid⟩).property

/-- It has the digest of the first. -/
theorem policyRequest_digest (h : Ran host configs run evidence) :
    host.modelDigest (PolicyRequest.codec host) ⟨_, policyRequest_valid h⟩ =
      evidence.policy.val.inputSha256 := by
  have hrequest : (⟨_, policyRequest_valid h⟩ : PolicyRequest host) =
      (PolicyRequest.codec host).canon ⟨_, h.valid⟩ := Subtype.ext (policyRequest_readBack h.valid)
  rw [hrequest, host.modelDigest_canon, h.policy_digest]

/-- So the result that is read back is about it. -/
theorem policy_input (h : Ran host configs run evidence) :
    ((PolicyResult.codec host).canon evidence.policy).val.inputSha256 =
      host.modelDigest (PolicyRequest.codec host) ⟨_, policyRequest_valid h⟩ :=
  (policyRequest_digest h).symm

/-- The request of the taxonomy that is rebuilt is valid. -/
theorem taxonomyRequest_valid (h : Ran host configs run evidence) :
    TaxonomyRequestData.Valid host (taxonomyRequestData configs (readBack host run)
      (evidence.canon host).validation (evidence.canon host).match) := by
  have hvalid := policyRequest_valid h
  refine ⟨fun v hv => ?_, fun m hm => ?_⟩
  · rw [← Option.some.inj hv]
    exact hvalid.validation
  · rw [← Option.some.inj hm]
    exact hvalid.match

/-- The taxonomy that is read back is about it. -/
theorem taxonomy_input (h : Ran host configs run evidence) (hsized : Sized evidence) :
    (TaxonomyResult.codec.canon evidence.taxonomy).val.inputSha256 =
      host.modelDigest (TaxonomyRequestData.codec host) (taxonomyRequestData configs
        (readBack host run) (evidence.canon host).validation (evidence.canon host).match) := by
  have hcanon : (TaxonomyResult.codec.canon evidence.taxonomy).val.inputSha256 =
      evidence.taxonomy.val.inputSha256 := rfl
  rw [hcanon, taxonomyRequest_readBack, host.modelDigest_canon, h.taxonomy_digest hsized]

/-- What is read back is of the sizes a classification needs. -/
theorem Sized.holds_readBack (h : Sized evidence) : Taxonomy.Holds (taxonomyRequestData configs
    (readBack host run) (evidence.canon host).validation (evidence.canon host).match) := by
  have hline (n : Option LineNumber) : n.map LineNumber.codec.canon = n := by
    cases n <;> rfl
  have hissues : (evidence.canon host).validation.val.issues =
      evidence.validation.val.issues.map ValidationIssue.codec.canon := rfl
  have hidentity : (evidence.canon host).match.val.identityChecks =
      evidence.match.val.identityChecks.map IdentityCheck.codec.canon := rfl
  have hnumeric : (evidence.canon host).match.val.numericChecks =
      evidence.match.val.numericChecks.map NumericCheck.codec.canon := rfl
  refine ⟨rfl, ⟨_, rfl, ?_, ?_⟩, ⟨_, rfl, ?_, ?_, ?_, ?_⟩⟩
  · rw [hissues, List.length_map]
    exact h.issues
  · rw [hissues, List.forall_mem_map]
    exact h.fields
  · rw [hidentity, List.length_map]
    exact h.match.identities
  · rw [hnumeric, List.length_map]
    exact h.match.numbers
  · rw [hidentity, List.forall_mem_map]
    intro c hc n hn
    exact h.match.identityLines c hc n (by rwa [← hline c.lineNumber])
  · rw [hnumeric, List.forall_mem_map]
    intro c hc n hn
    exact h.match.numericLines c hc n (by rwa [← hline c.val.lineNumber])

/-! ## The nodes at a replay -/

/-- Validation that has committed nothing has a result. -/
theorem validateNode_fresh {state : EvidenceState} (hstate : state.Extracted host run) :
    ∃ result, validateNode host configs state none = .ok result := by
  obtain ⟨result, hresult, -⟩ :=
    validate_ok host ((InvoiceExtraction.codec host).canon run.extraction) configs.validation
  refine ⟨result, ?_⟩
  unfold validateNode EvidenceState.requiredExtraction
  rw [required_eq hstate.extraction, ok_bind]
  exact hresult

/-- So has matching. -/
theorem matchNode_fresh {state : EvidenceState} (hstate : state.Extracted host run) :
    ∃ result, matchNode host configs run state none = .ok result := by
  obtain ⟨result, hresult, -⟩ := match_ok host (matchRequest (readBack host run)) configs.matching
  refine ⟨result, ?_⟩
  unfold matchNode EvidenceState.requiredExtraction
  rw [required_eq hstate.extraction, ok_bind]
  exact hresult

/-- Validation accepts what it committed. -/
theorem validateNode_committed (h : Ran host configs run evidence) {state : EvidenceState}
    (hstate : state.Extracted host run) {event : Json}
    (hevent : ValidationResult.codec.Persisted evidence.validation event) :
    validateNode host configs state (some event) = .ok (evidence.canon host).validation := by
  have hdigest : (evidence.canon host).validation.val.inputSha256 = host.modelDigest
      (InvoiceExtraction.codec host) ((InvoiceExtraction.codec host).canon run.extraction) :=
    (policyRequest_valid h).validation
  unfold validateNode EvidenceState.requiredExtraction
  rw [required_eq hstate.extraction, ok_bind]
  dsimp only
  rw [modelValidate_eq hevent, ok_bind]
  exact congrArg (· >>= _) (requireDigest_eq hdigest)

/-- So does matching. -/
theorem matchNode_committed (h : Ran host configs run evidence) {state : EvidenceState}
    (hstate : state.Extracted host run) {event : Json}
    (hevent : MatchResult.codec.Persisted evidence.match event) :
    matchNode host configs run state (some event) = .ok (evidence.canon host).match := by
  have hvalid := policyRequest_valid h
  have hextraction : (MatchResult.codec.canon evidence.match).val.extractionSha256 =
      host.modelDigest (InvoiceExtraction.codec host)
        ((InvoiceExtraction.codec host).canon run.extraction) := hvalid.match
  have hsnapshot : (evidence.canon host).match.val.snapshotSha256 =
      run.snapshot.map (host.modelDigest (ERPSnapshot.codec host)) := by
    cases hrun : run.snapshot with
    | some s => exact hvalid.snapshot s hrun
    | none =>
      have hfound : (evidence.canon host).match.val.snapshotFound = false :=
        hvalid.found.trans (congrArg Option.isSome hrun)
      have := (evidence.canon host).match.property.1
      rw [hfound] at this
      simpa using this.symm
  unfold matchNode EvidenceState.requiredExtraction
  rw [required_eq hstate.extraction, ok_bind]
  dsimp only
  rw [modelValidate_eq hevent, ok_bind, requireDigest_eq hextraction, ok_bind]
  exact if_neg (not_not.mpr hsnapshot)

/-- The policy node, on what it reads back, once the taxonomy is known. -/
theorem policyNode_eq (h : Ran host configs run evidence) {state : EvidenceState}
    (hstate : state.Checked host run evidence) {floats : FloatJson} {service : SimilarityService}
    {cachedSimilarity : Option Json} {similarity : SimilarityResult}
    (hsimilarity : Detected host run floats service cachedSimilarity similarity)
    (cachedTaxonomy cachedPolicy : Option Json) {taxonomy : TaxonomyResult}
    (htaxonomy : cachedTaxonomy.elim
      (classifyExceptions host ⟨_, taxonomyRequest_valid h⟩ configs.taxonomy)
      (modelValidate TaxonomyResult.codec) = .ok taxonomy)
    (hdigest : taxonomy.val.inputSha256 = host.modelDigest (TaxonomyRequestData.codec host)
      (taxonomyRequestData configs (readBack host run) (evidence.canon host).validation
        (evidence.canon host).match))
    (hvalid : PolicyRequestData.Valid host (policyRequestData (readBack host run)
      (evidence.canon host).validation (evidence.canon host).match taxonomy))
    {policy : PolicyResult}
    (hpolicy : cachedPolicy.elim (evaluatePolicy host ⟨_, hvalid⟩ configs.policy)
      (modelValidate (PolicyResult.codec host)) = .ok policy)
    (hinput : policy.val.inputSha256 =
      host.modelDigest (PolicyRequest.codec host) ⟨_, hvalid⟩) :
    policyNode host configs run floats service state cachedSimilarity cachedTaxonomy cachedPolicy =
      .ok (similarity, taxonomy, policy) := by
  have hsnapshot := optional_eq hstate.snapshot
  rw [canon_snapshot] at hsnapshot
  have hextraction : similarity.extractionSha256 = host.modelDigest (InvoiceExtraction.codec host)
      ((InvoiceExtraction.codec host).canon run.extraction) := hsimilarity.about.extraction
  have hrun : ({ readBack host run with nearDuplicate := similarity.status = .nearDuplicate } :
      RunInput) = readBack host run := by
    rw [← hsimilarity.about.status]
  unfold policyNode EvidenceState.requiredExtraction EvidenceState.requiredValidation
    EvidenceState.requiredMatch
  rw [required_eq hstate.extraction, ok_bind, required_eq hstate.validation, ok_bind,
    required_eq hstate.match, ok_bind, hsnapshot, ok_bind]
  dsimp only
  change (cachedSimilarity.elim (service.detect (service.request (readBack host run)))
    (modelValidate (SimilarityResult.codec host floats)) >>= _) = _
  rw [hsimilarity.found, ok_bind, requireDigest_eq hextraction, ok_bind]
  change (construct "TaxonomyRequest" (TaxonomyRequestData.Valid host)
    (taxonomyRequestData configs { readBack host run with
      nearDuplicate := similarity.status = .nearDuplicate } (evidence.canon host).validation
      (evidence.canon host).match) >>= _) = _
  rw [hrun, construct_eq (taxonomyRequest_valid h), ok_bind, htaxonomy, ok_bind,
    requireDigest_eq hdigest, ok_bind]
  change (construct "PolicyRequest" (PolicyRequestData.Valid host)
    (policyRequestData (readBack host run) (evidence.canon host).validation
      (evidence.canon host).match taxonomy) >>= _) = _
  rw [construct_eq hvalid, ok_bind, hpolicy, ok_bind, requireDigest_eq hinput]
  rfl

/-- A policy node that has committed nothing but the duplicates has a result. -/
theorem policyNode_fresh (h : Ran host configs run evidence) (hsized : Sized evidence)
    {state : EvidenceState} (hstate : state.Checked host run evidence) {floats : FloatJson}
    {service : SimilarityService} {cached : Option Json} {similarity : SimilarityResult}
    (hsimilarity : Detected host run floats service cached similarity) :
    ∃ taxonomy policy, policyNode host configs run floats service state cached none none =
      .ok (similarity, taxonomy, policy) := by
  obtain ⟨taxonomy, htaxonomy, ⟨findings, unresolved, hresult⟩, -⟩ := classify_ok host
    ⟨_, taxonomyRequest_valid h⟩ configs.taxonomy hsized.holds_readBack
  have hrequest := policyRequest_valid h
  have hvalid : PolicyRequestData.Valid host (policyRequestData (readBack host run)
      (evidence.canon host).validation (evidence.canon host).match taxonomy) :=
    { validation := hrequest.validation
      «match» := hrequest.match
      taxonomy := congrArg TaxonomyResultData.extractionSha256 hresult
      taxonomyValidation := congrArg TaxonomyResultData.validationSha256 hresult
      taxonomyMatch := congrArg TaxonomyResultData.matchSha256 hresult
      found := hrequest.found
      snapshot := hrequest.snapshot
      order := hrequest.order }
  exact ⟨taxonomy, _, policyNode_eq h hstate hsimilarity none none htaxonomy
    (congrArg TaxonomyResultData.inputSha256 hresult) hvalid (policy_ok host _ _) rfl⟩

/-- The gate rebuilds the request of the policy. -/
theorem gateRequest_eq (h : Ran host configs run evidence) {state : EvidenceState}
    (hstate : state.Decided host run evidence) :
    state.gateRequest host run = .ok ⟨_, policyRequest_valid h⟩ := by
  have hsnapshot := optional_eq hstate.snapshot
  rw [canon_snapshot] at hsnapshot
  have htaxonomy := hstate.taxonomy
  unfold EvidenceState.gateRequest EvidenceState.requiredExtraction
    EvidenceState.requiredValidation EvidenceState.requiredMatch
  cases hstored : state.taxonomy with
  | none =>
    rw [hstored] at htaxonomy
    cases htaxonomy
  | some stored =>
    rw [hstored] at htaxonomy
    dsimp only
    rw [required_eq hstate.extraction, ok_bind, required_eq hstate.validation, ok_bind,
      required_eq hstate.match, ok_bind, modelValidate_eq htaxonomy, ok_bind, hsnapshot, ok_bind]
    exact construct_eq (policyRequest_valid h)

/-- A result of the gate has the digests of what it is about. -/
theorem gate_digests {amb : Decimal.Ambient} {request : PolicyRequest host} {policy : PolicyResult}
    {rules : CompositeGateConfig} {result : CompositeGateResultData}
    (h : evaluateCompositeGate amb host request policy rules = .ok result) :
    result.extractionSha256 =
        host.modelDigest (InvoiceExtraction.codec host) request.val.extraction ∧
      result.policySha256 = host.modelDigest (PolicyResult.codec host) policy ∧
      result.matchSha256 = host.modelDigest MatchResult.codec request.val.match := by
  unfold evaluateCompositeGate gateRules at h
  obtain ⟨rules', -, h⟩ := bind_eq_ok.mp h
  split_ifs at h
  obtain ⟨delta, -, h⟩ := bind_eq_ok.mp h
  obtain ⟨score, -, h⟩ := bind_eq_ok.mp h
  obtain ⟨reason, -, h⟩ := bind_eq_ok.mp h
  obtain ⟨scoreShare, -, h⟩ := bind_eq_ok.mp h
  obtain ⟨deltaShare, -, h⟩ := bind_eq_ok.mp h
  obtain ⟨-, -, h⟩ := bind_eq_ok.mp h
  obtain rfl := Except.ok.inj h
  exact ⟨rfl, rfl, rfl⟩

/-- The gate is the one of what is read back. -/
theorem gateNode_eq (h : Ran host configs run evidence) {state : EvidenceState}
    (hstate : state.Decided host run evidence) (amb : Ambient) (rules : CompositeGateConfig)
    (cached : Option Json) :
    gateNode host run amb rules state cached = match cached with
      | some event => do
        let outcome ← GateOutcome.validate amb event
        requireDigest host (InvoiceExtraction.codec host) outcome.extractionSha256
          ((InvoiceExtraction.codec host).canon run.extraction) "Gate extraction"
        requireDigest host (PolicyResult.codec host) outcome.policySha256
          ((PolicyResult.codec host).canon evidence.policy) "Gate policy"
        match outcome with
        | .composite result =>
          requireDigest host MatchResult.codec result.matchSha256
            (MatchResult.codec.canon evidence.match) "Gate matching"
        | .provisional _ => pure ()
        return outcome
      | none => do
        let result ← evaluateCompositeGate amb host ⟨_, policyRequest_valid h⟩
          (evidence.canon host).policy rules
        return .composite result := by
  have hpolicy : state.policy.elim (.error (.new .validationError ""))
      (modelValidate (PolicyResult.codec host)) =
        .ok ((PolicyResult.codec host).canon evidence.policy) := by
    have hstored := hstate.policy
    cases hpolicy : state.policy with
    | none =>
      rw [hpolicy] at hstored
      cases hstored
    | some stored =>
      rw [hpolicy] at hstored
      exact modelValidate_eq hstored
  unfold gateNode
  rw [gateRequest_eq h hstate, ok_bind, hpolicy, ok_bind, requireDigest_eq (policy_input h)]
  unfold EvidenceState.requiredExtraction EvidenceState.requiredMatch
  rw [required_eq hstate.extraction, required_eq hstate.match]
  exact ok_bind ..

/-- The gate accepts what it committed, in whatever context that computes as the default one. -/
theorem gateNode_committed (h : Ran host configs run evidence) {state : EvidenceState}
    (hstate : state.Decided host run evidence) {amb amb' : Ambient} (hamb : Gate.Fixed amb)
    (hamb' : Gate.Fixed amb') {rules : CompositeGateConfig} {result : CompositeGateResultData}
    (hresult : evaluateCompositeGate amb host ⟨_, policyRequest_valid h⟩
      (evidence.canon host).policy rules = .ok result) {event : Json}
    (hevent : CompositeGateResultData.codec.Persisted result event) :
    gateNode host run amb' rules state (some event) =
      .ok (.composite (CompositeGateResultData.codec.canon result)) := by
  obtain ⟨hextraction, hpolicy, hmatch⟩ := gate_digests hresult
  have hextraction : (CompositeGateResultData.codec.canon result).extractionSha256 =
      host.modelDigest (InvoiceExtraction.codec host)
        ((InvoiceExtraction.codec host).canon run.extraction) := hextraction
  have hpolicy : (CompositeGateResultData.codec.canon result).policySha256 =
      host.modelDigest (PolicyResult.codec host)
        ((PolicyResult.codec host).canon evidence.policy) := hpolicy
  have hmatch : (CompositeGateResultData.codec.canon result).matchSha256 =
      host.modelDigest MatchResult.codec (MatchResult.codec.canon evidence.match) := hmatch
  rw [gateNode_eq h hstate]
  dsimp only
  rw [validate_persisted hamb hamb' hresult hevent, ok_bind]
  change (requireDigest host _ (CompositeGateResultData.codec.canon result).extractionSha256 _ _ >>=
    _) = _
  rw [requireDigest_eq hextraction, ok_bind]
  change (requireDigest host _ (CompositeGateResultData.codec.canon result).policySha256 _ _ >>=
    _) = _
  rw [requireDigest_eq hpolicy, ok_bind]
  dsimp only
  rw [requireDigest_eq hmatch]
  rfl

end

end

end LiveServices

/-- Whatever the checkpoints and restarts of a run did to its evidence, every node accepts what is
committed of its results and has a result if none is : no digest has changed. The gate is handed the
request that the policy was about, computes what it would on any other checkpoint, and accepts what
it committed, wherever the context of a process computes as the default one. -/
theorem replay_accepted (host : Host) (configs : NodeConfigs) (run : RunInput) :
    ∃ evidence, LiveServices.evaluate host configs run = .ok evidence ∧
      (∀ state : LiveServices.EvidenceState, state.Extracted host run →
        (∃ result, LiveServices.validateNode host configs state none = .ok result) ∧
        (∃ result, LiveServices.matchNode host configs run state none = .ok result) ∧
        (∀ event, ValidationResult.codec.Persisted evidence.validation event →
          LiveServices.validateNode host configs state (some event) =
            .ok (evidence.canon host).validation) ∧
        ∀ event, MatchResult.codec.Persisted evidence.match event →
          LiveServices.matchNode host configs run state (some event) =
            .ok (evidence.canon host).match) ∧
      (∀ state : LiveServices.EvidenceState, state.Checked host run evidence →
        ∀ floats service cached similarity,
          LiveServices.Detected host run floats service cached similarity →
          (∃ taxonomy policy, LiveServices.policyNode host configs run floats service state cached
            none none = .ok (similarity, taxonomy, policy)) ∧
          ∀ event, TaxonomyResult.codec.Persisted evidence.taxonomy event →
            (∃ policy, policy.val.inputSha256 = evidence.policy.val.inputSha256 ∧
              LiveServices.policyNode host configs run floats service state cached (some event)
                none = .ok (similarity, (evidence.canon host).taxonomy, policy)) ∧
            ∀ event', (PolicyResult.codec host).Persisted evidence.policy event' →
              LiveServices.policyNode host configs run floats service state cached (some event)
                (some event') =
                .ok (similarity, (evidence.canon host).taxonomy, (evidence.canon host).policy)) ∧
      ∃ request : PolicyRequest host,
        host.modelDigest (PolicyRequest.codec host) request = evidence.policy.val.inputSha256 ∧
        ∀ state : LiveServices.EvidenceState, state.Decided host run evidence →
          state.gateRequest host run = .ok request ∧
          ∀ amb rules,
            LiveServices.gateNode host run amb rules state none =
              (evaluateCompositeGate amb host request (evidence.canon host).policy rules).map
                .composite ∧
            (Gate.Fixed amb → ∀ result,
              evaluateCompositeGate amb host request (evidence.canon host).policy rules =
                .ok result →
              ∀ amb', Gate.Fixed amb' → ∀ event,
                CompositeGateResultData.codec.Persisted result event →
                LiveServices.gateNode host run amb' rules state (some event) =
                  .ok (.composite (CompositeGateResultData.codec.canon result))) := by
  obtain ⟨evidence, hevidence, hran, hsized⟩ := LiveServices.evaluate_ok host configs run
  refine ⟨evidence, hevidence,
    fun state hstate => ⟨LiveServices.validateNode_fresh hstate,
      LiveServices.matchNode_fresh hstate,
      fun event hevent => LiveServices.validateNode_committed hran hstate hevent,
      fun event hevent => LiveServices.matchNode_committed hran hstate hevent⟩,
    fun state hstate floats service cached similarity hsimilarity =>
      ⟨LiveServices.policyNode_fresh hran hsized hstate hsimilarity,
        fun event hevent => ⟨?_, fun event' hevent' => ?_⟩⟩,
    ⟨_, LiveServices.policyRequest_valid hran⟩, LiveServices.policyRequest_digest hran,
    fun state hstate => ⟨LiveServices.gateRequest_eq hran hstate, fun amb rules => ⟨?_,
      fun hamb result hresult amb' hamb' event hevent =>
        LiveServices.gateNode_committed hran hstate hamb hamb' hresult hevent⟩⟩⟩
  · exact ⟨_, LiveServices.policyRequest_digest hran, LiveServices.policyNode_eq hran hstate
      hsimilarity (some event) none (LiveServices.modelValidate_eq hevent)
        (LiveServices.taxonomy_input hran hsized) (LiveServices.policyRequest_valid hran)
          (policy_ok host _ _) rfl⟩
  · exact LiveServices.policyNode_eq hran hstate hsimilarity (some event) (some event')
      (LiveServices.modelValidate_eq hevent) (LiveServices.taxonomy_input hran hsized)
        (LiveServices.policyRequest_valid hran) (LiveServices.modelValidate_eq hevent')
          (LiveServices.policy_input hran)
  · rw [LiveServices.gateNode_eq hran hstate]
    rfl

end InvoiceOps
