import InvoiceOps.Taxonomy

/-!
# The invoice policy

`evaluatePolicy` checks spend limits, the age and status of the purchase order and what the earlier
checks found. Its result is eligible for automatic approval only if nothing was found, and blocked
by an exact duplicate, a cancelled order or a hard spend limit.
-/

namespace InvoiceOps

/-! ## Configuration -/

/-- `SpendBand`, before its limits are compared. -/
structure SpendBandData where
  currency : Currency
  autoApproveLimit : { d : Decimal // 0 ≤ d.value }
  managerLimit : { d : Decimal // 0 < d.value }
  directorLimit : { d : Decimal // 0 < d.value }
  hardSpendLimit : { d : Decimal // 0 < d.value }
  deriving DecidableEq

/-- `ascending_bands`. -/
def SpendBandData.Valid (band : SpendBandData) : Prop :=
  band.autoApproveLimit.val.value < band.managerLimit.val.value ∧
    band.managerLimit.val.value < band.directorLimit.val.value ∧
    band.directorLimit.val.value < band.hardSpendLimit.val.value

instance : DecidablePred SpendBandData.Valid :=
  fun _ => inferInstanceAs (Decidable (_ ∧ _ ∧ _))

/-- A band whose limits ascend. -/
abbrev SpendBand := { band : SpendBandData // band.Valid }

/-- `PolicyConfig`. -/
structure PolicyConfig where
  version : ConfigVersion
  bands : { bands : List SpendBand //
    (bands ≠ [] ∧ bands.length ≤ 200) ∧ (bands.map fun band => band.val.currency).Nodup }
  maxPoAgeDays : { n : ℕ // 1 ≤ n ∧ n ≤ 3650 }
  deriving DecidableEq

namespace PolicyConfig

/-- The default limits. -/
def band (currency : Currency) : SpendBand :=
  ⟨⟨currency, ⟨⟨false, 10000, 0⟩, by decide +kernel⟩, ⟨⟨false, 50000, 0⟩, by decide +kernel⟩,
    ⟨⟨false, 100000, 0⟩, by decide +kernel⟩, ⟨⟨false, 250000, 0⟩, by decide +kernel⟩⟩,
    (by decide +kernel : (Decimal.value ⟨false, 10000, 0⟩ < Decimal.value ⟨false, 50000, 0⟩) ∧
      (Decimal.value ⟨false, 50000, 0⟩ < Decimal.value ⟨false, 100000, 0⟩) ∧
      Decimal.value ⟨false, 100000, 0⟩ < Decimal.value ⟨false, 250000, 0⟩)⟩

/-- The `PolicyConfig` that is built without arguments. -/
def default : PolicyConfig where
  version := ⟨"invoice-policy@v1", by decide⟩
  bands := ⟨[
    band .eur,
    band .gbp,
    ⟨⟨.jpy, ⟨⟨false, 1000000, 0⟩, by decide +kernel⟩,
      ⟨⟨false, 5000000, 0⟩, by decide +kernel⟩, ⟨⟨false, 10000000, 0⟩, by decide +kernel⟩,
      ⟨⟨false, 25000000, 0⟩, by decide +kernel⟩⟩, by decide +kernel⟩,
    ⟨⟨.kwd, ⟨⟨false, 3000, 0⟩, by decide +kernel⟩,
      ⟨⟨false, 15000, 0⟩, by decide +kernel⟩, ⟨⟨false, 30000, 0⟩, by decide +kernel⟩,
      ⟨⟨false, 75000, 0⟩, by decide +kernel⟩⟩, by decide +kernel⟩,
    ⟨⟨.pln, ⟨⟨false, 40000, 0⟩, by decide +kernel⟩,
      ⟨⟨false, 200000, 0⟩, by decide +kernel⟩, ⟨⟨false, 400000, 0⟩, by decide +kernel⟩,
      ⟨⟨false, 1000000, 0⟩, by decide +kernel⟩⟩, by decide +kernel⟩,
    band .usd], by decide⟩
  maxPoAgeDays := ⟨365, by decide⟩

end PolicyConfig

/-! ## Requests -/

/-- `PolicyRequest`, before its evidence is checked. -/
structure PolicyRequestData where
  runId : Uuid
  invoiceId : Uuid
  traceId : { s : String // isTraceId s }
  asOf : Date
  extraction : InvoiceExtraction
  validation : ValidationResult
  «match» : MatchResult
  taxonomy : TaxonomyResult
  snapshot : Option ERPSnapshot
  deriving DecidableEq

/-- `evidence_is_same_invoice`. -/
structure PolicyRequestData.Valid (host : Host) (request : PolicyRequestData) : Prop where
  validation : request.validation.val.inputSha256 =
    host.modelDigest (InvoiceExtraction.codec host) request.extraction
  «match» : request.match.val.extractionSha256 =
    host.modelDigest (InvoiceExtraction.codec host) request.extraction
  taxonomy : request.taxonomy.val.extractionSha256 =
    some (host.modelDigest (InvoiceExtraction.codec host) request.extraction)
  taxonomyValidation : request.taxonomy.val.validationSha256 =
    some (host.modelDigest ValidationResult.codec request.validation)
  taxonomyMatch : request.taxonomy.val.matchSha256 =
    some (host.modelDigest MatchResult.codec request.match)
  found : request.match.val.snapshotFound = request.snapshot.isSome
  snapshot : ∀ s ∈ request.snapshot,
    request.match.val.snapshotSha256 = some (host.modelDigest (ERPSnapshot.codec host) s)
  order : ∀ s ∈ request.snapshot,
    request.match.val.poStatus = some s.val.purchaseOrder.status.text ∧
      request.match.val.poNumber = some s.val.purchaseOrder.poNumber.val

instance (host : Host) : DecidablePred (PolicyRequestData.Valid host) := fun request =>
  decidable_of_iff
    (request.validation.val.inputSha256 =
        host.modelDigest (InvoiceExtraction.codec host) request.extraction ∧
      request.match.val.extractionSha256 =
        host.modelDigest (InvoiceExtraction.codec host) request.extraction ∧
      request.taxonomy.val.extractionSha256 =
        some (host.modelDigest (InvoiceExtraction.codec host) request.extraction) ∧
      request.taxonomy.val.validationSha256 =
        some (host.modelDigest ValidationResult.codec request.validation) ∧
      request.taxonomy.val.matchSha256 =
        some (host.modelDigest MatchResult.codec request.match) ∧
      request.match.val.snapshotFound = request.snapshot.isSome ∧
      (∀ s ∈ request.snapshot,
        request.match.val.snapshotSha256 = some (host.modelDigest (ERPSnapshot.codec host) s)) ∧
      ∀ s ∈ request.snapshot,
        request.match.val.poStatus = some s.val.purchaseOrder.status.text ∧
          request.match.val.poNumber = some s.val.purchaseOrder.poNumber.val)
    ⟨fun ⟨h₁, h₂, h₃, h₄, h₅, h₆, h₇, h₈⟩ => ⟨h₁, h₂, h₃, h₄, h₅, h₆, h₇, h₈⟩,
      fun h => ⟨h.validation, h.match, h.taxonomy, h.taxonomyValidation, h.taxonomyMatch, h.found,
        h.snapshot, h.order⟩⟩

/-- A request whose evidence belongs together. -/
abbrev PolicyRequest (host : Host) := { request : PolicyRequestData // request.Valid host }

/-! ## Results -/

/-- Who has to approve. -/
inductive ApprovalTier where
  | none | apManager | procurementDirector | dualControl | unknown
  deriving DecidableEq, Repr

/-- What the policy makes of an invoice. -/
inductive PolicyStatus where
  | autoApproveEligible | review | block
  deriving DecidableEq, Repr

/-- `PolicyReason`. -/
inductive PolicyReason where
  | exactDuplicate | cancelledPo | closedPo | stalePo | futurePo | spendCapExceeded
  | approvalRequired | exceptionPresent | unresolvedEvidence | validationFailed | matchNotPassed
  | unknownAmount | invalidAmount | unsupportedCurrency
  deriving DecidableEq, Repr

/-- A reason, with the field it is about. -/
structure PolicyFinding where
  reason : PolicyReason
  field : Text 1 80
  deriving DecidableEq

/-- `PolicyResult`, before its status is checked. -/
structure PolicyResultData where
  status : PolicyStatus
  approvalTier : ApprovalTier
  currency : Option String
  amount : Option Decimal
  findings : List PolicyFinding
  asOf : Date
  inputSha256 : Sha256
  configSha256 : Sha256
  config : PolicyConfig
  deriving DecidableEq

namespace Policy

/-- The reasons that block. -/
def blocking : List PolicyReason :=
  [.exactDuplicate, .cancelledPo, .spendCapExceeded]

/-- The status that follows from the reasons. -/
def statusOf (findings : List PolicyFinding) : PolicyStatus :=
  if findings.any fun f => f.reason ∈ blocking then .block
  else if findings ≠ [] then .review
  else .autoApproveEligible

end Policy

/-- `decision_matches_findings`. -/
structure PolicyResultData.Valid (result : PolicyResultData) : Prop where
  unique : (result.findings.map PolicyFinding.reason).Nodup
  status : result.status = Policy.statusOf result.findings
  eligible : result.status = .autoApproveEligible →
    result.approvalTier = .none ∧ (∃ a ∈ result.amount, 0 ≤ a.value) ∧ result.currency ≠ none

instance : DecidablePred PolicyResultData.Valid := fun result =>
  decidable_of_iff
    ((result.findings.map PolicyFinding.reason).Nodup ∧
      result.status = Policy.statusOf result.findings ∧
      (result.status = .autoApproveEligible →
        result.approvalTier = .none ∧ (result.amount.any fun a => 0 ≤ a.value) = true ∧
          result.currency ≠ none))
    (by
      have hamount : (result.amount.any fun a => decide (0 ≤ a.value)) = true ↔
          ∃ a ∈ result.amount, 0 ≤ a.value := by
        cases result.amount <;> simp
      rw [hamount]
      exact ⟨fun ⟨h₁, h₂, h₃⟩ => ⟨h₁, h₂, h₃⟩, fun h => ⟨h.unique, h.status, h.eligible⟩⟩)

/-- A result whose status follows from its reasons. -/
abbrev PolicyResult := { result : PolicyResultData // result.Valid }

/-! ## As JSON -/

/-- A limit with a condition on its value. -/
def limit (p : ℚ → Prop) [DecidablePred p] : Codec { d : Decimal // p d.value } :=
  exactWhere (fun d => p d.value) fun d h => by rwa [Decimal.value_canonical]

/-- A band as JSON ; it is checked as it is read. -/
def SpendBand.codec : Codec SpendBand :=
  ((Codec.record ((Fields.required "currency" Currency.codec).and <|
      (Fields.default "auto_approve_limit" (limit (0 ≤ ·))
        ⟨⟨false, 10000, 0⟩, by decide +kernel⟩).and <|
      (Fields.default "manager_limit" (limit (0 < ·)) ⟨⟨false, 50000, 0⟩, by decide +kernel⟩).and <|
      (Fields.default "director_limit" (limit (0 < ·))
        ⟨⟨false, 100000, 0⟩, by decide +kernel⟩).and <|
      .default "hard_spend_limit" (limit (0 < ·)) ⟨⟨false, 250000, 0⟩, by decide +kernel⟩)
      (by simp)).map
    (fun (currency, autoApproveLimit, managerLimit, directorLimit, hardSpendLimit) =>
      (⟨currency, autoApproveLimit, managerLimit, directorLimit, hardSpendLimit⟩ :
        SpendBandData))
    (fun band => (band.currency, band.autoApproveLimit, band.managerLimit, band.directorLimit,
      band.hardSpendLimit)) fun _ => rfl).check SpendBandData.Valid fun band h => by
      unfold SpendBandData.Valid at h ⊢
      rw [← Decimal.value_canonical, ← Decimal.value_canonical band.managerLimit.val,
        ← Decimal.value_canonical band.directorLimit.val,
        ← Decimal.value_canonical band.hardSpendLimit.val] at h
      exact h

/-- A configuration as JSON ; what it leaves out is as in the default one. -/
def PolicyConfig.codec : Codec PolicyConfig :=
  (Codec.record ((Fields.default "version" ConfigVersion.codec PolicyConfig.default.version).and <|
      (Fields.default "bands" (SpendBand.codec.list.check
        (fun bands => (bands ≠ [] ∧ bands.length ≤ 200) ∧
          (bands.map fun band => band.val.currency).Nodup)
        fun bands h => by
          have hmap : (SpendBand.codec.list.canon bands).map (fun band => band.val.currency) =
              bands.map fun band => band.val.currency := by
            rw [Codec.list, List.map_map]
            rfl
          refine ⟨⟨fun hnil => h.1.1 (List.map_eq_nil_iff.mp hnil),
            (List.length_map _).trans_le h.1.2⟩, ?_⟩
          rw [hmap]
          exact h.2)
        PolicyConfig.default.bands).and <|
      .default "max_po_age_days" (Codec.nat.check _ fun _ h => h)
        PolicyConfig.default.maxPoAgeDays) (by simp)).map
    (fun (version, bands, maxPoAgeDays) => ⟨version, bands, maxPoAgeDays⟩)
    (fun config => (config.version, config.bands, config.maxPoAgeDays)) fun _ => rfl

namespace ApprovalTier

/-- The value of a tier. -/
def text : ApprovalTier → String
  | none => "NONE"
  | apManager => "AP_MANAGER"
  | procurementDirector => "PROCUREMENT_DIRECTOR"
  | dualControl => "DUAL_CONTROL"
  | unknown => "UNKNOWN"

/-- A tier is read back by its value. -/
def codec : Codec ApprovalTier :=
  .literal text [none, apManager, procurementDirector, dualControl, unknown]
    fun x => by cases x <;> rfl

end ApprovalTier

namespace PolicyStatus

/-- The value of a status. -/
def text : PolicyStatus → String
  | autoApproveEligible => "AUTO_APPROVE_ELIGIBLE"
  | review => "REVIEW"
  | block => "BLOCK"

/-- A status is read back by its value. -/
def codec : Codec PolicyStatus :=
  .literal text [autoApproveEligible, review, block] fun x => by cases x <;> rfl

end PolicyStatus

namespace PolicyReason

/-- The value of a reason. -/
def text : PolicyReason → String
  | exactDuplicate => "EXACT_DUPLICATE"
  | cancelledPo => "CANCELLED_PO"
  | closedPo => "CLOSED_PO"
  | stalePo => "STALE_PO"
  | futurePo => "FUTURE_PO"
  | spendCapExceeded => "SPEND_CAP_EXCEEDED"
  | approvalRequired => "APPROVAL_REQUIRED"
  | exceptionPresent => "EXCEPTION_PRESENT"
  | unresolvedEvidence => "UNRESOLVED_EVIDENCE"
  | validationFailed => "VALIDATION_FAILED"
  | matchNotPassed => "MATCH_NOT_PASSED"
  | unknownAmount => "UNKNOWN_AMOUNT"
  | invalidAmount => "INVALID_AMOUNT"
  | unsupportedCurrency => "UNSUPPORTED_CURRENCY"

/-- The reasons, in the order they are found. -/
def order : List PolicyReason :=
  [exactDuplicate, cancelledPo, closedPo, futurePo, stalePo, unsupportedCurrency, unknownAmount,
    invalidAmount, spendCapExceeded, approvalRequired, exceptionPresent, unresolvedEvidence,
    validationFailed, matchNotPassed]

/-- A reason is read back by its value. -/
def codec : Codec PolicyReason :=
  .literal text order fun x => by cases x <;> rfl

/-- The field a reason is about. -/
def field : PolicyReason → Text 1 80
  | exactDuplicate => ⟨"content_hash", by decide⟩
  | cancelledPo | closedPo => ⟨"po_status", by decide⟩
  | futurePo | stalePo => ⟨"issued_on", by decide⟩
  | unsupportedCurrency => ⟨"currency", by decide⟩
  | unknownAmount | invalidAmount | spendCapExceeded | approvalRequired =>
    ⟨"total_amount", by decide⟩
  | exceptionPresent | unresolvedEvidence => ⟨"taxonomy", by decide⟩
  | validationFailed => ⟨"validation", by decide⟩
  | matchNotPassed => ⟨"match", by decide⟩

end PolicyReason

/-- A finding as JSON. -/
def PolicyFinding.codec : Codec PolicyFinding :=
  (Codec.record ((Fields.required "reason" PolicyReason.codec).and <|
      .required "field" (Text.codec 1 80)) (by simp)).map
    (fun (reason, field) => ⟨reason, field⟩) (fun finding => (finding.reason, finding.field))
    fun _ => rfl

/-- A finding is read back as it was. -/
theorem canon_policyFinding (finding : PolicyFinding) :
    PolicyFinding.codec.canon finding = finding :=
  rfl

theorem canon_someSha256 (x : Option Sha256) : Option.map Sha256.codec.canon x = x :=
  Option.map_id'

theorem canon_someString (x : Option String) : Option.map Codec.string.canon x = x :=
  Option.map_id'

section

variable (host : Host)

/-- A result as JSON ; it is checked as it is read. -/
def PolicyResult.codec : Codec PolicyResult :=
  ((Codec.record ((Fields.required "status" PolicyStatus.codec).and <|
      (Fields.required "approval_tier" ApprovalTier.codec).and <|
      (Fields.required "currency" (Codec.string.nullable Codec.string_ne_null)).and <|
      (Fields.required "amount" nullableDecimal).and <|
      (Fields.required "findings" PolicyFinding.codec.list).and <|
      (Fields.required "as_of" host.date).and <|
      (Fields.required "input_sha256" Sha256.codec).and <|
      (Fields.required "config_sha256" Sha256.codec).and <|
      .required "config" PolicyConfig.codec) (by simp)).map
    (fun (status, approvalTier, currency, amount, findings, asOf, inputSha256, configSha256,
        config) =>
      (⟨status, approvalTier, currency, amount, findings, asOf, inputSha256, configSha256,
        config⟩ : PolicyResultData))
    (fun result => (result.status, result.approvalTier, result.currency, result.amount,
      result.findings, result.asOf, result.inputSha256, result.configSha256, result.config))
    fun _ => rfl).check PolicyResultData.Valid fun result h => by
      have hfindings := Codec.canon_list _ canon_policyFinding result.findings
      have hcurrency := canon_someString result.currency
      obtain ⟨hunique, hstatus, heligible⟩ := h
      rw [← hfindings] at hunique hstatus
      refine ⟨hunique, hstatus, fun hs => ?_⟩
      obtain ⟨htier, ⟨a, ha, hnonneg⟩, hknown⟩ := heligible hs
      rw [← hcurrency] at hknown
      refine ⟨htier, ⟨a.canonical, Option.mem_map_of_mem _ ha, ?_⟩, hknown⟩
      rwa [Decimal.value_canonical]

/-- A request as JSON, as its digest covers it. -/
def PolicyRequest.codec : Codec (PolicyRequest host) :=
  ((Codec.record ((Fields.required "run_id" host.uuid).and <|
      (Fields.required "invoice_id" host.uuid).and <|
      (Fields.required "trace_id" traceIdCodec).and <|
      (Fields.required "as_of" host.date).and <|
      (Fields.required "extraction" (InvoiceExtraction.codec host)).and <|
      (Fields.required "validation" ValidationResult.codec).and <|
      (Fields.required "match" MatchResult.codec).and <|
      (Fields.required "taxonomy" TaxonomyResult.codec).and <|
      .default "snapshot" ((ERPSnapshot.codec host).nullable fun _ => nofun) none)
      (by simp)).map
    (fun (runId, invoiceId, traceId, asOf, extraction, validation, «match», taxonomy, snapshot) =>
      (⟨runId, invoiceId, traceId, asOf, extraction, validation, «match», taxonomy, snapshot⟩ :
        PolicyRequestData))
    (fun request => (request.runId, request.invoiceId, request.traceId, request.asOf,
      request.extraction, request.validation, request.match, request.taxonomy, request.snapshot))
    fun _ => rfl).check (PolicyRequestData.Valid host) fun request h => by
      have hextraction := (host.modelDigest_canon (InvoiceExtraction.codec host)
        request.extraction).symm
      have hvalidation := host.modelDigest_canon ValidationResult.codec request.validation
      have hmatch := host.modelDigest_canon MatchResult.codec request.match
      have hsome : ∀ {d d' : Sha256}, d = d' → some d = some d' := congrArg some
      refine ⟨h.validation.trans hextraction, h.match.trans hextraction, ?_, ?_, ?_,
        h.found.trans Option.isSome_map.symm, fun s hs => ?_, fun s hs => ?_⟩
      · exact (canon_someSha256 _).trans (h.taxonomy.trans (hsome hextraction))
      · exact (canon_someSha256 _).trans (h.taxonomyValidation.trans (hsome hvalidation.symm))
      · exact (canon_someSha256 _).trans (h.taxonomyMatch.trans (hsome hmatch.symm))
      · obtain ⟨t, ht, rfl⟩ := Option.map_eq_some_iff.mp hs
        rw [host.modelDigest_canon]
        exact (canon_someSha256 _).trans (h.snapshot t ht)
      · obtain ⟨t, ht, rfl⟩ := Option.map_eq_some_iff.mp hs
        obtain ⟨hstatus, hnumber⟩ := h.order t ht
        exact ⟨(canon_someString _).trans hstatus, (canon_someString _).trans hnumber⟩

end

/-! ## The policy -/

/-- `(as_of - issued_on).days`. -/
def orderAge (snapshot : ERPSnapshot) (asOf : Date) : ℤ :=
  asOf - snapshot.val.purchaseOrder.issuedOn

/-- `po_age_exceeded`. -/
def poAgeExceeded (snapshot : Option ERPSnapshot) (asOf : Date) (maxAgeDays : ℕ) : Bool :=
  match snapshot with
  | none => false
  | some snapshot => maxAgeDays < orderAge snapshot asOf

/-- `approval_tier`. -/
def approvalTier (amount : Option Decimal) (band : Option SpendBand) : ApprovalTier :=
  match amount, band with
  | some amount, some band =>
    if amount.value < 0 then .unknown
    else if amount.value ≤ band.val.autoApproveLimit.val.value then .none
    else if amount.value ≤ band.val.managerLimit.val.value then .apManager
    else if amount.value ≤ band.val.directorLimit.val.value then .procurementDirector
    else .dualControl
  | _, _ => .unknown

namespace Policy

/-- A reason, if a condition holds. -/
def reasonIf (p : Prop) [Decidable p] (reason : PolicyReason) : List PolicyReason :=
  if p then [reason] else []

/-- What the purchase order gives reason for. -/
def orderReasons (rules : PolicyConfig) (asOf : Date) (snapshot : Option ERPSnapshot) :
    List PolicyReason :=
  match snapshot with
  | none => []
  | some snapshot =>
    let status := snapshot.val.purchaseOrder.status
    (if status = .cancelled then [.cancelledPo] else reasonIf (status = .closed) .closedPo) ++
      if orderAge snapshot asOf < 0 then [.futurePo]
      else reasonIf (poAgeExceeded (some snapshot) asOf rules.maxPoAgeDays.val) .stalePo

/-- What the amount gives reason for. -/
def amountReasons (amount : Option Decimal) (band : Option SpendBand) : List PolicyReason :=
  reasonIf (band = none) .unsupportedCurrency ++
    match amount with
    | none => [.unknownAmount]
    | some amount =>
      if amount.value < 0 then [.invalidAmount]
      else
        reasonIf (∃ b ∈ band, b.val.hardSpendLimit.val.value < amount.value) .spendCapExceeded ++
        reasonIf (approvalTier (some amount) band ∉ [ApprovalTier.none, .unknown])
          .approvalRequired

/-- The band of the invoice's currency. -/
def band? (rules : PolicyConfig) (currency : Option String) : Option SpendBand :=
  rules.bands.val.find? fun band => some band.val.currency.val = currency

/-- All the reasons, in order. -/
def reasons (rules : PolicyConfig) (request : PolicyRequestData) : List PolicyReason :=
  reasonIf (.dupExact ∈ request.taxonomy.val.codes) .exactDuplicate ++
    orderReasons rules request.asOf request.snapshot ++
    amountReasons (decimal? request.extraction.totalAmount)
      (band? rules (Match.text? request.extraction.currency)) ++
    reasonIf (request.taxonomy.val.status = .exception) .exceptionPresent ++
    reasonIf (request.taxonomy.val.unresolved ≠ []) .unresolvedEvidence ++
    reasonIf (request.validation.val.status ≠ .pass) .validationFailed ++
    reasonIf (request.match.val.status ≠ .pass) .matchNotPassed

/-- `PolicyResult` as the policy builds it. -/
def result (host : Host) (rules : PolicyConfig) (request : PolicyRequest host) :
    PolicyResultData :=
  let findings := (reasons rules request.val).map fun reason => ⟨reason, reason.field⟩
  let currency := Match.text? request.val.extraction.currency
  let amount := decimal? request.val.extraction.totalAmount
  { status := statusOf findings
    approvalTier := approvalTier amount (band? rules currency)
    currency := currency
    amount := amount
    findings := findings
    asOf := request.val.asOf
    inputSha256 := host.modelDigest (PolicyRequest.codec host) request
    configSha256 := host.modelDigest PolicyConfig.codec rules
    config := rules }

end Policy

/-- `evaluate_policy`. -/
def evaluatePolicy (host : Host) (request : PolicyRequest host)
    (config : Option PolicyConfig := none) : Except Exn PolicyResult :=
  construct "PolicyResult" PolicyResultData.Valid
    (Policy.result host (config.getD .default) request)

end InvoiceOps
