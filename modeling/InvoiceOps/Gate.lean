import InvoiceOps.DecimalAmbient
import InvoiceOps.Policy

/-!
# The composite gate

`evaluateCompositeGate` weighs the smallest confidence of an observed field, the largest gap of an
equality and the severity of the policy, and approves what reaches the threshold. It computes with
28 digits in the decimal context of its caller (`amb`) : everything else of that context is as the
caller has it.

A configuration is accepted in the default context, where a process loads it. A result is checked
again wherever it is built (`CompositeGateResultData.coherentRoute`) or read back
(`GateOutcome.validate`).
-/

open Decimal (Ambient Condition Context Number)

namespace InvoiceOps

/-! ## Contexts -/

/-- `DefaultContext`. -/
def defaultAmbient : Ambient where
  prec := 28
  rounding := .halfEven
  emin := -999999
  emax := 999999
  clamp := false
  traps := [.invalidOperation, .divisionByZero, .overflow]
  prec_pos := by decide
  emin_le := by decide
  emax_nonneg := by decide

/-- `with localcontext() as context: context.prec = 28`. -/
def gatePrecision (amb : Ambient) : Ambient :=
  { amb with
    prec := 28
    prec_pos := by decide }

/-- The exception a trapped condition is raised as. -/
def conditionError : Condition → Exn
  | .invalidOperation => .new (.other "InvalidOperation") ""
  | .divisionByZero => .new (.other "DivisionByZero") ""
  | .overflow => .new (.other "Overflow") ""
  | .underflow => .new (.other "Underflow") ""
  | .subnormal => .new (.other "Subnormal") ""
  | .inexact => .new (.other "Inexact") ""
  | .rounded => .new (.other "Rounded") ""
  | .clamped => .new (.other "Clamped") ""

/-- An operation of the context. -/
def computed {α : Type} (result : Except Condition α) : Except Exn α :=
  result.mapError conditionError

/-- A result without a condition is computed. -/
theorem computed_ok {α : Type} (a : α) : computed (.ok a) = .ok a :=
  rfl

/-! ## Configuration -/

/-- A number between zero and one. -/
abbrev Share := { d : Decimal // 0 ≤ d.value ∧ d.value ≤ 1 }

namespace Share

theorem zero_mem : 0 ≤ Decimal.zero.value ∧ Decimal.zero.value ≤ 1 := by
  decide +kernel

theorem one_mem : 0 ≤ Decimal.one.value ∧ Decimal.one.value ≤ 1 := by
  decide +kernel

theorem half_mem : 0 ≤ Decimal.value ⟨false, 5, -1⟩ ∧ Decimal.value ⟨false, 5, -1⟩ ≤ 1 := by
  decide +kernel

/-- Nothing of a whole. -/
def zero : Share :=
  ⟨.zero, zero_mem⟩

/-- The whole. -/
def one : Share :=
  ⟨.one, one_mem⟩

theorem value_zero : zero.val.value = 0 :=
  Decimal.value_zero

theorem value_one : one.val.value = 1 :=
  Decimal.value_one

end Share

/-- The versions of the composite gate. -/
inductive GateVersion where
  | v1 | v2
  deriving DecidableEq, Repr

/-- `CompositeGateConfig`, before its weights are summed. -/
structure CompositeGateConfigData where
  version : GateVersion
  weightField : Share
  weightMatch : Share
  weightPolicy : Share
  threshold : Share
  deltaDenominatorFloor : { d : Decimal // 0 < d.value }
  autoApprovalEnabled : Bool
  deriving DecidableEq

/-- The value a number is compared by. -/
def numberValue : Number → Option ℚ
  | .finite d => some d.value
  | .infinite _ | .nan => none

namespace CompositeGateConfigData

/-- The `CompositeGateConfig` that is built without arguments. -/
def default : CompositeGateConfigData where
  version := .v2
  weightField := ⟨⟨false, 50, -2⟩, by decide +kernel⟩
  weightMatch := ⟨⟨false, 30, -2⟩, by decide +kernel⟩
  weightPolicy := ⟨⟨false, 20, -2⟩, by decide +kernel⟩
  threshold := ⟨⟨false, 95, -2⟩, by decide +kernel⟩
  deltaDenominatorFloor := ⟨.one, by decide +kernel⟩
  autoApprovalEnabled := true

variable (config : CompositeGateConfigData) (amb : Ambient)

/-- The sum of the weights, in the precision of the gate. -/
def weightSum : Except Condition Number := do
  let amb := gatePrecision amb
  let sum ← amb.add (.finite config.weightField.val) (.finite config.weightMatch.val)
  amb.add sum (.finite config.weightPolicy.val)

/-- `weights_sum_to_one`. -/
def weightsSumToOne : Except Exn Unit := do
  let sum ← computed (config.weightSum amb)
  if numberValue sum = some 1 then return else .error (.new .validationError "CompositeGateConfig")

/-- `score`. -/
def score (fieldTerm matchDelta policyTerm : Number) : Except Condition Number := do
  let amb := gatePrecision amb
  let field ← amb.mul (.finite config.weightField.val) fieldTerm
  let rest ← amb.sub (.finite .one) matchDelta
  let «match» ← amb.mul (.finite config.weightMatch.val) rest
  let sum ← amb.add field «match»
  let policy ← amb.mul (.finite config.weightPolicy.val) policyTerm
  amb.add sum policy

end CompositeGateConfigData

/-- A configuration that is accepted. -/
abbrev CompositeGateConfig :=
  { config : CompositeGateConfigData // config.weightsSumToOne defaultAmbient = .ok () }

/-- The default configuration is accepted. -/
def CompositeGateConfig.default : CompositeGateConfig :=
  ⟨.default, by decide +kernel⟩

/-! ## Results -/

/-- Where the gate sends an invoice. -/
inductive GateRoute where
  | autoApprove | review
  deriving DecidableEq, Repr

/-- Why the gate sends it there. -/
inductive GateReason where
  | policy | belowThreshold | autoDisabled | eligible
  deriving DecidableEq, Repr

/-- The route a reason goes with. -/
def GateReason.route : GateReason → GateRoute
  | .eligible => .autoApprove
  | .policy | .belowThreshold | .autoDisabled => .review

/-- `CompositeGateResult`, before it is recomputed. -/
structure CompositeGateResultData where
  route : GateRoute
  reason : GateReason
  score : Share
  minimumFieldConfidence : Share
  normalizedMatchDelta : Share
  policySeverityTerm : Share
  policyStatus : PolicyStatus
  extractionSha256 : Sha256
  matchSha256 : Sha256
  policySha256 : Sha256
  configSha256 : Sha256
  config : CompositeGateConfig
  deriving DecidableEq

namespace Gate

/-- The term of a policy status. -/
def policyTerm : PolicyStatus → Share
  | .autoApproveEligible => .one
  | .review => ⟨⟨false, 5, -1⟩, Share.half_mem⟩
  | .block => .zero

/-- The reason of a route, in the order in which the conditions are looked at. -/
def reason (amb : Ambient) (status : PolicyStatus) (config : CompositeGateConfigData)
    (score : Number) : Except Condition GateReason :=
  if status ≠ .autoApproveEligible then .ok .policy
  else if config.autoApprovalEnabled = false then .ok .autoDisabled
  else do
    let below ← amb.lt score (.finite config.threshold.val)
    return if below then .belowThreshold else .eligible

end Gate

namespace CompositeGateResultData

/-- The result is refused. -/
def invalid {α : Type} : Except Exn α :=
  .error (.new .validationError "CompositeGateResult")

/-- `if not condition: raise ValueError`, in a validator. -/
def ensure (p : Prop) [Decidable p] : Except Exn Unit :=
  if p then .ok () else invalid

/-- A check that holds passes. -/
theorem ensure_ok {p : Prop} [Decidable p] (h : p) : ensure p = .ok () :=
  if_pos h

variable (result : CompositeGateResultData) (amb : Ambient)

/-- `coherent_route`. -/
def coherentRoute : Except Exn Unit := do
  ensure (result.policySeverityTerm.val.value = (Gate.policyTerm result.policyStatus).val.value)
  let expected ← computed (result.config.val.score amb
    (.finite result.minimumFieldConfidence.val) (.finite result.normalizedMatchDelta.val)
    (.finite result.policySeverityTerm.val))
  ensure (numberValue expected = some result.score.val.value)
  let reason ← computed
    (Gate.reason amb result.policyStatus result.config.val (.finite result.score.val))
  ensure (result.reason = reason)
  ensure (result.route = reason.route)

/-- What is checked when a result is read back. -/
def revalidate : Except Exn Unit := do
  result.config.val.weightsSumToOne amb
  result.coherentRoute amb

end CompositeGateResultData

/-! ## As JSON -/

/-- The digits and limits of the gate, in the default context. -/
def gateContext : Context :=
  ⟨28, .halfEven, -999999, 999999⟩

/-- The default context computes in 28 digits, half even. -/
theorem default_like : (gatePrecision defaultAmbient).Like gateContext :=
  ⟨rfl, rfl, rfl, rfl, by decide, by decide⟩

/-- A number that the gate computes with does not overflow, whatever the largest exponent. -/
theorem gate_rounds {E : ℤ} (hE : 1 ≤ E) {x : ℚ} {result : Except Condition Number}
    (h : Ambient.Rounds { gateContext with emax := E } x result) (hx : |x| ≤ 10) :
    ∃ r : Decimal, result = .ok (.finite r) ∧ r.value = gateContext.round x := by
  have hprec : 1 ≤ gateContext.prec := by decide
  refine h.of_le hprec (by dsimp only [gateContext]; omega) (hx.trans ?_)
  calc (10 : ℚ) = 10 ^ (1 : ℤ) := (zpow_one _).symm
    _ ≤ 10 ^ E := zpow_le_zpow_right₀ (by norm_num) hE

/-- Rounding keeps the order of an integer bound. -/
theorem gate_round_le {x : ℚ} {n : ℕ} (hn : n < 10 ^ 28) (h : x ≤ n) :
    gateContext.round x ≤ n := by
  refine Context.round_le (by decide) ⟨n, 0, by simp, ?_, by decide, by decide⟩ h
  rw [abs_of_nonneg (by positivity)]
  exact_mod_cast hn

namespace CompositeGateConfigData

variable (config : CompositeGateConfigData)

/-- The sum of the weights, as the gate rounds it. -/
def roundedSum : ℚ :=
  gateContext.round (gateContext.round
    (config.weightField.val.value + config.weightMatch.val.value) + config.weightPolicy.val.value)

/-- In a context of 28 digits, half even, the weights sum to their rounded sum. -/
theorem weightSum_rounds {amb : Ambient} (h : (gatePrecision amb).Like gateContext) :
    ∃ sum : Decimal, config.weightSum amb = .ok (.finite sum) ∧ sum.value = config.roundedSum := by
  obtain ⟨hfield, hfield'⟩ := config.weightField.property
  obtain ⟨hmatch, hmatch'⟩ := config.weightMatch.property
  obtain ⟨hpolicy, hpolicy'⟩ := config.weightPolicy.property
  obtain ⟨first, hfirst, hfirstValue⟩ := gate_rounds (by decide) (h.add config.weightField.val
    config.weightMatch.val) (by rw [abs_of_nonneg (by linarith)]; linarith)
  have hnonneg : 0 ≤ first.value := by
    rw [hfirstValue]
    exact gateContext.round_nonneg (by linarith)
  have hle : first.value ≤ 2 := by
    rw [hfirstValue]
    exact gate_round_le (n := 2) (by norm_num) (by push_cast; linarith)
  obtain ⟨sum, hsum, hsumValue⟩ := gate_rounds (by decide) (h.add first config.weightPolicy.val)
    (by rw [abs_of_nonneg (by linarith)]; linarith)
  refine ⟨sum, ?_, by rw [hsumValue, hfirstValue]; rfl⟩
  unfold weightSum
  dsimp only
  rw [hfirst]
  exact hsum

/-- A configuration is accepted if its weights add up to one, as they are rounded. -/
theorem weightsSumToOne_iff {amb : Ambient} (h : (gatePrecision amb).Like gateContext) :
    config.weightsSumToOne amb = .ok () ↔ config.roundedSum = 1 := by
  obtain ⟨sum, hsum, hvalue⟩ := config.weightSum_rounds h
  unfold weightsSumToOne
  rw [hsum, ← hvalue]
  change (if numberValue (.finite sum) = some 1 then _ else _) = _ ↔ _
  split_ifs with hone
  · exact iff_of_true rfl (Option.some.inj hone)
  · exact iff_of_false (fun h => by cases h) fun h => hone (congrArg some h)

end CompositeGateConfigData

namespace GateVersion

/-- The value of a version. -/
def text : GateVersion → String
  | v1 => "composite-gate@v1"
  | v2 => "composite-gate@v2"

/-- A version is read back by its value. -/
def codec : Codec GateVersion :=
  .literal text [v1, v2] fun x => by cases x <;> rfl

end GateVersion

/-- A share as JSON. -/
def Share.codec : Codec Share :=
  exactWhere _ fun d h => by rwa [Decimal.value_canonical]

/-- A configuration as JSON ; it is accepted as it is read. -/
def CompositeGateConfig.codec : Codec CompositeGateConfig :=
  ((Codec.record ((Fields.default "version" GateVersion.codec .v2).and <|
      (Fields.default "weight_field" Share.codec CompositeGateConfigData.default.weightField).and <|
      (Fields.default "weight_match" Share.codec CompositeGateConfigData.default.weightMatch).and <|
      (Fields.default "weight_policy" Share.codec
        CompositeGateConfigData.default.weightPolicy).and <|
      (Fields.default "threshold" Share.codec CompositeGateConfigData.default.threshold).and <|
      (Fields.default "delta_denominator_floor" (limit (0 < ·))
        CompositeGateConfigData.default.deltaDenominatorFloor).and <|
      .default "auto_approval_enabled" Codec.bool true) (by simp)).map
    (fun (version, weightField, weightMatch, weightPolicy, threshold, deltaDenominatorFloor,
        autoApprovalEnabled) =>
      (⟨version, weightField, weightMatch, weightPolicy, threshold, deltaDenominatorFloor,
        autoApprovalEnabled⟩ : CompositeGateConfigData))
    (fun config => (config.version, config.weightField, config.weightMatch, config.weightPolicy,
      config.threshold, config.deltaDenominatorFloor, config.autoApprovalEnabled))
    fun _ => rfl).check (fun config => config.weightsSumToOne defaultAmbient = .ok ())
    fun config h => by
      rw [CompositeGateConfigData.weightsSumToOne_iff _ default_like] at h ⊢
      unfold CompositeGateConfigData.roundedSum at h ⊢
      rw [← Decimal.value_canonical, ← Decimal.value_canonical config.weightMatch.val,
        ← Decimal.value_canonical config.weightPolicy.val] at h
      exact h

namespace GateRoute

/-- The value of a route. -/
def text : GateRoute → String
  | autoApprove => "AUTO_APPROVE"
  | review => "REVIEW"

/-- A route is read back by its value. -/
def codec : Codec GateRoute :=
  .literal text [autoApprove, review] fun x => by cases x <;> rfl

end GateRoute

namespace GateReason

/-- The value of a reason. -/
def text : GateReason → String
  | policy => "POLICY"
  | belowThreshold => "BELOW_THRESHOLD"
  | autoDisabled => "AUTO_DISABLED"
  | eligible => "ELIGIBLE"

/-- A reason is read back by its value. -/
def codec : Codec GateReason :=
  .literal text [policy, belowThreshold, autoDisabled, eligible] fun x => by cases x <;> rfl

end GateReason

/-- A `CompositeGateResult`, but for the checks that depend on the context (`revalidate`). -/
def CompositeGateResultData.codec : Codec CompositeGateResultData :=
  (Codec.record ((Fields.required "route" GateRoute.codec).and <|
      (Fields.required "reason" GateReason.codec).and <|
      (Fields.required "score" Share.codec).and <|
      (Fields.required "minimum_field_confidence" Share.codec).and <|
      (Fields.required "normalized_match_delta" Share.codec).and <|
      (Fields.required "policy_severity_term" Share.codec).and <|
      (Fields.required "policy_status" PolicyStatus.codec).and <|
      (Fields.required "extraction_sha256" Sha256.codec).and <|
      (Fields.required "match_sha256" Sha256.codec).and <|
      (Fields.required "policy_sha256" Sha256.codec).and <|
      (Fields.required "config_sha256" Sha256.codec).and <|
      .required "config" CompositeGateConfig.codec) (by simp)).map
    (fun (route, reason, score, minimumFieldConfidence, normalizedMatchDelta, policySeverityTerm,
        policyStatus, extractionSha256, matchSha256, policySha256, configSha256, config) =>
      ⟨route, reason, score, minimumFieldConfidence, normalizedMatchDelta, policySeverityTerm,
        policyStatus, extractionSha256, matchSha256, policySha256, configSha256, config⟩)
    (fun result => (result.route, result.reason, result.score, result.minimumFieldConfidence,
      result.normalizedMatchDelta, result.policySeverityTerm, result.policyStatus,
      result.extractionSha256, result.matchSha256, result.policySha256, result.configSha256,
      result.config)) fun _ => rfl

/-! ### The provisional gate -/

/-- The configuration of the gate that was before this one. -/
structure GateConfig where
  version : String
  autoApprovalEnabled : Bool
  minimumFieldConfidence : Share

theorem Share.ninetyNine_mem :
    0 ≤ Decimal.value ⟨false, 99, -2⟩ ∧ Decimal.value ⟨false, 99, -2⟩ ≤ 1 := by
  decide +kernel

/-- That configuration as JSON ; what it leaves out is as its class has it. -/
def GateConfig.codec : Codec GateConfig :=
  (Codec.record ((Fields.default "version" Codec.string "provisional-gate@v1").and <|
      (Fields.default "auto_approval_enabled" Codec.bool false).and <|
      .default "minimum_field_confidence" Share.codec ⟨_, Share.ninetyNine_mem⟩) (by simp)).map
    (fun (version, autoApprovalEnabled, minimumFieldConfidence) =>
      ⟨version, autoApprovalEnabled, minimumFieldConfidence⟩)
    (fun config => (config.version, config.autoApprovalEnabled, config.minimumFieldConfidence))
    fun _ => rfl

/-- Why the gate that was before this one sends an invoice where it does. -/
inductive ProvisionalReason where
  | policy | lowConfidence | autoDisabled | eligible
  deriving DecidableEq, Repr

namespace ProvisionalReason

/-- The value of such a reason. -/
def text : ProvisionalReason → String
  | policy => "POLICY"
  | lowConfidence => "LOW_CONFIDENCE"
  | autoDisabled => "AUTO_DISABLED"
  | eligible => "ELIGIBLE"

/-- Such a reason is read back by its value. -/
def codec : Codec ProvisionalReason :=
  .literal text [policy, lowConfidence, autoDisabled, eligible] fun x => by cases x <;> rfl

end ProvisionalReason

/-- The result of the gate that was before this one. -/
structure GateResult where
  route : GateRoute
  minimumObservedConfidence : Option Decimal
  reason : ProvisionalReason
  extractionSha256 : Sha256
  policySha256 : Sha256
  configSha256 : Sha256
  config : GateConfig

/-- That result as JSON. -/
def GateResult.codec : Codec GateResult :=
  (Codec.record ((Fields.required "route" GateRoute.codec).and <|
      (Fields.required "minimum_observed_confidence" nullableDecimal).and <|
      (Fields.required "reason" ProvisionalReason.codec).and <|
      (Fields.required "extraction_sha256" Sha256.codec).and <|
      (Fields.required "policy_sha256" Sha256.codec).and <|
      (Fields.required "config_sha256" Sha256.codec).and <|
      .required "config" GateConfig.codec) (by simp)).map
    (fun (route, minimumObservedConfidence, reason, extractionSha256, policySha256, configSha256,
        config) =>
      ⟨route, minimumObservedConfidence, reason, extractionSha256, policySha256, configSha256,
        config⟩)
    (fun result => (result.route, result.minimumObservedConfidence, result.reason,
      result.extractionSha256, result.policySha256, result.configSha256, result.config))
    fun _ => rfl

/-- The result of the one gate or of the other. -/
inductive GateOutcome where
  | provisional (result : GateResult)
  | composite (result : CompositeGateResultData)

namespace GateOutcome

/-- `_gate_adapter.validate_python` : each gate's result forbids a field that the other's needs. The
configuration of a composite result is accepted in the default context too. -/
def validate (amb : Ambient) (stored : Json) : Except Exn GateOutcome :=
  match GateResult.codec.parse stored, CompositeGateResultData.codec.parse stored with
  | some result, _ => .ok (.provisional result)
  | none, some result => do
    result.revalidate amb
    return .composite result
  | none, none => .error (.new .validationError "GateOutcome")

/-- The digest of the extraction that was judged. -/
def extractionSha256 : GateOutcome → Sha256
  | provisional result => result.extractionSha256
  | composite result => result.extractionSha256

/-- The digest of the policy result that was judged. -/
def policySha256 : GateOutcome → Sha256
  | provisional result => result.policySha256
  | composite result => result.policySha256

end GateOutcome

/-- What a composite gate wrote is not read as a result of the provisional one. -/
theorem provisional_parse_composite (result : CompositeGateResultData) :
    GateResult.codec.parse (CompositeGateResultData.codec.dump result) = none :=
  rfl

/-! ## The gate -/

/-- The confidence of a field that is known. -/
def ExtractedField.observed {α : Type} (field : ExtractedField α) : List Confidence :=
  if field.value.isSome then [field.confidence] else []

/-- The confidences of the observed fields, those of the header first. -/
def InvoiceExtraction.confidences (extraction : InvoiceExtraction) : List Confidence :=
  extraction.vendorName.observed ++ extraction.vendorTaxId.observed ++
    extraction.bankAccountIban.observed ++ extraction.invoiceNumber.observed ++
    extraction.poNumber.observed ++ extraction.currency.observed ++
    extraction.invoiceDate.observed ++ extraction.dueDate.observed ++
    extraction.subtotal.observed ++ extraction.taxAmount.observed ++
    extraction.totalAmount.observed ++
    extraction.lineItems.val.flatMap fun line =>
      line.description.observed ++ line.quantity.observed ++ line.unitPrice.observed ++
        line.taxRate.observed ++ line.lineTotal.observed

namespace Gate

/-- `min`, of two confidences. -/
def lesser (a b : Confidence) : Confidence :=
  if b.val.value < a.val.value then b else a

/-- `minimum_field_confidence`. -/
def minimumFieldConfidence (extraction : InvoiceExtraction) : Share :=
  match extraction.confidences with
  | [] => .zero
  | first :: rest =>
    let least := rest.foldl lesser first
    ⟨least.val, least.property.1⟩

/-- The relative gap of an equality, at most one. -/
def ratio (amb : Ambient) (floor expected actual difference : Decimal) :
    Except Condition Number := do
  let expected ← amb.abs (.finite expected)
  let actual ← amb.abs (.finite actual)
  let denominator ← amb.larger expected actual
  let denominator ← amb.larger denominator (.finite floor)
  let gap ← amb.abs (.finite difference)
  let quotient ← amb.div gap denominator
  amb.smaller (.finite .one) quotient

/-- The numbers of a check, if it is known. -/
def gap? (check : NumericCheck) : Option (Decimal × Decimal × Decimal) :=
  if check.val.status = .unknown then none
  else do
    let expected ← check.val.expected
    let actual ← check.val.actual
    let difference ← check.val.difference
    return (expected, actual, difference)

/-- The loop over the equality checks. -/
def largestRatio (amb : Ambient) (floor : Decimal) :
    List NumericCheck → Number → Except Condition Number
  | [], largest => .ok largest
  | check :: checks, largest =>
    match gap? check with
    | none => .ok (.finite .one)
    | some (expected, actual, difference) => do
      let ratio ← ratio amb floor expected actual difference
      let largest ← amb.larger largest ratio
      largestRatio amb floor checks largest

/-- `normalized_match_delta`. -/
def normalizedMatchDelta (amb : Ambient) («match» : MatchResult) (floor : Decimal) :
    Except Condition Number :=
  let checks := match.val.numericChecks.filter fun check => check.val.rule = .equal
  if match.val.snapshotFound = false ∨ checks = [] then .ok (.finite .one)
  else largestRatio (gatePrecision amb) floor checks (.finite .zero)

/-- The result of the gate, before it is checked. -/
def result (host : Host) (request : PolicyRequest host) (policy : PolicyResult)
    (rules : CompositeGateConfig) (reason : GateReason) (score matchDelta : Share) :
    CompositeGateResultData where
  route := reason.route
  reason := reason
  score := score
  minimumFieldConfidence := minimumFieldConfidence request.val.extraction
  normalizedMatchDelta := matchDelta
  policySeverityTerm := policyTerm policy.val.status
  policyStatus := policy.val.status
  extractionSha256 := host.modelDigest (InvoiceExtraction.codec host) request.val.extraction
  matchSha256 := host.modelDigest MatchResult.codec request.val.match
  policySha256 := host.modelDigest (PolicyResult.codec host) policy
  configSha256 := host.modelDigest CompositeGateConfig.codec rules
  config := rules

/-- A field of a result that has to be a share. -/
def share : Number → Except Exn Share
  | .finite d => construct "CompositeGateResult" (fun d => 0 ≤ d.value ∧ d.value ≤ 1) d
  | .infinite _ | .nan => CompositeGateResultData.invalid

end Gate

section

variable (amb : Ambient) (host : Host)

/-- `CompositeGateConfig()`, or the configuration that is given. -/
def gateRules (config : Option CompositeGateConfig) : Except Exn CompositeGateConfig :=
  match config with
  | some config => .ok config
  | none => do
    CompositeGateConfigData.default.weightsSumToOne amb
    return .default

/-- `evaluate_composite_gate`. -/
def evaluateCompositeGate (request : PolicyRequest host) (policy : PolicyResult)
    (config : Option CompositeGateConfig := none) : Except Exn CompositeGateResultData := do
  let rules ← gateRules amb config
  if policy.val.inputSha256 ≠ host.modelDigest (PolicyRequest.codec host) request then
    .error (.new .valueError "Policy evidence does not belong to the gate inputs")
  else do
    let fieldTerm := Gate.minimumFieldConfidence request.val.extraction
    let matchDelta ← computed (Gate.normalizedMatchDelta amb request.val.match
      rules.val.deltaDenominatorFloor.val)
    let policyTerm := Gate.policyTerm policy.val.status
    let score ← computed
      (rules.val.score amb (.finite fieldTerm.val) matchDelta (.finite policyTerm.val))
    let reason ← computed (Gate.reason amb policy.val.status rules.val score)
    let scoreShare ← Gate.share score
    let deltaShare ← Gate.share matchDelta
    let result := Gate.result host request policy rules reason scoreShare deltaShare
    result.coherentRoute amb
    return result

end

end InvoiceOps
