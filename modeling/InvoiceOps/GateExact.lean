import InvoiceOps.ExactArithmetic
import InvoiceOps.Gate
import InvoiceOps.PolicyExact

/-!
# The gate on the rationals

`Gate.rounded` is the gate with every operation as the exact one, rounded to 28 digits. In a
context that rounds like the default one, whatever its precision, the gate is that
(`evaluateCompositeGate_rounded`).
-/

open Decimal (Ambient Condition Context Number)
open Decimal.Ambient (Shows)

namespace InvoiceOps

/-- A result of the gate, as it is compared. -/
structure GateReading where
  route : GateRoute
  reason : GateReason
  score : ℚ
  minimumFieldConfidence : ℚ
  normalizedMatchDelta : ℚ
  policySeverityTerm : ℚ
  policyStatus : PolicyStatus
  extractionSha256 : Sha256
  matchSha256 : Sha256
  policySha256 : Sha256
  configSha256 : Sha256
  config : CompositeGateConfig

/-- A result with its numbers by value. -/
def CompositeGateResultData.reading (result : CompositeGateResultData) : GateReading where
  route := result.route
  reason := result.reason
  score := result.score.val.value
  minimumFieldConfidence := result.minimumFieldConfidence.val.value
  normalizedMatchDelta := result.normalizedMatchDelta.val.value
  policySeverityTerm := result.policySeverityTerm.val.value
  policyStatus := result.policyStatus
  extractionSha256 := result.extractionSha256
  matchSha256 := result.matchSha256
  policySha256 := result.policySha256
  configSha256 := result.configSha256
  config := result.config

/-! ## The rounded gate -/

namespace CompositeGateConfigData

variable (config : CompositeGateConfigData)

/-- The score, each operation of it rounded. -/
def roundedScore (fieldTerm matchDelta policyTerm : ℚ) : ℚ :=
  gateContext.round (gateContext.round
    (gateContext.round (config.weightField.val.value * fieldTerm) +
      gateContext.round (config.weightMatch.val.value * gateContext.round (1 - matchDelta))) +
    gateContext.round (config.weightPolicy.val.value * policyTerm))

end CompositeGateConfigData

namespace Gate

/-- The gap of an equality, each operation rounded. -/
def roundedRatio (floor expected actual difference : ℚ) : Except Condition ℚ := do
  let expected ← gateContext.evaluate |expected|
  let actual ← gateContext.evaluate |actual|
  let gap ← gateContext.evaluate |difference|
  let quotient ← gateContext.evaluate (gap / max (max expected actual) floor)
  return min 1 quotient

/-- The largest gap of some checks, each operation rounded ; a check without numbers is one. -/
def roundedLargest (floor : ℚ) : List NumericCheck → ℚ → Except Condition ℚ
  | [], largest => .ok largest
  | check :: checks, largest =>
    match gap? check with
    | none => .ok 1
    | some (expected, actual, difference) => do
      let ratio ← roundedRatio floor expected.value actual.value difference.value
      roundedLargest floor checks (max largest ratio)

/-- The delta of a match, each operation rounded. -/
def roundedDelta («match» : MatchResult) (floor : ℚ) : Except Condition ℚ :=
  let checks := match.val.numericChecks.filter fun check => check.val.rule = .equal
  if match.val.snapshotFound = false ∨ checks = [] then .ok 1
  else roundedLargest floor checks 0

/-- The first reason that applies. -/
def roundedReason (status : PolicyStatus) (config : CompositeGateConfigData) (score : ℚ) :
    GateReason :=
  if status ≠ .autoApproveEligible then .policy
  else if config.autoApprovalEnabled = false then .autoDisabled
  else if score < config.threshold.val.value then .belowThreshold else .eligible

/-- The gate, each operation rounded. -/
def rounded (host : Host) (request : PolicyRequest host) (policy : PolicyResult)
    (rules : CompositeGateConfig) : Except Exn GateReading :=
  if policy.val.inputSha256 ≠ host.modelDigest (PolicyRequest.codec host) request then
    .error (.new .valueError "Policy evidence does not belong to the gate inputs")
  else do
    let fieldTerm := (minimumFieldConfidence request.val.extraction).val.value
    let matchDelta ← computed (roundedDelta request.val.match
      rules.val.deltaDenominatorFloor.val.value)
    let policyTerm := (policyTerm policy.val.status).val.value
    let score := rules.val.roundedScore fieldTerm matchDelta policyTerm
    let reason := roundedReason policy.val.status rules.val score
    if 1 < score then CompositeGateResultData.invalid
    else return {
      route := reason.route
      reason := reason
      score := score
      minimumFieldConfidence := fieldTerm
      normalizedMatchDelta := matchDelta
      policySeverityTerm := policyTerm
      policyStatus := policy.val.status
      extractionSha256 := host.modelDigest (InvoiceExtraction.codec host) request.val.extraction
      matchSha256 := host.modelDigest MatchResult.codec request.val.match
      policySha256 := host.modelDigest (PolicyResult.codec host) policy
      configSha256 := host.modelDigest CompositeGateConfig.codec rules
      config := rules }

end Gate

/-! ## The score -/

namespace CompositeGateConfigData

variable (config : CompositeGateConfigData)

theorem round_mono {x y : ℚ} (h : x ≤ y) : gateContext.round x ≤ gateContext.round y :=
  gateContext.round_mono (by decide) h

theorem round_one : gateContext.round 1 = 1 :=
  Context.round_exact (by decide) ⟨1, 0, by norm_num, by decide, by decide, by decide⟩

/-- The score grows with the confidence and with the policy, and falls with the gap. -/
theorem roundedScore_mono {f f' δ δ' p p' : ℚ} (hf : f ≤ f') (hδ : δ' ≤ δ) (hp : p ≤ p') :
    config.roundedScore f δ p ≤ config.roundedScore f' δ' p' := by
  have hfield := mul_le_mul_of_nonneg_left hf config.weightField.property.1
  have hrest := round_mono (sub_le_sub_left hδ 1)
  have hmatch := mul_le_mul_of_nonneg_left hrest config.weightMatch.property.1
  have hpolicy := mul_le_mul_of_nonneg_left hp config.weightPolicy.property.1
  exact round_mono (add_le_add (round_mono (add_le_add (round_mono hfield) (round_mono hmatch)))
    (round_mono hpolicy))

theorem roundedScore_nonneg {f δ p : ℚ} (hf : 0 ≤ f) (hδ : δ ≤ 1) (hp : 0 ≤ p) :
    0 ≤ config.roundedScore f δ p := by
  have hfield := gateContext.round_nonneg (mul_nonneg config.weightField.property.1 hf)
  have hrest := gateContext.round_nonneg (sub_nonneg.mpr hδ)
  have hmatch := gateContext.round_nonneg (mul_nonneg config.weightMatch.property.1 hrest)
  have hpolicy := gateContext.round_nonneg (mul_nonneg config.weightPolicy.property.1 hp)
  exact gateContext.round_nonneg (add_nonneg
    (gateContext.round_nonneg (add_nonneg hfield hmatch)) hpolicy)

/-- The weights rounded one by one, and added up. -/
def weightsRounded : ℚ :=
  gateContext.round (gateContext.round
    (gateContext.round config.weightField.val.value +
      gateContext.round config.weightMatch.val.value) +
    gateContext.round config.weightPolicy.val.value)

theorem roundedScore_one : config.roundedScore 1 0 1 = config.weightsRounded := by
  rw [roundedScore, sub_zero, round_one, mul_one, mul_one, mul_one, weightsRounded]

/-- A share times a weight is a share. -/
theorem round_share {w x : ℚ} (hw : 0 ≤ w ∧ w ≤ 1) (hx : 0 ≤ x ∧ x ≤ 1) :
    0 ≤ gateContext.round (w * x) ∧ gateContext.round (w * x) ≤ 1 := by
  refine ⟨gateContext.round_nonneg (mul_nonneg hw.1 hx.1), ?_⟩
  rw [← round_one]
  exact round_mono (mul_le_one₀ hw.2 hx.1 hx.2)

/-- The score is computed, without an overflow. -/
theorem score_rounds {amb : Ambient} {E : ℤ} (hE : 1 ≤ E)
    (h : (gatePrecision amb).Like { gateContext with emax := E })
    {f δ p : Decimal} (hf : 0 ≤ f.value ∧ f.value ≤ 1) (hδ : 0 ≤ δ.value ∧ δ.value ≤ 1)
    (hp : 0 ≤ p.value ∧ p.value ≤ 1) :
    ∃ score : Decimal, config.score amb (.finite f) (.finite δ) (.finite p) =
        .ok (.finite score) ∧ score.value = config.roundedScore f.value δ.value p.value := by
  have hmul : ∀ {w x : ℚ}, 0 ≤ w ∧ w ≤ 1 → 0 ≤ x ∧ x ≤ 1 → |w * x| ≤ 10 := by
    intro w x hw hx
    rw [abs_of_nonneg (mul_nonneg hw.1 hx.1)]
    exact (mul_le_one₀ hw.2 hx.1 hx.2).trans (by norm_num)
  obtain ⟨field, hfield, hfieldValue⟩ := gate_rounds hE (h.mul config.weightField.val f)
    (hmul config.weightField.property hf)
  have hfieldShare := round_share config.weightField.property hf
  rw [← hfieldValue] at hfieldShare
  obtain ⟨rest, hrest, hrestValue⟩ := gate_rounds hE (h.sub .one δ)
    (by rw [Decimal.value_one, abs_of_nonneg (by linarith)]; linarith)
  rw [Decimal.value_one] at hrestValue
  have hrestShare : 0 ≤ rest.value ∧ rest.value ≤ 1 := by
    rw [hrestValue]
    refine ⟨gateContext.round_nonneg (by linarith), ?_⟩
    rw [← round_one]
    exact round_mono (by rw [round_one]; linarith)
  obtain ⟨«match», hmatch, hmatchValue⟩ := gate_rounds hE (h.mul config.weightMatch.val rest)
    (hmul config.weightMatch.property hrestShare)
  have hmatchShare := round_share config.weightMatch.property hrestShare
  rw [← hmatchValue] at hmatchShare
  obtain ⟨sum, hsum, hsumValue⟩ := gate_rounds hE (h.add field «match»)
    (by rw [abs_of_nonneg (by linarith)]; linarith)
  have hsumLe : 0 ≤ sum.value ∧ sum.value ≤ 2 := by
    rw [hsumValue]
    exact ⟨gateContext.round_nonneg (by linarith),
      gate_round_le (n := 2) (by norm_num) (by push_cast; linarith)⟩
  obtain ⟨policy, hpolicy, hpolicyValue⟩ := gate_rounds hE (h.mul config.weightPolicy.val p)
    (hmul config.weightPolicy.property hp)
  have hpolicyShare := round_share config.weightPolicy.property hp
  rw [← hpolicyValue] at hpolicyShare
  obtain ⟨score, hscore, hscoreValue⟩ := gate_rounds hE (h.add sum policy)
    (by rw [abs_of_nonneg (by linarith)]; linarith)
  refine ⟨score, ?_, ?_⟩
  · unfold CompositeGateConfigData.score
    dsimp only
    rw [hfield, ok_bind, hrest, ok_bind, hmatch, ok_bind, hsum, ok_bind, hpolicy, ok_bind, hscore]
  · rw [hscoreValue, hsumValue, hfieldValue, hmatchValue, hrestValue, hpolicyValue, roundedScore]

end CompositeGateConfigData

/-! ## The gap of a match -/

namespace Gate

theorem ratio_shows {amb : Ambient} (h : amb.Like gateContext) {floor : Decimal}
    (hfloor : 0 < floor.value) (expected actual difference : Decimal) :
    Shows (ratio amb floor expected actual difference)
      (roundedRatio floor.value expected.value actual.value difference.value) := by
  unfold ratio roundedRatio
  refine (h.abs expected).shows.bind fun e _ => (h.abs actual).shows.bind fun a _ => ?_
  obtain ⟨m, hm, hmValue⟩ := (Ambient.larger_shows amb e a).value
  obtain ⟨n, hn, hnValue⟩ := (Ambient.larger_shows amb m floor).value
  have hne : n.coeff ≠ 0 := by
    refine Decimal.value_eq_zero.not.mp ?_
    rw [hnValue]
    exact (hfloor.trans_le (le_max_right _ _)).ne'
  rw [hm, ok_bind, hn, ok_bind, ← hmValue, ← hnValue]
  refine (h.abs difference).shows.bind fun g _ => (h.div g hne).shows.bind fun q _ => ?_
  have hsmaller := Ambient.smaller_shows amb .one q
  rwa [Decimal.value_one] at hsmaller

theorem largestRatio_shows {amb : Ambient} (h : amb.Like gateContext) {floor : Decimal}
    (hfloor : 0 < floor.value) : ∀ (checks : List NumericCheck) (largest : Decimal),
    Shows (largestRatio amb floor checks (.finite largest))
      (roundedLargest floor.value checks largest.value)
  | [], largest => .ok largest
  | check :: checks, largest => by
    unfold largestRatio roundedLargest
    cases hgap : gap? check with
    | none => exact .of_eq Decimal.value_one
    | some gap =>
      obtain ⟨expected, actual, difference⟩ := gap
      dsimp only
      refine (ratio_shows h hfloor expected actual difference).bind fun r _ => ?_
      obtain ⟨m, hm, hmValue⟩ := (Ambient.larger_shows amb largest r).value
      rw [hm, ok_bind, ← hmValue]
      exact largestRatio_shows h hfloor checks m

theorem normalizedMatchDelta_shows {amb : Ambient} (h : (gatePrecision amb).Like gateContext)
    («match» : MatchResult) {floor : Decimal} (hfloor : 0 < floor.value) :
    Shows (normalizedMatchDelta amb «match» floor) (roundedDelta «match» floor.value) := by
  unfold normalizedMatchDelta roundedDelta
  dsimp only
  split_ifs
  · exact .of_eq Decimal.value_one
  · have hlargest := largestRatio_shows h hfloor
      («match».val.numericChecks.filter fun check => check.val.rule = .equal) .zero
    rwa [Decimal.value_zero] at hlargest

/-! ### It is a share -/

theorem evaluate_ok {x y : ℚ} (h : gateContext.evaluate x = .ok y) : y = gateContext.round x := by
  unfold Context.evaluate at h
  split_ifs at h
  exact (Except.ok.inj h).symm

theorem roundedRatio_share {floor expected actual difference r : ℚ} (hfloor : 0 < floor)
    (h : roundedRatio floor expected actual difference = .ok r) : 0 ≤ r ∧ r ≤ 1 := by
  obtain ⟨e, he, h⟩ := bind_eq_ok.mp h
  obtain ⟨a, ha, h⟩ := bind_eq_ok.mp h
  obtain ⟨g, hg, h⟩ := bind_eq_ok.mp h
  obtain ⟨q, hq, h⟩ := bind_eq_ok.mp h
  have hgap : 0 ≤ g := by
    rw [evaluate_ok hg]
    exact gateContext.round_nonneg (abs_nonneg _)
  have hquotient : 0 ≤ q := by
    rw [evaluate_ok hq]
    exact gateContext.round_nonneg
      (div_nonneg hgap (hfloor.le.trans (le_max_right _ _)))
  rw [← Except.ok.inj h]
  exact ⟨le_min (by norm_num) hquotient, min_le_left _ _⟩

theorem roundedLargest_share {floor : ℚ} (hfloor : 0 < floor) : ∀ {checks : List NumericCheck}
    {largest r : ℚ}, 0 ≤ largest ∧ largest ≤ 1 → roundedLargest floor checks largest = .ok r →
    0 ≤ r ∧ r ≤ 1
  | [], largest, r, hlargest, h => by
    rwa [← Except.ok.inj h]
  | check :: checks, largest, r, hlargest, h => by
    unfold roundedLargest at h
    cases hgap : gap? check with
    | none =>
      rw [hgap] at h
      rw [← Except.ok.inj h]
      norm_num
    | some gap =>
      rw [hgap] at h
      obtain ⟨ratio, hratio, h⟩ := bind_eq_ok.mp h
      obtain ⟨hnonneg, hle⟩ := roundedRatio_share hfloor hratio
      exact roundedLargest_share hfloor
        ⟨hlargest.1.trans (le_max_left _ _), max_le hlargest.2 hle⟩ h

theorem roundedDelta_share {«match» : MatchResult} {floor δ : ℚ} (hfloor : 0 < floor)
    (h : roundedDelta «match» floor = .ok δ) : 0 ≤ δ ∧ δ ≤ 1 := by
  unfold roundedDelta at h
  dsimp only at h
  split_ifs at h
  · rw [← Except.ok.inj h]
    norm_num
  · exact roundedLargest_share hfloor ⟨le_rfl, by norm_num⟩ h

end Gate

/-! ## The whole gate -/

theorem reason_rounded (amb : Ambient) (status : PolicyStatus) (config : CompositeGateConfigData)
    (score : Decimal) : Gate.reason amb status config (.finite score) =
      .ok (Gate.roundedReason status config score.value) := by
  unfold Gate.reason Gate.roundedReason
  split_ifs with hstatus henabled hbelow
  · rfl
  · rfl
  · change Except.ok (if decide (score.value < config.threshold.val.value) then _ else _) = _
    rw [decide_eq_true hbelow]
    rfl
  · change Except.ok (if decide (score.value < config.threshold.val.value) then _ else _) = _
    rw [decide_eq_false hbelow]
    rfl

theorem share_ok {d : Decimal} (h : 0 ≤ d.value ∧ d.value ≤ 1) :
    Gate.share (.finite d) = .ok ⟨d, h⟩ :=
  dif_pos h

theorem share_invalid {d : Decimal} (h : 1 < d.value) :
    Gate.share (.finite d) = CompositeGateResultData.invalid :=
  dif_neg fun hshare => absurd hshare.2 (not_le.mpr h)

/-- A result that is built from its terms is coherent. -/
theorem coherentRoute_ok {amb : Ambient} {result : CompositeGateResultData} {score : Decimal}
    (hterm : result.policySeverityTerm = Gate.policyTerm result.policyStatus)
    (hscore : result.config.val.score amb (.finite result.minimumFieldConfidence.val)
      (.finite result.normalizedMatchDelta.val) (.finite result.policySeverityTerm.val) =
        .ok (.finite score))
    (hvalue : score.value = result.score.val.value)
    (hreason : result.reason =
      Gate.roundedReason result.policyStatus result.config.val result.score.val.value)
    (hroute : result.route = result.reason.route) : result.coherentRoute amb = .ok () := by
  have hnumber : numberValue (.finite score) = some result.score.val.value := congrArg some hvalue
  unfold CompositeGateResultData.coherentRoute
  rw [CompositeGateResultData.ensure_ok (congrArg (fun t : Share => t.val.value) hterm), ok_bind,
    hscore, computed_ok, ok_bind, CompositeGateResultData.ensure_ok hnumber, ok_bind,
    reason_rounded, computed_ok, ok_bind, CompositeGateResultData.ensure_ok hreason, ok_bind]
  exact CompositeGateResultData.ensure_ok (hroute.trans (congrArg GateReason.route hreason))

/-- The score decides, where the gap is known. -/
theorem gate_of_delta {amb : Ambient} {E : ℤ} (hE : 1 ≤ E)
    (h : (gatePrecision amb).Like { gateContext with emax := E }) {host : Host}
    {request : PolicyRequest host} {policy : PolicyResult} {config : Option CompositeGateConfig}
    {rules : CompositeGateConfig} {δ : Decimal} (hrules : gateRules amb config = .ok rules)
    (hdigest : policy.val.inputSha256 = host.modelDigest (PolicyRequest.codec host) request)
    (hδ : Gate.normalizedMatchDelta amb request.val.match
      rules.val.deltaDenominatorFloor.val = .ok (.finite δ))
    (hshare : 0 ≤ δ.value ∧ δ.value ≤ 1) :
    let x := rules.val.roundedScore (Gate.minimumFieldConfidence request.val.extraction).val.value
      δ.value (Gate.policyTerm policy.val.status).val.value
    (1 < x ∧ evaluateCompositeGate amb host request policy config =
      CompositeGateResultData.invalid) ∨
    ¬1 < x ∧ ∃ score : Share, score.val.value = x ∧
      evaluateCompositeGate amb host request policy config =
        .ok (Gate.result host request policy rules
          (Gate.roundedReason policy.val.status rules.val score.val.value) score ⟨δ, hshare⟩) := by
  intro x
  have hfield := (Gate.minimumFieldConfidence request.val.extraction).property
  have hterm := (Gate.policyTerm policy.val.status).property
  obtain ⟨score, hscore, hvalue⟩ := rules.val.score_rounds hE h hfield hshare hterm
  have hnonneg := rules.val.roundedScore_nonneg hfield.1 hshare.2 hterm.1
  change score.value = x at hvalue
  unfold evaluateCompositeGate
  rw [hrules, ok_bind, if_neg (not_not.mpr hdigest), hδ]
  dsimp only
  rw [computed_ok, ok_bind, hscore, computed_ok, ok_bind, reason_rounded, computed_ok, ok_bind,
    ← hvalue]
  by_cases hlarge : 1 < score.value
  · refine .inl ⟨hlarge, ?_⟩
    rw [share_invalid hlarge]
    rfl
  · have hscoreShare : 0 ≤ score.value ∧ score.value ≤ 1 :=
      ⟨hvalue.symm ▸ hnonneg, not_lt.mp hlarge⟩
    refine .inr ⟨hlarge, ⟨score, hscoreShare⟩, rfl, ?_⟩
    have hcoherent : (Gate.result host request policy rules
        (Gate.roundedReason policy.val.status rules.val score.value) ⟨score, hscoreShare⟩
        ⟨δ, hshare⟩).coherentRoute amb = .ok () :=
      coherentRoute_ok rfl hscore rfl rfl rfl
    rw [share_ok hscoreShare, ok_bind, share_ok hshare, ok_bind, hcoherent]
    rfl

/-- In a context that rounds like the default one, the gate is the rounded one. -/
theorem evaluateCompositeGate_rounded {amb : Ambient}
    (h : (gatePrecision amb).Like gateContext) (host : Host) (request : PolicyRequest host)
    (policy : PolicyResult) (config : Option CompositeGateConfig) :
    (evaluateCompositeGate amb host request policy config).map CompositeGateResultData.reading =
      Gate.rounded host request policy (config.getD .default) := by
  have hrules : gateRules amb config = .ok (config.getD .default) := by
    cases config with
    | some config => rfl
    | none =>
      have hsum := (CompositeGateConfigData.weightsSumToOne_iff _ default_like).mp
        CompositeGateConfig.default.property
      have haccepted : CompositeGateConfigData.default.weightsSumToOne amb = .ok () :=
        (CompositeGateConfigData.weightsSumToOne_iff _ h).mpr hsum
      unfold gateRules
      dsimp only
      rw [haccepted, ok_bind]
      rfl
  unfold Gate.rounded
  split_ifs with hdigest
  · unfold evaluateCompositeGate
    rw [hrules, ok_bind, if_pos hdigest]
    rfl
  set rules := config.getD .default with hrulesDef
  have hdelta := Gate.normalizedMatchDelta_shows h request.val.match
    rules.val.deltaDenominatorFloor.property
  cases hrounded : Gate.roundedDelta request.val.match
      rules.val.deltaDenominatorFloor.val.value with
  | error e =>
    rw [hrounded] at hdelta
    cases hdelta' : Gate.normalizedMatchDelta amb request.val.match
      rules.val.deltaDenominatorFloor.val with
    | error e' =>
      rw [hdelta'] at hdelta
      cases hdelta
      unfold evaluateCompositeGate
      rw [hrules, ok_bind, if_neg hdigest, hdelta']
      rfl
    | ok n =>
      rw [hdelta'] at hdelta
      cases hdelta
  | ok δ =>
    rw [hrounded] at hdelta
    obtain ⟨delta, hdeltaOk, rfl⟩ := hdelta.value
    have hshare := Gate.roundedDelta_share rules.val.deltaDenominatorFloor.property hrounded
    rw [computed_ok, ok_bind]
    dsimp only
    rcases gate_of_delta (by decide) h hrules (not_not.mp hdigest) hdeltaOk hshare with
      ⟨hlarge, hresult⟩ | ⟨hlarge, score, hscore, hresult⟩
    · rw [if_pos hlarge, hresult]
      rfl
    · rw [if_neg hlarge, hresult, ← hscore]
      rfl

/-! ## Scores and results -/

/-- The score of a configuration is a share, rises with the confidence and the policy, falls with
the gap, and no result is refused. -/
structure CompositeGateConfig.Sound (config : CompositeGateConfig) : Prop where
  range : ∀ f δ p : Share, ∃ score : Decimal,
    config.val.score defaultAmbient (.finite f.val) (.finite δ.val) (.finite p.val) =
      .ok (.finite score) ∧ 0 ≤ score.value ∧ score.value ≤ 1
  monotone : ∀ f f' δ δ' p p' : Share, f.val.value ≤ f'.val.value → δ'.val.value ≤ δ.val.value →
    p.val.value ≤ p'.val.value → ∃ score score' : Decimal,
      config.val.score defaultAmbient (.finite f.val) (.finite δ.val) (.finite p.val) =
        .ok (.finite score) ∧
      config.val.score defaultAmbient (.finite f'.val) (.finite δ'.val) (.finite p'.val) =
        .ok (.finite score') ∧ score.value ≤ score'.value
  accepted : ∀ host request policy,
    evaluateCompositeGate defaultAmbient host request policy (some config) ≠
      CompositeGateResultData.invalid

/-- A gate whose scores are shares refuses no result. -/
theorem rounded_accepted {host : Host} {request : PolicyRequest host} {policy : PolicyResult}
    {rules : CompositeGateConfig} (h : rules.val.weightsRounded ≤ 1) :
    Gate.rounded host request policy rules ≠ CompositeGateResultData.invalid := by
  intro hinvalid
  unfold Gate.rounded at hinvalid
  split_ifs at hinvalid with hdigest
  · cases hinvalid
  cases hdelta : Gate.roundedDelta request.val.match rules.val.deltaDenominatorFloor.val.value with
  | error e =>
    rw [hdelta] at hinvalid
    cases e <;> cases hinvalid
  | ok δ =>
    rw [hdelta, computed_ok, ok_bind] at hinvalid
    dsimp only at hinvalid
    have hshare := Gate.roundedDelta_share rules.val.deltaDenominatorFloor.property hdelta
    have hle := rules.val.roundedScore_mono
      (Gate.minimumFieldConfidence request.val.extraction).property.2 hshare.1
      (Gate.policyTerm policy.val.status).property.2
    rw [CompositeGateConfigData.roundedScore_one] at hle
    rw [if_neg (not_lt.mpr (hle.trans h))] at hinvalid
    cases hinvalid

/-- The scores of a configuration are sound just if its weights, each rounded to 28 digits, add up
to at most one. -/
theorem composite_gate_sound (config : CompositeGateConfig) :
    config.Sound ↔ config.val.weightsRounded ≤ 1 := by
  have hscore : ∀ f δ p : Share, ∃ score : Decimal,
      config.val.score defaultAmbient (.finite f.val) (.finite δ.val) (.finite p.val) =
        .ok (.finite score) ∧
      score.value = config.val.roundedScore f.val.value δ.val.value p.val.value :=
    fun f δ p => config.val.score_rounds (by decide) default_like f.property δ.property p.property
  constructor
  · intro h
    obtain ⟨score, hrange, -, hle⟩ := h.range .one .zero .one
    obtain ⟨score', hscore, hvalue⟩ := hscore .one .zero .one
    rw [hrange, Except.ok.injEq, Number.finite.injEq] at hscore
    rw [hscore, hvalue, Share.value_one, Share.value_zero,
      CompositeGateConfigData.roundedScore_one] at hle
    exact hle
  · intro h
    refine ⟨fun f δ p => ?_, fun f f' δ δ' p p' hf hδ hp => ?_, fun host request policy => ?_⟩
    · obtain ⟨score, hok, hvalue⟩ := hscore f δ p
      refine ⟨score, hok, ?_, ?_⟩
      · rw [hvalue]
        exact config.val.roundedScore_nonneg f.property.1 δ.property.2 p.property.1
      · have hle := config.val.roundedScore_mono f.property.2 δ.property.1 p.property.2
        rw [CompositeGateConfigData.roundedScore_one] at hle
        rw [hvalue]
        exact hle.trans h
    · obtain ⟨score, hok, hvalue⟩ := hscore f δ p
      obtain ⟨score', hok', hvalue'⟩ := hscore f' δ' p'
      refine ⟨score, score', hok, hok', ?_⟩
      rw [hvalue, hvalue']
      exact config.val.roundedScore_mono hf hδ hp
    · intro hinvalid
      have hrounded := evaluateCompositeGate_rounded default_like host request policy (some config)
      rw [hinvalid] at hrounded
      exact rounded_accepted h hrounded.symm

/-- Weights whose sum is rounded down to one, while the second one is rounded up. -/
def heavyWeights : CompositeGateConfig :=
  ⟨{ CompositeGateConfigData.default with
      weightField := ⟨⟨false, 50000000000000000000000000015, -29⟩, by decide +kernel⟩
      weightMatch := ⟨⟨false, 50000000000000000000000000035, -29⟩, by decide +kernel⟩
      weightPolicy := .zero }, by decide +kernel⟩

/-- The best score of such a configuration is more than one. -/
theorem heavyWeights_unsound : ¬∀ config : CompositeGateConfig, config.Sound := by
  intro h
  obtain ⟨score, hscore, -, hle⟩ := (h heavyWeights).range .one .zero .one
  have hlarge : heavyWeights.val.score defaultAmbient (.finite Share.one.val)
      (.finite Share.zero.val) (.finite Share.one.val) =
        .ok (.finite ⟨false, 1000000000000000000000000001, -27⟩) := by
    decide +kernel
  rw [hlarge, Except.ok.injEq, Number.finite.injEq] at hscore
  rw [← hscore] at hle
  exact absurd hle (by decide +kernel)

end InvoiceOps
