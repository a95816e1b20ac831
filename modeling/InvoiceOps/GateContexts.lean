import InvoiceOps.GateFloor

/-!
# The context of the gate

The gate resets the precision of the context it is called in, and nothing else.
`gate_context_independent` : it decides as in the default context just if the context rounds half
to even, has the exponents of the default one, raises an overflow and no condition of a finite
result (`Gate.Fixed`).

Each part of that is what one request needs : the match of a `probe` has one equality, with numbers
that are at the limits of the default context.
-/

open Decimal (Ambient Condition Context Number)
open Decimal.Ambient (Raises)

namespace InvoiceOps

namespace Gate

/-- The context computes as the default one, whatever its precision. -/
structure Fixed (amb : Ambient) : Prop where
  rounding : amb.rounding = .halfEven
  emin : amb.emin = -999999
  emax : amb.emax = 999999
  overflow : .overflow ∈ amb.traps
  quiet : ∀ c ∈ Ambient.finiteConditions, c ∉ amb.traps

theorem Fixed.like {amb : Ambient} (h : Fixed amb) : (gatePrecision amb).Like gateContext :=
  ⟨rfl, h.rounding, h.emin, h.emax, h.overflow, h.quiet⟩

/-- The gate decides in a context as in the default one, and what was committed is accepted. -/
structure Independent (amb : Ambient) : Prop where
  decision : ∀ host request policy config,
    (evaluateCompositeGate amb host request policy config).map CompositeGateResultData.reading =
      (evaluateCompositeGate defaultAmbient host request policy config).map
        CompositeGateResultData.reading
  revalidation : ∀ host request policy config result,
    evaluateCompositeGate defaultAmbient host request policy config = .ok result →
      result.revalidate amb = .ok ()

end Gate

/-! ## Contexts that compute alike -/

theorem ensure_congr {p q : Prop} [Decidable p] [Decidable q] (h : p ↔ q) :
    CompositeGateResultData.ensure p = CompositeGateResultData.ensure q :=
  if_congr h rfl rfl

/-- `coherent_route`, each operation rounded. -/
def CompositeGateResultData.roundedRoute (result : CompositeGateResultData) : Except Exn Unit := do
  let reason := Gate.roundedReason result.policyStatus result.config.val result.score.val.value
  ensure (result.policySeverityTerm.val.value = (Gate.policyTerm result.policyStatus).val.value)
  ensure (result.config.val.roundedScore result.minimumFieldConfidence.val.value
    result.normalizedMatchDelta.val.value result.policySeverityTerm.val.value =
      result.score.val.value)
  ensure (result.reason = reason)
  ensure (result.route = reason.route)

theorem coherentRoute_rounded {amb : Ambient} (h : (gatePrecision amb).Like gateContext)
    (result : CompositeGateResultData) : result.coherentRoute amb = result.roundedRoute := by
  obtain ⟨score, hscore, hvalue⟩ := result.config.val.score_rounds (by decide) h
    result.minimumFieldConfidence.property result.normalizedMatchDelta.property
    result.policySeverityTerm.property
  have hnumber (x : ℚ) : numberValue (.finite score) = some x ↔ score.value = x := Option.some_inj
  unfold CompositeGateResultData.coherentRoute CompositeGateResultData.roundedRoute
  rw [hscore, computed_ok, ok_bind, reason_rounded, computed_ok, ok_bind, ← hvalue,
    ensure_congr (hnumber _)]

/-- A configuration is accepted again in a context that computes as the default one. -/
theorem revalidate_rounded {amb : Ambient} (h : (gatePrecision amb).Like gateContext)
    (result : CompositeGateResultData) : result.revalidate amb = result.roundedRoute := by
  have haccepted := (CompositeGateConfigData.weightsSumToOne_iff _ default_like).mp
    result.config.property
  unfold CompositeGateResultData.revalidate
  rw [(CompositeGateConfigData.weightsSumToOne_iff _ h).mpr haccepted, ok_bind,
    coherentRoute_rounded h]

theorem of_share_ok {n : Number} {share : Share} (h : Gate.share n = .ok share) :
    n = .finite share.val := by
  cases n with
  | finite d =>
    change construct "CompositeGateResult" (fun d => 0 ≤ d.value ∧ d.value ≤ 1) d = _ at h
    unfold construct at h
    split_ifs at h
    rw [← Except.ok.inj h]
  | infinite neg => cases h
  | nan => cases h

/-- What a result was computed from. -/
theorem of_gate_ok {amb : Ambient} {host : Host} {request : PolicyRequest host}
    {policy : PolicyResult} {config : Option CompositeGateConfig} {result : CompositeGateResultData}
    (h : evaluateCompositeGate amb host request policy config = .ok result) :
    ∃ rules, gateRules amb config = .ok rules ∧
      Gate.normalizedMatchDelta amb request.val.match rules.val.deltaDenominatorFloor.val =
        .ok (.finite result.normalizedMatchDelta.val) ∧
      result.coherentRoute amb = .ok () := by
  obtain ⟨rules, hrules, h⟩ := bind_eq_ok.mp h
  split_ifs at h with hdigest
  obtain ⟨δ, hδ, h⟩ := bind_eq_ok.mp h
  obtain ⟨score, -, h⟩ := bind_eq_ok.mp h
  obtain ⟨reason, -, h⟩ := bind_eq_ok.mp h
  obtain ⟨scoreShare, -, h⟩ := bind_eq_ok.mp h
  obtain ⟨deltaShare, hshare, h⟩ := bind_eq_ok.mp h
  obtain ⟨_, hcoherent, h⟩ := bind_eq_ok.mp h
  rw [← Except.ok.inj h]
  refine ⟨rules, hrules, ?_, hcoherent⟩
  rw [of_share_ok hshare] at hδ
  unfold computed at hδ
  cases hdelta : Gate.normalizedMatchDelta amb request.val.match
    rules.val.deltaDenominatorFloor.val with
  | error c =>
    rw [hdelta] at hδ
    cases hδ
  | ok n =>
    rw [hdelta] at hδ
    rw [Except.ok.inj hδ]
    rfl

namespace Gate

theorem Fixed.independent {amb : Ambient} (h : Fixed amb) : Independent amb where
  decision host request policy config := by
    rw [evaluateCompositeGate_rounded h.like, evaluateCompositeGate_rounded default_like]
  revalidation host request policy config result hresult := by
    rw [revalidate_rounded h.like, ← coherentRoute_rounded default_like]
    obtain ⟨-, -, -, hcoherent⟩ := of_gate_ok hresult
    exact hcoherent

end Gate

/-! ## Conditions that are raised -/

/-- Only the condition of a trap is raised. -/
def Traps {α : Type} (amb : Ambient) (x : Except Exn α) : Prop :=
  ∀ condition, x = .error (conditionError condition) → condition ∈ amb.traps

theorem conditionError_injective : Function.Injective conditionError := by
  intro c c' h
  cases c <;> cases c' <;> first | rfl | exact absurd h (by decide)

namespace Traps

variable {amb : Ambient} {α β : Type}

theorem ok (a : α) : Traps amb (.ok a) :=
  fun _ h => nomatch h

theorem invalid : Traps amb (CompositeGateResultData.invalid : Except Exn α) := by
  intro condition h
  cases condition <;> cases h

theorem computed {x : Except Condition α} (hx : Raises (gatePrecision amb) x) :
    Traps amb (computed x) := by
  intro condition h
  cases x with
  | error c =>
    obtain rfl := conditionError_injective (Except.error.inj h)
    exact hx c rfl
  | ok a => cases h

theorem bind {x : Except Exn α} {f : α → Except Exn β} (hx : Traps amb x)
    (hf : ∀ a, Traps amb (f a)) : Traps amb (x >>= f) := by
  cases x with
  | error e => exact fun condition h => hx condition (congrArg Except.error (Except.error.inj h))
  | ok a => exact hf a

theorem ensure (p : Prop) [Decidable p] : Traps amb (CompositeGateResultData.ensure p) := by
  unfold CompositeGateResultData.ensure
  split_ifs
  · exact ok _
  · exact invalid

theorem share (n : Number) : Traps amb (Gate.share n) := by
  cases n with
  | finite d =>
    change Traps amb (construct "CompositeGateResult" (fun d => 0 ≤ d.value ∧ d.value ≤ 1) d)
    unfold construct
    split_ifs
    · exact ok _
    · exact invalid
  | infinite neg => exact invalid
  | nan => exact invalid

end Traps

theorem ratio_raises {amb : Ambient} (floor expected actual difference : Decimal) :
    Raises amb (Gate.ratio amb floor expected actual difference) := by
  unfold Gate.ratio
  exact (Raises.abs _).bind fun _ => (Raises.abs _).bind fun _ => (Raises.larger _ _).bind fun _ =>
    (Raises.larger _ _).bind fun _ => (Raises.abs _).bind fun _ => (Raises.div _ _).bind fun _ =>
      Raises.smaller _ _

theorem largestRatio_raises {amb : Ambient} (floor : Decimal) :
    ∀ (checks : List NumericCheck) (largest : Number),
      Raises amb (Gate.largestRatio amb floor checks largest)
  | [], largest => .ok _
  | check :: checks, largest => by
    unfold Gate.largestRatio
    cases Gate.gap? check with
    | none => exact .ok _
    | some gap => exact (ratio_raises _ _ _ _).bind fun _ => (Raises.larger _ _).bind fun _ =>
        largestRatio_raises floor checks _

theorem normalizedMatchDelta_raises {amb : Ambient} («match» : MatchResult) (floor : Decimal) :
    Raises (gatePrecision amb) (Gate.normalizedMatchDelta amb «match» floor) := by
  unfold Gate.normalizedMatchDelta
  dsimp only
  split_ifs
  · exact .ok _
  · exact largestRatio_raises _ _ _

theorem score_raises {amb : Ambient} (config : CompositeGateConfigData) (f δ p : Number) :
    Raises (gatePrecision amb) (config.score amb f δ p) := by
  unfold CompositeGateConfigData.score
  exact (Raises.mul _ _).bind fun _ => (Raises.sub _ _).bind fun _ => (Raises.mul _ _).bind fun _ =>
    (Raises.add _ _).bind fun _ => (Raises.mul _ _).bind fun _ => Raises.add _ _

theorem reason_raises {amb : Ambient} (status : PolicyStatus) (config : CompositeGateConfigData)
    (score : Number) : Raises (gatePrecision amb) (Gate.reason amb status config score) := by
  unfold Gate.reason
  split_ifs
  · exact .ok _
  · exact .ok _
  · exact (Raises.lt _ _).bind fun _ => .ok _

/-- A condition that the gate raises is trapped. -/
theorem gate_traps (amb : Ambient) (host : Host) (request : PolicyRequest host)
    (policy : PolicyResult) (config : CompositeGateConfig) :
    Traps amb (evaluateCompositeGate amb host request policy (some config)) := by
  unfold evaluateCompositeGate
  refine (Traps.ok config).bind fun rules => ?_
  split_ifs with hdigest
  · intro condition h
    cases condition <;> cases h
  refine (Traps.computed (normalizedMatchDelta_raises _ _)).bind fun δ =>
    (Traps.computed (score_raises _ _ _ _)).bind fun score =>
      (Traps.computed (reason_raises _ _ _)).bind fun reason => (Traps.share _).bind fun _ =>
        (Traps.share _).bind fun _ => Traps.bind ?_ fun _ => .ok _
  unfold CompositeGateResultData.coherentRoute
  exact (Traps.ensure _).bind fun _ => (Traps.computed (score_raises _ _ _ _)).bind fun _ =>
    (Traps.ensure _).bind fun _ => (Traps.computed (reason_raises _ _ _)).bind fun _ =>
      (Traps.ensure _).bind fun _ => Traps.ensure _

namespace Gate

/-- An equality that matches, whatever its numbers are. -/
def probeCheck (expected difference : Decimal) : NumericCheck :=
  ⟨⟨.unitPrice, none, .equal, some expected, some .zero, some difference, none, .match⟩, nofun⟩

/-- A request whose match has one equality. -/
def probe (host : Host) (expected difference : Decimal) : PolicyRequest host :=
  cleanRequest host .unread costlySnapshot [] [probeCheck expected difference]

/-- The policy of a probe. -/
def probePolicy (host : Host) (expected difference : Decimal) : PolicyResult :=
  ⟨Policy.result host .default (probe host expected difference), Policy.result_valid ..⟩

theorem probePolicy_digest (host : Host) (expected difference : Decimal) :
    (probePolicy host expected difference).val.inputSha256 =
      host.modelDigest (PolicyRequest.codec host) (probe host expected difference) :=
  policy_digest (policy_ok host (probe host expected difference) none)

section

variable {amb : Ambient} {host : Host} {expected difference : Decimal}

theorem probe_delta (floor : Decimal) :
    normalizedMatchDelta amb (probe host expected difference).val.match floor =
      (ratio (gatePrecision amb) floor expected .zero difference >>=
        (gatePrecision amb).larger (.finite .zero)) := by
  have hlargest : normalizedMatchDelta amb (probe host expected difference).val.match floor =
      (ratio (gatePrecision amb) floor expected .zero difference >>= fun r =>
        (gatePrecision amb).larger (.finite .zero) r >>= .ok) := rfl
  rw [hlargest]
  refine congrArg _ (funext fun r => ?_)
  cases (gatePrecision amb).larger (.finite .zero) r <;> rfl

theorem probe_roundedDelta (floor : ℚ) :
    roundedDelta (probe host expected difference).val.match floor =
      (roundedRatio floor expected.value 0 difference.value >>= fun r => .ok (max 0 r)) := by
  have hlargest : roundedDelta (probe host expected difference).val.match floor =
      (roundedRatio floor expected.value (Decimal.value .zero) difference.value >>= fun r =>
        .ok (max 0 r)) := rfl
  rw [hlargest, Decimal.value_zero]

/-- The gap of a probe, where an overflow is raised : its difference, rounded. -/
theorem of_ratio_zero {d : Decimal} {n : Number} (hover : .overflow ∈ amb.traps)
    (h : ratio amb .one .zero .zero d = .ok n) :
    ∃ g r : Decimal, amb.abs (.finite d) = .ok (.finite g) ∧ n = .finite r ∧
      r.value = min 1 g.value := by
  obtain ⟨e, he, h⟩ := bind_eq_ok.mp h
  obtain ⟨a, ha, h⟩ := bind_eq_ok.mp h
  obtain ⟨m, hm, h⟩ := bind_eq_ok.mp h
  obtain ⟨den, hden, h⟩ := bind_eq_ok.mp h
  obtain ⟨g, hg, h⟩ := bind_eq_ok.mp h
  obtain ⟨q, hq, h⟩ := bind_eq_ok.mp h
  obtain ⟨e, rfl, he0⟩ := Ambient.of_fix_zero rfl he
  obtain ⟨a, rfl, ha0⟩ := Ambient.of_fix_zero rfl ha
  have hzero : e.value = 0 ∧ a.value = 0 :=
    ⟨Decimal.value_eq_zero.mpr he0, Decimal.value_eq_zero.mpr ha0⟩
  obtain rfl : m = .finite e := by
    rw [Ambient.larger_finite, hzero.1, hzero.2, if_neg (lt_irrefl _)] at hm
    exact (Except.ok.inj hm).symm
  obtain rfl : den = .finite .one := by
    rw [Ambient.larger_finite, hzero.1, Decimal.value_one, if_pos zero_lt_one] at hden
    exact (Except.ok.inj hden).symm
  obtain ⟨g, rfl, hfits⟩ := Ambient.of_fix hover hg
  have hvalue : ∃ r : Decimal, q = .finite r ∧ r.value = g.value := by
    by_cases hg0 : g.coeff = 0
    · change amb.div (.finite g) (.finite .one) = _ at hq
      unfold Ambient.div at hq
      dsimp only at hq
      rw [if_neg (by decide), if_pos hg0] at hq
      obtain ⟨r, rfl, hr⟩ := Ambient.of_fix_zero rfl hq
      exact ⟨r, rfl, (Decimal.value_eq_zero.mpr hr).trans (Decimal.value_eq_zero.mpr hg0).symm⟩
    · obtain ⟨hexp, hcoeff⟩ := hfits.resolve_left hg0
      rw [Ambient.div_one hg0 hcoeff] at hq
      have hlog : Nat.log 10 g.coeff < amb.prec := Nat.log_lt_of_lt_pow hg0 hcoeff
      have hlow : max (g.digits + g.exp - amb.prec) amb.etiny ≤ g.exp := by
        refine max_le ?_ hexp
        unfold Decimal.digits
        omega
      obtain ⟨r, rfl, hr, -⟩ := Ambient.of_fix_short hover hg0 hlow hq
      exact ⟨r, rfl, hr⟩
  obtain ⟨r, rfl, hr⟩ := hvalue
  obtain ⟨s, hs, hmin⟩ := (Ambient.smaller_shows amb .one r).value
  refine ⟨g, s, hg, Except.ok.inj (h.symm.trans hs), ?_⟩
  rw [hmin, hr, Decimal.value_one]

end

/-! ### Probes in the default context -/

theorem value_power (k : ℤ) : Decimal.value ⟨false, 1, k⟩ = 10 ^ k := by
  rw [Decimal.value_eq]
  simp

theorem evaluate_zero : gateContext.evaluate |0| = .ok 0 := by
  rw [abs_zero, evaluate_eq (by norm_num), Context.round_zero]

/-- The smallest number is not rounded, and a tenth of it is rounded to zero. -/
theorem round_tiny : gateContext.round (10 ^ (-1000026 : ℤ)) = 10 ^ (-1000026 : ℤ) ∧
    gateContext.round (10 ^ (-1000027 : ℤ)) = 0 := by
  refine ⟨Context.round_power (by decide) (by decide), ?_⟩
  have hpos : (0 : ℚ) < 10 ^ (-1000027 : ℤ) := by positivity
  have hlog : Int.log 10 ((10 : ℚ) ^ (-1000027 : ℤ)) = -1000027 := by
    simpa using Int.log_zpow (R := ℚ) (b := 10) (by norm_num) (-1000027)
  have hquantum : gateContext.quantum (10 ^ (-1000027 : ℤ)) = -1000026 := by
    rw [Context.quantum, abs_of_pos hpos, hlog]
    decide
  have htenth : (10 : ℚ) ^ (-1000027 : ℤ) / 10 ^ (-1000026 : ℤ) = 1 / 10 := by
    rw [← zpow_sub₀ (by norm_num)]
    norm_num
  have hnearest : gateContext.rounding.nearest (1 / 10) = 0 := by decide +kernel
  rw [Context.round, if_neg (not_lt.mpr hpos.le), hquantum, Context.roundAt, htenth, hnearest,
    Int.cast_zero, zero_mul]

/-- A large number does not count where there is no difference. -/
theorem probe_large {k : ℤ} (hk : k ≤ 999999) :
    roundedDelta (probe .sample ⟨false, 1, k⟩ .zero).val.match 1 = .ok 0 := by
  have hpow : (0 : ℚ) < 10 ^ k := by positivity
  have hlarge : gateContext.evaluate |Decimal.value ⟨false, 1, k⟩| =
      .ok (gateContext.round (10 ^ k)) := by
    rw [value_power, abs_of_pos hpow]
    refine Context.evaluate_of_le (by decide) (by decide) ?_
    rw [abs_of_pos hpow]
    exact zpow_le_zpow_right₀ (by norm_num) hk
  rw [probe_roundedDelta, roundedRatio, hlarge, ok_bind, evaluate_zero, ok_bind,
    Decimal.value_zero, evaluate_zero, ok_bind, zero_div, evaluate_eq (by norm_num), ok_bind,
    Context.round_zero, min_eq_right (by norm_num)]
  exact congrArg Except.ok (max_self 0)

/-- A number that is too large is raised. -/
theorem probe_overflow :
    roundedDelta (probe .sample ⟨false, 1, 1000000⟩ .zero).val.match 1 = .error .overflow := by
  have hpow : (0 : ℚ) < 10 ^ (1000000 : ℤ) := by positivity
  have hover : gateContext.evaluate |Decimal.value ⟨false, 1, 1000000⟩| = .error .overflow := by
    refine if_pos (Context.overflows_of_le (by decide) (by decide) ?_)
    rw [value_power, abs_abs, abs_of_pos hpow]
    exact le_rfl
  rw [probe_roundedDelta, roundedRatio, hover]
  rfl

/-- Without numbers to compare the difference to, it is the gap. -/
theorem probe_small {d : Decimal} {x : ℚ} (hd : 0 ≤ d.value ∧ d.value ≤ 1)
    (hround : gateContext.round d.value = x) (hx : gateContext.round x = x) :
    roundedDelta (probe .sample .zero d).val.match 1 = .ok x ∧ 0 ≤ x ∧ x ≤ 1 := by
  have hnonneg : 0 ≤ x := hround ▸ gateContext.round_nonneg hd.1
  have hle : x ≤ 1 := by
    rw [← hround, ← CompositeGateConfigData.round_one]
    exact CompositeGateConfigData.round_mono hd.2
  refine ⟨?_, hnonneg, hle⟩
  have hbound : ∀ {y : ℚ}, 0 ≤ y ∧ y ≤ 1 → |y| ≤ 10 ^ 50 := fun hy => by
    rw [abs_of_nonneg hy.1]
    exact hy.2.trans (by norm_num)
  rw [probe_roundedDelta, roundedRatio, Decimal.value_zero, evaluate_zero, ok_bind, ok_bind,
    abs_of_nonneg hd.1, evaluate_eq (hbound hd), ok_bind, hround, max_self,
    max_eq_right zero_le_one, div_one, evaluate_eq (hbound ⟨hnonneg, hle⟩), ok_bind, hx,
    min_eq_right hle]
  exact congrArg Except.ok (max_eq_right hnonneg)

/-! ### Results of the probes -/

section

variable {amb : Ambient} (h : Independent amb)

include h

/-- A gap of the default context is the gap of every context that decides alike. -/
theorem Independent.gap {host : Host} {request : PolicyRequest host} {policy : PolicyResult} {x : ℚ}
    (hdigest : policy.val.inputSha256 = host.modelDigest (PolicyRequest.codec host) request)
    (hx : roundedDelta request.val.match 1 = .ok x) (hshare : 0 ≤ x ∧ x ≤ 1) :
    ∃ δ : Decimal, normalizedMatchDelta amb request.val.match .one = .ok (.finite δ) ∧
      δ.value = x := by
  obtain ⟨reading, hreading, hδ, -⟩ := rounded_default hdigest hx hshare
  have hread := (h.decision host request policy (some .default)).trans
    ((evaluateCompositeGate_rounded default_like ..).trans hreading)
  cases hresult : evaluateCompositeGate amb host request policy (some .default) with
  | error e =>
    rw [hresult] at hread
    cases hread
  | ok result =>
    rw [hresult] at hread
    obtain rfl := Except.ok.inj hread
    obtain ⟨rules, hrules, hdelta, -⟩ := of_gate_ok hresult
    obtain rfl := Except.ok.inj hrules
    exact ⟨_, hdelta, hδ⟩

theorem Independent.delta {expected difference : Decimal} {x : ℚ}
    (hx : roundedDelta (probe .sample expected difference).val.match 1 = .ok x)
    (hshare : 0 ≤ x ∧ x ≤ 1) :
    ∃ δ : Decimal, (ratio (gatePrecision amb) .one expected .zero difference >>=
        (gatePrecision amb).larger (.finite .zero)) = .ok (.finite δ) ∧ δ.value = x := by
  obtain ⟨δ, hδ, hvalue⟩ := h.gap (probePolicy_digest .sample expected difference) hx hshare
  rw [probe_delta] at hδ
  exact ⟨δ, hδ, hvalue⟩

/-- The overflow of the default context is raised. -/
theorem Independent.raised :
    evaluateCompositeGate amb .sample (probe .sample ⟨false, 1, 1000000⟩ .zero)
      (probePolicy .sample ⟨false, 1, 1000000⟩ .zero) (some .default) =
        .error (conditionError .overflow) := by
  have hrounded : rounded .sample (probe .sample ⟨false, 1, 1000000⟩ .zero)
      (probePolicy .sample ⟨false, 1, 1000000⟩ .zero) .default =
        .error (conditionError .overflow) := by
    unfold rounded
    rw [if_neg (not_not.mpr (probePolicy_digest ..)), default_limits.1, probe_overflow]
    rfl
  have hread := (h.decision .sample (probe .sample ⟨false, 1, 1000000⟩ .zero)
    (probePolicy .sample ⟨false, 1, 1000000⟩ .zero) (some .default)).trans
      ((evaluateCompositeGate_rounded default_like ..).trans hrounded)
  cases hresult : evaluateCompositeGate amb .sample (probe .sample ⟨false, 1, 1000000⟩ .zero)
    (probePolicy .sample ⟨false, 1, 1000000⟩ .zero) (some .default) with
  | error e =>
    rw [hresult] at hread
    exact congrArg Except.error (Except.error.inj hread)
  | ok result =>
    rw [hresult] at hread
    cases hread

theorem Independent.overflow : .overflow ∈ amb.traps :=
  gate_traps amb .sample (probe .sample ⟨false, 1, 1000000⟩ .zero)
    (probePolicy .sample ⟨false, 1, 1000000⟩ .zero) .default .overflow h.raised

theorem Independent.overflow_gate : .overflow ∈ (gatePrecision amb).traps :=
  h.overflow

/-- A number that is just not too large is accepted. -/
theorem Independent.emax_ge : 999999 ≤ amb.emax := by
  obtain ⟨δ, hδ, -⟩ := h.delta (probe_large le_rfl) (by norm_num)
  obtain ⟨r, hr, -⟩ := bind_eq_ok.mp hδ
  obtain ⟨e, he, -⟩ := bind_eq_ok.mp hr
  have htop := Ambient.le_of_fix h.overflow_gate one_ne_zero he
  have hdigits : Decimal.digits ⟨false, 1, 999999⟩ = 1 := by decide +kernel
  change Decimal.digits ⟨false, 1, 999999⟩ + 999999 - 28 ≤ amb.emax - 28 + 1 at htop
  omega

/-- The gap of a probe without numbers to compare the difference to. -/
theorem Independent.small {d : Decimal} {x : ℚ} (hd : 0 ≤ d.value ∧ d.value ≤ 1)
    (hround : gateContext.round d.value = x) (hx : gateContext.round x = x) :
    ∃ g : Decimal, (gatePrecision amb).abs (.finite d) = .ok (.finite g) ∧
      max 0 (min 1 g.value) = x := by
  obtain ⟨hdelta, hshare⟩ := probe_small hd hround hx
  obtain ⟨δ, hδ, rfl⟩ := h.delta hdelta hshare
  obtain ⟨n, hn, hlarger⟩ := bind_eq_ok.mp hδ
  obtain ⟨g, r, hg, rfl, hr⟩ := of_ratio_zero h.overflow_gate hn
  obtain ⟨m, hm, hmax⟩ := (Ambient.larger_shows (gatePrecision amb) .zero r).value
  obtain rfl := Number.finite.inj (Except.ok.inj (hm.symm.trans hlarger))
  refine ⟨g, hg, ?_⟩
  rw [hmax, Decimal.value_zero, hr]

omit h in
theorem etiny_gate : (gatePrecision amb).etiny = amb.emin - 27 := by
  change amb.emin - 28 + 1 = _
  omega

omit h in
/-- A gap between zero and one. -/
theorem gap_eq {x : ℚ} (hx : 0 ≤ x ∧ x ≤ 1) : max 0 (min 1 x) = x := by
  rw [min_eq_right hx.2, max_eq_right hx.1]

omit h in
theorem power_le_one {k : ℤ} (hk : k ≤ 0) : (0 : ℚ) ≤ 10 ^ k ∧ (10 : ℚ) ^ k ≤ 1 :=
  ⟨by positivity, zpow_le_one_of_nonpos₀ (by norm_num) hk⟩

/-- A power of ten under the smallest number is rounded to nothing or to the smallest number. -/
theorem Independent.tiny {k : ℤ} (hk : k < amb.emin - 27) {g : Decimal}
    (hg : (gatePrecision amb).abs (.finite ⟨false, 1, k⟩) = .ok (.finite g)) :
    (g.value = 0 ∨ g.value = 10 ^ (amb.emin - 27)) ∧ .rounded ∉ amb.traps ∧
      .inexact ∉ amb.traps ∧ .underflow ∉ amb.traps ∧ .subnormal ∉ amb.traps ∧
      (g.value = 0 → .clamped ∉ amb.traps) := by
  have hdigits : Decimal.digits ⟨false, 1, k⟩ = 1 := by
    simp [Decimal.digits]
  have hsubnormal : Decimal.digits ⟨false, 1, k⟩ + k - (gatePrecision amb).prec <
      (gatePrecision amb).etiny := by
    rw [etiny_gate, hdigits]
    change 1 + k - 28 < _
    omega
  have hlow : max (Decimal.digits ⟨false, 1, k⟩ + k - (gatePrecision amb).prec)
      (gatePrecision amb).etiny = amb.emin - 27 := by
    rw [max_eq_right hsubnormal.le, etiny_gate]
  obtain ⟨n, hn⟩ : ∃ n : ℕ, (amb.emin - 27 - k).toNat = n + 1 :=
    ⟨(amb.emin - 27 - k).toNat - 1, by omega⟩
  have hsmall : 1 < 10 ^ (n + 1) := Nat.one_lt_pow (by omega) (by norm_num)
  obtain ⟨hshort, hrounded, hinexact, hquiet, hclamped⟩ := Ambient.of_fix_long
    h.overflow_gate one_ne_zero (by rw [hlow]; exact hk) hg
  rw [hlow] at hshort hinexact hclamped
  dsimp only at hshort hinexact hclamped
  rw [hn, Nat.mod_eq_of_lt hsmall] at hinexact
  obtain ⟨hinexact, hunderflow⟩ := hinexact one_ne_zero
  have hdrop := Ambient.drop_cases amb.rounding false 1 (n + 1)
  rw [Nat.div_eq_of_lt hsmall] at hdrop
  have hfits : amb.rounding.drop false 1 (amb.emin - 27 - k).toNat < 10 ^ 28 := by
    rw [hn]
    rcases hdrop with hdrop | hdrop <;> rw [hdrop] <;> norm_num
  rw [Ambient.shortened_eq hfits] at hshort hclamped
  obtain rfl := Number.finite.inj hshort
  dsimp only at hclamped
  refine ⟨?_, hrounded, hinexact, hunderflow hsubnormal, hquiet hsubnormal,
    fun hzero => hclamped (Decimal.value_eq_zero.mp hzero)⟩
  rw [hn]
  rcases hdrop with hdrop | hdrop
  · exact .inl (Decimal.value_eq_zero.mpr hdrop)
  · right
    change Decimal.value ⟨false, amb.rounding.drop false 1 (n + 1), _⟩ = _
    rw [hdrop, value_power]

/-- The smallest number counts. -/
theorem Independent.emin_le : amb.emin ≤ -999999 := by
  by_contra hemin
  have hpower := power_le_one (k := -1000026) (by norm_num)
  have hpos : (0 : ℚ) < 10 ^ (-1000026 : ℤ) := by positivity
  obtain ⟨g, hg, hvalue⟩ := h.small (d := ⟨false, 1, -1000026⟩) (by rwa [value_power])
    (by rw [value_power]; exact round_tiny.1) round_tiny.1
  have hemin0 := amb.emin_le
  rcases (h.tiny (by omega) hg).1 with hg | hg
  · rw [hg, gap_eq (by norm_num)] at hvalue
    exact hpos.ne hvalue
  · rw [hg, gap_eq (power_le_one (by omega))] at hvalue
    have hexp := zpow_right_injective₀ (by norm_num : (0 : ℚ) < 10) (by norm_num) hvalue
    omega

/-- A tenth of it does not. -/
theorem Independent.emin_ge : -999999 ≤ amb.emin := by
  by_contra hemin
  have hpos : (0 : ℚ) < 10 ^ (-1000027 : ℤ) := by positivity
  have hpower := power_le_one (k := -1000027) (by norm_num)
  obtain ⟨g, hg, hvalue⟩ := h.small (d := ⟨false, 1, -1000027⟩) (by rwa [value_power])
    (by rw [value_power]; exact round_tiny.2) gateContext.round_zero
  have hlow : max (Decimal.digits ⟨false, 1, -1000027⟩ + -1000027 - (gatePrecision amb).prec)
      (gatePrecision amb).etiny ≤ -1000027 := by
    have hdigits : Decimal.digits ⟨false, 1, -1000027⟩ = 1 := by decide +kernel
    rw [etiny_gate, hdigits]
    refine max_le ?_ (by omega)
    change (1 + -1000027 - 28 : ℤ) ≤ _
    norm_num
  obtain ⟨r, hr, hsame, -⟩ := Ambient.of_fix_short h.overflow_gate
    one_ne_zero hlow hg
  obtain rfl := Number.finite.inj hr
  rw [hsame, value_power, gap_eq hpower] at hvalue
  exact hpos.ne' hvalue

theorem Independent.emin : amb.emin = -999999 :=
  le_antisymm h.emin_le h.emin_ge

/-- Rounding the smallest number signals every condition of a finite result. -/
theorem Independent.quiet : ∀ c ∈ Ambient.finiteConditions, c ∉ amb.traps := by
  have hpower := power_le_one (k := -1000027) (by norm_num)
  have hemin := h.emin
  obtain ⟨g, hg, hvalue⟩ := h.small (d := ⟨false, 1, -1000027⟩) (by rwa [value_power])
    (by rw [value_power]; exact round_tiny.2) gateContext.round_zero
  obtain ⟨hcases, hrounded, hinexact, hunderflow, hsubnormal, hclamped⟩ := h.tiny (by omega) hg
  have hzero : g.value = 0 := by
    refine hcases.resolve_right fun hg => ?_
    rw [hg, gap_eq (power_le_one (by omega))] at hvalue
    exact (by positivity : (0 : ℚ) < 10 ^ (amb.emin - 27)).ne' hvalue
  simp only [Ambient.finiteConditions, List.forall_mem_cons, List.not_mem_nil, false_implies,
    implies_true, and_true]
  exact ⟨hunderflow, hsubnormal, hinexact, hrounded, hclamped hzero⟩

/-- A number with a digit more than the gate has is rounded to the same digits. -/
theorem Independent.drop {c q : ℕ} (hc : 10 ^ 28 ≤ c ∧ c < 2 * 10 ^ 28)
    (hround : gateContext.round (Decimal.value ⟨false, c, -29⟩) = Decimal.value ⟨false, q, -28⟩)
    (hq : gateContext.round (Decimal.value ⟨false, q, -28⟩) = Decimal.value ⟨false, q, -28⟩) :
    amb.rounding.drop false c 1 = q := by
  have hvalue : ∀ (n : ℕ) (k : ℤ), Decimal.value ⟨false, n, k⟩ = n * 10 ^ k := by
    intro n k
    rw [Decimal.value_eq]
    simp
  have hle : ∀ {n : ℕ}, n ≤ 10 ^ 28 →
      0 ≤ Decimal.value ⟨false, n, -28⟩ ∧ Decimal.value ⟨false, n, -28⟩ ≤ 1 := by
    intro n hn
    have hn' : (n : ℚ) ≤ 10 ^ 28 := by exact_mod_cast hn
    rw [hvalue]
    refine ⟨by positivity, ?_⟩
    calc (n : ℚ) * 10 ^ (-28 : ℤ) ≤ 10 ^ 28 * 10 ^ (-28 : ℤ) :=
          mul_le_mul_of_nonneg_right hn' (by positivity)
      _ = 1 := by norm_num
  have hshare : 0 ≤ Decimal.value ⟨false, c, -29⟩ ∧ Decimal.value ⟨false, c, -29⟩ ≤ 1 := by
    have hc' : (c : ℚ) ≤ 2 * 10 ^ 28 := by exact_mod_cast hc.2.le
    rw [hvalue]
    refine ⟨by positivity, ?_⟩
    calc (c : ℚ) * 10 ^ (-29 : ℤ) ≤ 2 * 10 ^ 28 * 10 ^ (-29 : ℤ) :=
          mul_le_mul_of_nonneg_right hc' (by positivity)
      _ ≤ 1 := by norm_num
  obtain ⟨g, hg, hgap⟩ := h.small hshare hround hq
  have hemin := h.emin
  have hlog : Nat.log 10 c = 28 :=
    Nat.log_eq_of_pow_le_of_lt_pow hc.1 (hc.2.trans (by norm_num))
  have hlow : max (Decimal.digits ⟨false, c, -29⟩ + -29 - (gatePrecision amb).prec)
      (gatePrecision amb).etiny = -28 := by
    rw [etiny_gate, Decimal.digits, hlog, hemin]
    change max ((28 : ℤ) + 1 + -29 - 28) (-999999 - 27) = -28
    decide
  have hc0 : c ≠ 0 := by omega
  obtain ⟨hshort, -⟩ := Ambient.of_fix_long h.overflow_gate hc0
    (by rw [hlow]; change (-29 : ℤ) < -28; decide) hg
  rw [hlow] at hshort
  have hdrop := Ambient.drop_cases amb.rounding false c 1
  have hfits : amb.rounding.drop false c 1 < 10 ^ 28 := by omega
  rw [Ambient.shortened_eq hfits] at hshort
  obtain rfl := Number.finite.inj hshort
  change max 0 (min 1 (Decimal.value ⟨false, amb.rounding.drop false c 1, -28⟩)) = _ at hgap
  rw [gap_eq (hle hfits.le), hvalue, hvalue] at hgap
  exact_mod_cast mul_right_cancel₀ (by positivity : (10 : ℚ) ^ (-28 : ℤ) ≠ 0) hgap

omit h in
/-- The modes differ on a tie after an even digit, or on one after an odd digit. -/
theorem halfEven_of_drops {mode : Decimal.RoundingMode}
    (heven : mode.drop false (10 ^ 28 + 5) 1 = 10 ^ 27)
    (hodd : mode.drop false (10 ^ 28 + 15) 1 = 10 ^ 27 + 2) : mode = .halfEven := by
  cases mode <;> first | rfl | exact absurd heven (by decide) | exact absurd hodd (by decide)

theorem Independent.rounding : amb.rounding = .halfEven :=
  halfEven_of_drops
    (h.drop (by norm_num) (by decide +kernel) (by decide +kernel))
    (h.drop (by norm_num) (by decide +kernel) (by decide +kernel))

/-- Up to its largest exponent, the context is the default one. -/
theorem Independent.wide : (gatePrecision amb).Like { gateContext with emax := amb.emax } :=
  ⟨rfl, h.rounding, h.emin, rfl, h.overflow, h.quiet⟩

/-- With a larger exponent, the number that is too large has no gap. -/
theorem Independent.wide_gap (hemax : 1000000 ≤ amb.emax) : ∃ δ : Decimal,
    normalizedMatchDelta amb (probe .sample ⟨false, 1, 1000000⟩ .zero).val.match .one =
      .ok (.finite δ) ∧ δ.value = 0 := by
  have hwide := h.wide
  have hlimits : gateContext.emin ≤ amb.emax := by
    change -999999 ≤ amb.emax
    omega
  have hprec : 1 ≤ gateContext.prec := by decide
  have hpow : (0 : ℚ) < 10 ^ (1000000 : ℤ) := by positivity
  have hzero : ∀ {result : Except Condition Number} {x : ℚ},
      Ambient.Rounds { gateContext with emax := amb.emax } x result → x = 0 →
        ∃ r : Decimal, result = .ok (.finite r) ∧ r.value = 0 := by
    intro result x hrounds hx
    rw [hx] at hrounds
    obtain ⟨r, hr, hvalue⟩ := hrounds.of_le hprec hlimits (by rw [abs_zero]; positivity)
    exact ⟨r, hr, hvalue.trans (Context.round_zero _)⟩
  obtain ⟨e, he, -⟩ := (hwide.abs ⟨false, 1, 1000000⟩).of_le hprec hlimits (by
    rw [abs_abs, value_power, abs_of_pos hpow]
    exact zpow_le_zpow_right₀ (by norm_num) hemax)
  obtain ⟨a, ha, hzeroValue⟩ := hzero (hwide.abs .zero) (by rw [Decimal.value_zero, abs_zero])
  obtain ⟨m, hm, hmValue⟩ := (Ambient.larger_shows (gatePrecision amb) e a).value
  obtain ⟨n, hn, hnValue⟩ := (Ambient.larger_shows (gatePrecision amb) m .one).value
  have hne : n.coeff ≠ 0 := by
    refine Decimal.value_eq_zero.not.mp ?_
    rw [hnValue, Decimal.value_one]
    exact (zero_lt_one.trans_le (le_max_right _ _)).ne'
  obtain ⟨q, hq, hqValue⟩ := hzero (hwide.div a hne) (by rw [hzeroValue, zero_div])
  obtain ⟨r, hr, hrValue⟩ := (Ambient.smaller_shows (gatePrecision amb) .one q).value
  obtain ⟨δ, hδ, hδValue⟩ := (Ambient.larger_shows (gatePrecision amb) .zero r).value
  refine ⟨δ, ?_, ?_⟩
  · rw [probe_delta, ratio, he, ok_bind, ha, ok_bind, hm, ok_bind, hn, ok_bind, ok_bind, hq,
      ok_bind, hr, ok_bind, hδ]
  · rw [hδValue, hrValue, hqValue, Decimal.value_one, Decimal.value_zero]
    norm_num

/-- A number that is just too large is not accepted. -/
theorem Independent.emax_le : amb.emax ≤ 999999 := by
  by_contra hemax
  obtain ⟨δ, hδ, hzero⟩ := h.wide_gap (by omega)
  have hrules : gateRules amb (some .default) = .ok .default := rfl
  have hraised := h.raised
  rcases gate_of_delta (by omega) h.wide hrules (probePolicy_digest ..) hδ
    (by rw [hzero]; norm_num) with ⟨-, hresult⟩ | ⟨-, score, -, hresult⟩
  · rw [hresult] at hraised
    cases hraised
  · rw [hresult] at hraised
    cases hraised

theorem Independent.fixed : Fixed amb :=
  ⟨h.rounding, h.emin, le_antisymm h.emax_le h.emax_ge, h.overflow, h.quiet⟩

end

end Gate

/-- The gate is independent of the context it is called in just if that rounds as the default
one. -/
theorem gate_context_independent (amb : Ambient) :
    Gate.Independent amb ↔ Gate.Fixed amb :=
  ⟨Gate.Independent.fixed, Gate.Fixed.independent⟩

/-- The default context, but for its rounding. -/
def roundDownAmbient : Ambient :=
  { defaultAmbient with rounding := .down }

theorem roundDown_delta : Gate.normalizedMatchDelta roundDownAmbient costlyRequest.val.match .one =
    .ok (.finite ⟨false, 1666666666666666666666666666, -33⟩) := by
  decide +kernel

/-- A gap of a cent in 6000 is rounded up by default. -/
theorem gate_rounds_down : ¬∀ amb, Gate.Independent amb := by
  intro h
  obtain ⟨δ, hδ, hvalue⟩ := (h roundDownAmbient).gap
    (policy_digest (policy_ok .sample costlyRequest none)) costlyRequest_delta (by norm_num)
  rw [roundDown_delta, Except.ok.injEq, Number.finite.injEq] at hδ
  rw [← hδ] at hvalue
  exact absurd hvalue (by decide +kernel)

end InvoiceOps
