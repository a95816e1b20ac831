import InvoiceOps.GateExact
import InvoiceOps.TaxonomyExact

/-!
# What the gate approves

With the default weights the score is the weighted sum on the rationals, up to two units of the 28th
digit. So an approved invoice has no field with a confidence under `0.9 + 0.6 δ`, up to that error.

An equality within the default tolerances has a gap of at most one hundredth, since rounding does
not pass a hundredth, nor a hundredth of a rounded number (`ratio_le`). So an eligible invoice whose
fields all have a confidence of 0.906 is approved.
-/

open Decimal (Ambient Condition Context Grid Number)

namespace InvoiceOps

/-! ## Rounding shares -/

/-- A short number is not rounded. -/
theorem gate_round_grid {x : ℚ} (h : Grid 20 x) (hx : |x| ≤ 10) : gateContext.round x = x := by
  obtain ⟨k, hk⟩ := id h
  have hvalue : x = k * 10 ^ (-20 : ℤ) := by
    rw [hk, zpow_neg, div_eq_mul_inv]
    rfl
  refine Context.round_exact (by decide) ⟨k, -20, hvalue, ?_, by decide, by decide⟩
  rw [hk, abs_div, abs_of_pos (by positivity : (0 : ℚ) < 10 ^ 20),
    div_le_iff₀ (by positivity)] at hx
  have hle : |k| ≤ 10 * 10 ^ 20 := by exact_mod_cast hx
  exact hle.trans_lt (by decide)

/-- A share is rounded to 28 decimals or more. -/
theorem gate_round_near {x : ℚ} (hx : 0 ≤ x ∧ x ≤ 1) :
    |gateContext.round x - x| ≤ 1 / (2 * 10 ^ 28) := by
  rcases hx.1.eq_or_lt with rfl | hpos
  · rw [Context.round_zero, sub_zero, abs_zero]
    positivity
  rcases hx.2.eq_or_lt with rfl | hlt
  · rw [CompositeGateConfigData.round_one, sub_self, abs_zero]
    positivity
  have hlog : Int.log 10 x < 0 := by
    refine (Int.lt_zpow_iff_log_lt (b := 10) (by norm_num) hpos).mp ?_
    rwa [zpow_zero]
  have hquantum : gateContext.quantum x ≤ -28 := by
    rw [Context.quantum, abs_of_pos hpos]
    refine max_le ?_ (by decide)
    change Int.log 10 x + 1 - 28 ≤ -28
    omega
  refine (gateContext.abs_round_sub_le x).trans ?_
  calc (10 : ℚ) ^ gateContext.quantum x / 2 ≤ 10 ^ (-28 : ℤ) / 2 := by
        gcongr
        norm_num
    _ = 1 / (2 * 10 ^ 28) := by norm_num

/-! ## The default score -/

namespace CompositeGateConfigData

theorem default_weights : default.weightField.val.value = 1 / 2 ∧
    default.weightMatch.val.value = 3 / 10 ∧ default.weightPolicy.val.value = 1 / 5 := by
  decide +kernel

/-- The score of the default weights is the weighted sum, up to rounding. -/
theorem roundedScore_near {f δ : ℚ} (hf : (0 ≤ f ∧ f ≤ 1) ∧ Grid 6 f) (hδ : 0 ≤ δ ∧ δ ≤ 1) :
    |default.roundedScore f δ 1 - (f / 2 + 3 / 10 * (1 - δ) + 1 / 5)| ≤ 165 / 10 ^ 30 := by
  obtain ⟨hweightField, hweightMatch, hweightPolicy⟩ := default_weights
  have hfield : gateContext.round (1 / 2 * f) = 1 / 2 * f := by
    have hhalf : Grid 1 (1 / 2 : ℚ) := ⟨5, by norm_num⟩
    refine gate_round_grid ((hhalf.mul hf.2).mono (by norm_num)) ?_
    rw [abs_of_nonneg (by linarith)]
    linarith
  have hpolicy : gateContext.round (1 / 5 * 1) = 1 / 5 := by
    have hfifth : Grid 20 (1 / 5 : ℚ) := ⟨20000000000000000000, by norm_num⟩
    rw [mul_one]
    exact gate_round_grid hfifth (by norm_num)
  have hrest := gate_round_near (x := 1 - δ) ⟨by linarith, by linarith⟩
  have hrestShare : 0 ≤ gateContext.round (1 - δ) ∧ gateContext.round (1 - δ) ≤ 1 := by
    refine ⟨gateContext.round_nonneg (by linarith), ?_⟩
    rw [← round_one]
    exact round_mono (by rw [round_one]; linarith)
  have hmatch := gate_round_near (x := 3 / 10 * gateContext.round (1 - δ))
    ⟨by linarith, by linarith⟩
  have hmatchLe : 0 ≤ gateContext.round (3 / 10 * gateContext.round (1 - δ)) ∧
      gateContext.round (3 / 10 * gateContext.round (1 - δ)) ≤ 3 / 10 := by
    refine ⟨gateContext.round_nonneg (by linarith), ?_⟩
    have htenth : gateContext.round (3 / 10) = 3 / 10 :=
      gate_round_grid ⟨30000000000000000000, by norm_num⟩ (by norm_num)
    rw [← htenth]
    exact round_mono (by rw [htenth]; linarith)
  have hsum := gate_round_near
    (x := 1 / 2 * f + gateContext.round (3 / 10 * gateContext.round (1 - δ)))
    ⟨by linarith, by linarith⟩
  have hsumLe : 0 ≤ gateContext.round
        (1 / 2 * f + gateContext.round (3 / 10 * gateContext.round (1 - δ))) ∧
      gateContext.round (1 / 2 * f + gateContext.round (3 / 10 * gateContext.round (1 - δ))) ≤
        4 / 5 := by
    refine ⟨gateContext.round_nonneg (by linarith), ?_⟩
    have hfour : gateContext.round (4 / 5) = 4 / 5 :=
      gate_round_grid ⟨80000000000000000000, by norm_num⟩ (by norm_num)
    rw [← hfour]
    exact round_mono (by linarith)
  have hscore := gate_round_near (x := gateContext.round
    (1 / 2 * f + gateContext.round (3 / 10 * gateContext.round (1 - δ))) + 1 / 5)
    ⟨by linarith, by linarith⟩
  rw [roundedScore, hweightField, hweightMatch, hweightPolicy, hfield, hpolicy]
  rw [abs_le] at hrest hmatch hsum hscore ⊢
  constructor <;> linarith

end CompositeGateConfigData

/-! ## The gap of an equality within its tolerance -/

namespace Gate

theorem evaluate_eq {x : ℚ} (h : |x| ≤ 10 ^ 50) :
    gateContext.evaluate x = .ok (gateContext.round x) := by
  refine Context.evaluate_of_le (by decide) (by decide) (h.trans ?_)
  have hpow : (10 : ℚ) ^ 50 = 10 ^ (50 : ℤ) := by norm_cast
  rw [hpow]
  exact zpow_le_zpow_right₀ (by norm_num) (by decide)

theorem round_le_hundredth {x : ℚ} (h : x ≤ 1 / 100) : gateContext.round x ≤ 1 / 100 := by
  have hexact : gateContext.round (1 / 100) = 1 / 100 :=
    gate_round_grid ⟨1000000000000000000, by norm_num⟩ (by norm_num)
  rw [← hexact]
  exact gateContext.round_mono (by decide) h

/-- Half a hundredth of a number is at most a hundredth of the rounded number. -/
theorem round_half_percent {x : ℚ} (hx : 1 ≤ x) :
    gateContext.round (x / 200) ≤ gateContext.round x / 100 := by
  have hpos : 0 < x := by linarith
  have hlog : 0 ≤ Int.log 10 x := by
    refine (Int.zpow_le_iff_le_log (b := 10) (by norm_num) hpos).mp ?_
    rwa [zpow_zero]
  have hdiv := @Context.round_div_pow gateContext x hpos 2 (by
    change (-999999 - 28 + 1 : ℤ) + 2 ≤ Int.log 10 x + 1 - 28
    omega)
  have hhundred : (10 : ℚ) ^ 2 = 100 := by norm_num
  rw [hhundred] at hdiv
  rw [← hdiv]
  refine gateContext.round_mono (by decide) ?_
  rw [div_le_div_iff₀ (by norm_num) (by norm_num)]
  linarith

/-- An equality within a cent or half a percent has a gap of at most a hundredth. -/
theorem ratio_le {x y : ℚ} (hx : |x| ≤ 10 ^ 40)
    (h : |y - x| ≤ max (1 / 100) (|x| * (1 / 200))) :
    ∃ r, roundedRatio 1 x y (y - x) = .ok r ∧ 0 ≤ r ∧ r ≤ 1 / 100 := by
  have hdifference : |y - x| ≤ 10 ^ 41 := by
    refine h.trans (max_le (by norm_num) ?_)
    linarith
  have hy : |y| ≤ 10 ^ 42 := by
    have htriangle := abs_add_le (y - x) x
    rw [sub_add_cancel] at htriangle
    linarith
  set e := gateContext.round |x| with he
  set a := gateContext.round |y| with ha
  set g := gateContext.round |y - x| with hg
  set D := max (max e a) 1 with hD
  have hone : 1 ≤ D := le_max_right _ _
  have hgap : 0 ≤ g := gateContext.round_nonneg (abs_nonneg _)
  have hgD : g ≤ D / 100 := by
    rcases le_max_iff.mp h with hcent | hpercent
    · have hle : g ≤ 1 / 100 := round_le_hundredth hcent
      linarith
    · by_cases hlarge : 1 ≤ |x|
      · have hle := gateContext.round_mono (by decide)
          (hpercent.trans_eq (by ring : |x| * (1 / 200) = |x| / 200))
        have hhalf := round_half_percent hlarge
        have heD : e ≤ D := (le_max_left e a).trans (le_max_left _ _)
        linarith
      · have hle : g ≤ 1 / 100 := round_le_hundredth (by linarith)
        linarith
  have hquotient : g / D ≤ 1 / 100 := by
    rw [div_le_iff₀ (by linarith)]
    linarith
  have hquotientNonneg : 0 ≤ g / D := div_nonneg hgap (by linarith)
  have hround : gateContext.round (g / D) ≤ 1 / 100 := round_le_hundredth hquotient
  refine ⟨min 1 (gateContext.round (g / D)), ?_,
    le_min (by norm_num) (gateContext.round_nonneg hquotientNonneg),
    (min_le_right _ _).trans hround⟩
  unfold roundedRatio
  rw [evaluate_eq ((abs_abs x).trans_le (hx.trans (by norm_num))), ok_bind,
    evaluate_eq ((abs_abs y).trans_le (hy.trans (by norm_num))), ok_bind,
    evaluate_eq ((abs_abs (y - x)).trans_le (hdifference.trans (by norm_num))), ok_bind,
    ← he, ← ha, ← hg, ← hD, evaluate_eq, ok_bind]
  · rfl
  · rw [abs_of_nonneg hquotientNonneg]
    exact hquotient.trans (by norm_num)

/-- A check that is known, of an equality within its tolerance. -/
def Near (check : NumericCheck) : Prop :=
  ∃ expected actual difference : Decimal,
    gap? check = some (expected, actual, difference) ∧
    difference.value = actual.value - expected.value ∧ |expected.value| ≤ 10 ^ 40 ∧
    |actual.value - expected.value| ≤ max (1 / 100) (|expected.value| * (1 / 200))

theorem roundedLargest_le : ∀ {checks : List NumericCheck} {largest : ℚ},
    (∀ check ∈ checks, Near check) → 0 ≤ largest ∧ largest ≤ 1 / 100 →
    ∃ r, roundedLargest 1 checks largest = .ok r ∧ 0 ≤ r ∧ r ≤ 1 / 100
  | [], largest, _, hlargest => ⟨largest, rfl, hlargest⟩
  | check :: checks, largest, h, hlargest => by
    rw [List.forall_mem_cons] at h
    obtain ⟨⟨expected, actual, difference, hgap, hdifference, hexpected, hnear⟩, hrest⟩ := h
    obtain ⟨ratio, hratio, hnonneg, hle⟩ := ratio_le hexpected hnear
    obtain ⟨r, hr, hbounds⟩ := @roundedLargest_le checks (max largest ratio) hrest
      ⟨hlargest.1.trans (le_max_left _ _), max_le hlargest.2 hle⟩
    refine ⟨r, ?_, hbounds⟩
    unfold roundedLargest
    rw [hgap]
    dsimp only
    rw [hdifference, hratio, ok_bind, hr]

end Gate

namespace Match

/-- An equality that matches is within its tolerance. -/
theorem Comparison.Computed.near {c : Comparison} {check : NumericCheck} (h : c.Computed check)
    (hrule : c.rule = .equal) (habsolute : c.absolute = MatchConfig.cent)
    (hrelative : c.relative = MatchConfig.halfPercent) (hmatch : check.val.status = .match) :
    Gate.Near check := by
  have hplaces : Grid 6 c.relative.val.value := by
    rw [hrelative]
    exact ⟨5000, by decide +kernel⟩
  have hcent : c.absolute.val.value = 1 / 100 := by
    rw [habsolute]
    decide +kernel
  have hpercent : c.relative.val.value = 1 / 200 := by
    rw [hrelative]
    decide +kernel
  have hstatus := congrArg Measurement.status (h.measurement_eq hplaces)
  have hknown : ¬(c.expected = none ∨ c.actual = none) := by
    rw [← h.decides.unknown, hmatch]
    decide
  rw [not_or] at hknown
  obtain ⟨x, hx⟩ := Option.ne_none_iff_exists'.mp hknown.1
  obtain ⟨y, hy⟩ := Option.ne_none_iff_exists'.mp hknown.2
  have hmeasured := h.decides.measured x hx y hy
  obtain ⟨e, he, rfl⟩ := Option.map_eq_some_iff.mp hmeasured.expected
  obtain ⟨a, ha, rfl⟩ := Option.map_eq_some_iff.mp hmeasured.actual
  obtain ⟨d, hd, hdifference⟩ := Option.map_eq_some_iff.mp hmeasured.difference
  refine ⟨e, a, d, ?_, hdifference, (h.expected _ hx).2, ?_⟩
  · unfold Gate.gap?
    rw [hmatch, he, ha, hd, if_neg (by decide)]
    rfl
  · change check.val.status = _ at hstatus
    rw [hmatch, Comparison.measurement, hx, hy, hrule, hcent, hpercent] at hstatus
    dsimp only at hstatus
    split_ifs at hstatus with hallowed
    exact hallowed.1

/-- The equalities among the comparisons have a cent and half a percent for tolerance. -/
theorem comparisons_equal {extraction : InvoiceExtraction} {snapshot : ERPSnapshotData} :
    ∀ c ∈ comparisons extraction snapshot .default, c.rule = .equal →
      c.absolute = MatchConfig.cent ∧ c.relative = MatchConfig.halfPercent := by
  intro c hc hrule
  rcases List.mem_append.mp hc with hc | hc
  · have hheader : ∀ c ∈ headerComparisons extraction snapshot .default, c.rule = .atMost := by
      simp [headerComparisons]
    rw [hheader c hc] at hrule
    cases hrule
  · obtain ⟨line, -, hc⟩ := List.mem_flatMap.mp hc
    simp only [lineComparisons, List.mem_cons, List.not_mem_nil, or_false] at hc
    rcases hc with rfl | rfl | rfl | rfl | rfl
    · exact ⟨rfl, rfl⟩
    · cases hrule
    · cases hrule
    · cases hrule
    · exact ⟨rfl, rfl⟩

/-- An order has a line, and its price is compared for equality. -/
theorem exists_equal (extraction : InvoiceExtraction) (snapshot : ERPSnapshot) :
    .equal ∈ (comparisons extraction snapshot.val .default).map Comparison.rule := by
  obtain ⟨line, rest, hlines⟩ := List.exists_cons_of_ne_nil snapshot.property.nonempty
  unfold comparisons
  rw [hlines]
  simp [lineComparisons]

end Match

/-- A match that passes has a gap of at most a hundredth. -/
theorem delta_of_pass {host : Host} {request : MatchRequest} {result : MatchResult}
    (h : matchInvoice host request = .ok result) (hpass : result.val.status = .pass) :
    ∃ δ, Gate.roundedDelta result 1 = .ok δ ∧ 0 ≤ δ ∧ δ ≤ 1 / 100 := by
  cases hrequest : request.snapshot with
  | none =>
    obtain ⟨hvalid, hresult⟩ := matchInvoice_none host none hrequest
    rw [hresult] at h
    obtain rfl := Except.ok.inj h
    cases hpass
  | some snapshot =>
    obtain ⟨numeric, hvalid, -, hcomputed, hresult⟩ := matchInvoice_some host none hrequest
    rw [hresult] at h
    obtain rfl := Except.ok.inj h
    have hall : ∀ check ∈ numeric, check.val.status = .match := fun check hcheck =>
      ((Taxonomy.match_pass_iff _).mp hpass).2 _
        (List.mem_append_right _ (List.mem_map_of_mem (f := fun c => c.val.status) hcheck))
    have hnear : ∀ check ∈ numeric, check.val.rule = .equal → check.val.status = .match →
        Gate.Near check := by
      refine forall_of_forall₂ hcomputed fun c hc check hcheck hrule hmatch => ?_
      rw [hcheck.decides.rule] at hrule
      obtain ⟨habsolute, hrelative⟩ := Match.comparisons_equal c hc hrule
      exact hcheck.near hrule habsolute hrelative hmatch
    have hrules : numeric.map (fun check => check.val.rule) =
        (Match.comparisons request.extraction snapshot.val .default).map Match.Comparison.rule :=
      map_of_forall₂ hcomputed fun _ _ hcheck => hcheck.decides.rule
    have hsome : numeric.filter (fun check => check.val.rule = .equal) ≠ [] := by
      have hequal := Match.exists_equal request.extraction snapshot
      rw [← hrules] at hequal
      obtain ⟨check, hcheck, hrule⟩ := List.mem_map.mp hequal
      exact List.ne_nil_of_mem (List.mem_filter.mpr ⟨hcheck, decide_eq_true hrule⟩)
    obtain ⟨δ, hδ, hbounds⟩ := @Gate.roundedLargest_le
      (numeric.filter fun check => check.val.rule = .equal) 0
      (fun check hcheck => by
        obtain ⟨hmem, hrule⟩ := List.mem_filter.mp hcheck
        exact hnear check hmem (of_decide_eq_true hrule) (hall check hmem))
      ⟨le_rfl, by norm_num⟩
    refine ⟨δ, ?_, hbounds⟩
    unfold Gate.roundedDelta
    dsimp only
    rw [if_neg]
    · exact hδ
    · rintro (hfound | hnil)
      · cases hfound
      · exact hsome hnil

/-! ## The smallest confidence -/

namespace Gate

theorem lesser_le (a b : Confidence) :
    (lesser a b).val.value ≤ a.val.value ∧ (lesser a b).val.value ≤ b.val.value := by
  unfold lesser
  split_ifs with hlt
  · exact ⟨hlt.le, le_rfl⟩
  · exact ⟨le_rfl, not_lt.mp hlt⟩

theorem lesser_eq (a b : Confidence) : lesser a b = a ∨ lesser a b = b := by
  unfold lesser
  split_ifs
  · exact .inr rfl
  · exact .inl rfl

/-- The fold finds one of the confidences, and none is smaller. -/
theorem foldl_lesser : ∀ (rest : List Confidence) (first : Confidence),
    rest.foldl lesser first ∈ first :: rest ∧
      ∀ c ∈ first :: rest, (rest.foldl lesser first).val.value ≤ c.val.value
  | [], first => by simp
  | second :: rest, first => by
    obtain ⟨hmem, hle⟩ := foldl_lesser rest (lesser first second)
    obtain ⟨hfirst, hsecond⟩ := lesser_le first second
    rw [List.forall_mem_cons] at hle
    refine ⟨?_, ?_⟩
    · rcases List.mem_cons.mp hmem with heq | hrest
      · rw [List.foldl_cons, heq]
        rcases lesser_eq first second with h | h <;> rw [h] <;> simp
      · exact List.mem_cons_of_mem _ (List.mem_cons_of_mem _ hrest)
    · rw [List.forall_mem_cons, List.forall_mem_cons]
      exact ⟨hle.1.trans hfirst, hle.1.trans hsecond, hle.2⟩

/-- No observed field has a smaller confidence. -/
theorem minimumFieldConfidence_le {extraction : InvoiceExtraction} {c : Confidence}
    (hc : c ∈ extraction.confidences) :
    (minimumFieldConfidence extraction).val.value ≤ c.val.value := by
  unfold minimumFieldConfidence
  cases hlist : extraction.confidences with
  | nil =>
    rw [hlist] at hc
    cases hc
  | cons first rest =>
    rw [hlist] at hc
    exact (foldl_lesser rest first).2 c hc

/-- Some observed field has it, if there is one. -/
theorem exists_minimum {extraction : InvoiceExtraction} (h : extraction.confidences ≠ []) :
    ∃ c ∈ extraction.confidences, (minimumFieldConfidence extraction).val = c.val := by
  unfold minimumFieldConfidence
  cases hlist : extraction.confidences with
  | nil => exact absurd hlist h
  | cons first rest => exact ⟨_, (foldl_lesser rest first).1, rfl⟩

theorem minimumFieldConfidence_grid (extraction : InvoiceExtraction) :
    Grid 6 (minimumFieldConfidence extraction).val.value := by
  by_cases hnil : extraction.confidences = []
  · have hzero : (minimumFieldConfidence extraction).val = .zero := by
      unfold minimumFieldConfidence
      rw [hnil]
      rfl
    rw [hzero, Decimal.value_zero]
    exact ⟨0, by norm_num⟩
  · obtain ⟨c, -, hc⟩ := exists_minimum hnil
    rw [hc]
    exact (Decimal.fits_iff.mp c.property.2).1

end Gate

/-! ## Eligible invoices -/

/-- The floor of the denominator, and the threshold. -/
theorem default_limits :
    CompositeGateConfig.default.val.deltaDenominatorFloor.val.value = 1 ∧
      CompositeGateConfig.default.val.threshold.val.value = 19 / 20 := by
  decide +kernel

/-- The gate with the default configuration. -/
theorem default_gate (host : Host) (request : PolicyRequest host) (policy : PolicyResult) :
    (evaluateCompositeGate defaultAmbient host request policy).map
      CompositeGateResultData.reading = Gate.rounded host request policy .default :=
  evaluateCompositeGate_rounded default_like host request policy none

/-- Thousandths are not rounded. -/
theorem gate_round_thousandth {x : ℚ} (k : ℕ) (hx : x = k / 1000) (hk : k ≤ 1000) :
    gateContext.round x = x := by
  refine gate_round_grid ⟨k * 10 ^ 17, by rw [hx]; push_cast; ring⟩ ?_
  rw [hx, abs_of_nonneg (by positivity), div_le_iff₀ (by norm_num)]
  exact_mod_cast hk.trans (by norm_num)

/-- The best score is one. -/
theorem default_weightsRounded : CompositeGateConfigData.default.weightsRounded = 1 := by
  obtain ⟨hfield, hmatch, hpolicy⟩ := CompositeGateConfigData.default_weights
  rw [CompositeGateConfigData.weightsRounded, hfield, hmatch, hpolicy,
    gate_round_thousandth (x := 1 / 2) 500 (by norm_num) (by norm_num),
    gate_round_thousandth (x := 3 / 10) 300 (by norm_num) (by norm_num),
    gate_round_thousandth (x := 1 / 5) 200 (by norm_num) (by norm_num),
    gate_round_thousandth (x := 1 / 2 + 3 / 10) 800 (by norm_num) (by norm_num),
    gate_round_thousandth (x := 1 / 2 + 3 / 10 + 1 / 5) 1000 (by norm_num) (by norm_num)]
  norm_num

/-- Confidences of 0.906 make up for a gap of a hundredth. -/
theorem roundedScore_limit :
    CompositeGateConfigData.default.roundedScore (906 / 1000) (1 / 100) 1 = 19 / 20 := by
  obtain ⟨hfield, hmatch, hpolicy⟩ := CompositeGateConfigData.default_weights
  rw [CompositeGateConfigData.roundedScore, hfield, hmatch, hpolicy,
    gate_round_thousandth (x := 1 / 2 * (906 / 1000)) 453 (by norm_num) (by norm_num),
    gate_round_thousandth (x := 1 - 1 / 100) 990 (by norm_num) (by norm_num),
    gate_round_thousandth (x := 3 / 10 * (1 - 1 / 100)) 297 (by norm_num) (by norm_num),
    gate_round_thousandth (x := 1 / 2 * (906 / 1000) + 3 / 10 * (1 - 1 / 100)) 750
      (by norm_num) (by norm_num),
    gate_round_thousandth (x := 1 / 5 * 1) 200 (by norm_num) (by norm_num),
    gate_round_thousandth
      (x := 1 / 2 * (906 / 1000) + 3 / 10 * (1 - 1 / 100) + 1 / 5 * 1) 950
      (by norm_num) (by norm_num)]
  norm_num

theorem default_gate_ok {host : Host} {request : PolicyRequest host} {policy : PolicyResult}
    {reading : GateReading} (h : Gate.rounded host request policy .default = .ok reading) :
    ∃ result, evaluateCompositeGate defaultAmbient host request policy = .ok result ∧
      result.reading = reading := by
  have hgate := default_gate host request policy
  rw [h] at hgate
  cases hresult : evaluateCompositeGate defaultAmbient host request policy with
  | error e =>
    rw [hresult] at hgate
    cases hgate
  | ok result =>
    rw [hresult] at hgate
    exact ⟨result, rfl, Except.ok.inj hgate⟩

namespace Gate

theorem term_eligible : (policyTerm .autoApproveEligible).val.value = 1 :=
  Share.value_one

/-- An eligible invoice is approved if its score reaches the threshold. -/
theorem roundedReason_eligible (score : ℚ) :
    (roundedReason .autoApproveEligible CompositeGateConfig.default.val score).route =
      .autoApprove ↔ 19 / 20 ≤ score := by
  have henabled : CompositeGateConfig.default.val.autoApprovalEnabled ≠ false := by decide
  unfold roundedReason
  rw [if_neg (not_not.mpr rfl), if_neg henabled, default_limits.2]
  split_ifs with hbelow
  · exact iff_of_false (by decide) (not_le.mpr hbelow)
  · exact iff_of_true rfl (not_lt.mp hbelow)

/-- What an approval says of the score. -/
theorem score_of_approved {host : Host} {request : PolicyRequest host} {policy : PolicyResult}
    {reading : GateReading} (h : rounded host request policy .default = .ok reading)
    (happroved : reading.route = .autoApprove) :
    (0 ≤ reading.normalizedMatchDelta ∧ reading.normalizedMatchDelta ≤ 1) ∧
      19 / 20 ≤ CompositeGateConfigData.default.roundedScore
        (minimumFieldConfidence request.val.extraction).val.value
        reading.normalizedMatchDelta 1 := by
  unfold rounded at h
  split_ifs at h with hdigest
  cases hdelta : roundedDelta request.val.match
    CompositeGateConfig.default.val.deltaDenominatorFloor.val.value with
  | error e =>
    rw [hdelta] at h
    cases e <;> cases h
  | ok δ =>
    have hshare := roundedDelta_share
      CompositeGateConfig.default.val.deltaDenominatorFloor.property hdelta
    rw [hdelta, computed_ok, ok_bind] at h
    dsimp only at h
    split_ifs at h
    · cases h
    obtain rfl := Except.ok.inj h
    have heligible : policy.val.status = .autoApproveEligible := by
      by_contra hstatus
      dsimp only [roundedReason] at happroved
      rw [if_pos hstatus] at happroved
      cases happroved
    dsimp only at happroved ⊢
    rw [heligible, roundedReason_eligible, term_eligible] at happroved
    exact ⟨hshare, happroved⟩

/-- With the default weights there is a result. -/
theorem rounded_default {host : Host} {request : PolicyRequest host} {policy : PolicyResult}
    {δ : ℚ} (hdigest : policy.val.inputSha256 =
      host.modelDigest (PolicyRequest.codec host) request)
    (hdelta : roundedDelta request.val.match 1 = .ok δ) (hshare : 0 ≤ δ ∧ δ ≤ 1) :
    ∃ reading, rounded host request policy .default = .ok reading ∧
      reading.normalizedMatchDelta = δ ∧
      reading.route = (roundedReason policy.val.status CompositeGateConfig.default.val
        (CompositeGateConfigData.default.roundedScore
          (minimumFieldConfidence request.val.extraction).val.value δ
          (policyTerm policy.val.status).val.value)).route := by
  have hle : ¬1 < CompositeGateConfig.default.val.roundedScore
      (minimumFieldConfidence request.val.extraction).val.value δ
      (policyTerm policy.val.status).val.value := by
    rw [not_lt]
    calc _ ≤ CompositeGateConfigData.default.roundedScore 1 0 1 :=
          CompositeGateConfigData.roundedScore_mono _
            (minimumFieldConfidence request.val.extraction).property.2 hshare.1
            (policyTerm policy.val.status).property.2
      _ = 1 := by rw [CompositeGateConfigData.roundedScore_one, default_weightsRounded]
  unfold rounded
  rw [if_neg (not_not.mpr hdigest), default_limits.1, hdelta, computed_ok, ok_bind]
  dsimp only
  rw [if_neg hle]
  exact ⟨_, rfl, rfl, rfl⟩

/-- An eligible invoice is approved if its score reaches the threshold. -/
theorem rounded_eligible {host : Host} {request : PolicyRequest host} {policy : PolicyResult}
    {δ : ℚ} (hdigest : policy.val.inputSha256 =
      host.modelDigest (PolicyRequest.codec host) request)
    (heligible : policy.val.status = .autoApproveEligible)
    (hdelta : roundedDelta request.val.match 1 = .ok δ) (hshare : 0 ≤ δ ∧ δ ≤ 1) :
    ∃ reading, rounded host request policy .default = .ok reading ∧
      reading.normalizedMatchDelta = δ ∧
      (reading.route = .autoApprove ↔ 19 / 20 ≤ CompositeGateConfigData.default.roundedScore
        (minimumFieldConfidence request.val.extraction).val.value δ 1) := by
  obtain ⟨reading, hreading, hδ, hroute⟩ := rounded_default hdigest hdelta hshare
  refine ⟨reading, hreading, hδ, ?_⟩
  rw [hroute, heligible, term_eligible, roundedReason_eligible]

end Gate

/-- The smallest confidence of an approved invoice is over a line of its gap, up to rounding. -/
theorem floor_of_approved {host : Host} {request : PolicyRequest host} {policy : PolicyResult}
    {result : CompositeGateResultData}
    (h : evaluateCompositeGate defaultAmbient host request policy = .ok result)
    (happroved : result.route = .autoApprove) :
    9 / 10 + 6 / 10 * result.normalizedMatchDelta.val.value - 33 / 10 ^ 29 ≤
      (Gate.minimumFieldConfidence request.val.extraction).val.value := by
  have hrounded := default_gate host request policy
  rw [h] at hrounded
  obtain ⟨hshare, hscore⟩ := Gate.score_of_approved hrounded.symm happroved
  have hnear := CompositeGateConfigData.roundedScore_near
    ⟨(Gate.minimumFieldConfidence request.val.extraction).property,
      Gate.minimumFieldConfidence_grid request.val.extraction⟩ hshare
  have hle := (abs_le.mp hnear).2
  change 9 / 10 + 6 / 10 * result.reading.normalizedMatchDelta - 33 / 10 ^ 29 ≤ _
  linarith

/-- Confidences of 0.906 are enough, whatever gap a match that passes has. -/
theorem approved_of_floor {f δ : ℚ} (hf : 906 / 1000 ≤ f) (hδ : δ ≤ 1 / 100) :
    19 / 20 ≤ CompositeGateConfigData.default.roundedScore f δ 1 := by
  rw [← roundedScore_limit]
  exact CompositeGateConfigData.roundedScore_mono _ hf hδ le_rfl

/-- An eligible request has an amount, so that some field is observed. -/
theorem confidences_ne_nil {rules : PolicyConfig} {request : PolicyRequestData}
    (h : Policy.Eligible rules request) : request.extraction.confidences ≠ [] := by
  obtain ⟨-, -, amount, hamount, -⟩ := h.amount
  obtain ⟨value, hvalue, -⟩ := Option.map_eq_some_iff.mp hamount
  have hmem : request.extraction.totalAmount.confidence ∈ request.extraction.confidences := by
    simp [InvoiceExtraction.confidences, ExtractedField.observed, hvalue]
  exact List.ne_nil_of_mem hmem

theorem policy_digest {host : Host} {request : PolicyRequest host} {config : Option PolicyConfig}
    {policy : PolicyResult} (h : evaluatePolicy host request config = .ok policy) :
    policy.val.inputSha256 = host.modelDigest (PolicyRequest.codec host) request := by
  rw [policy_ok, Except.ok.injEq] at h
  rw [← h]
  rfl

/-- An invoice that is approved by the default gate has every confidence over `0.9 + 0.6 δ`, up to
33 units of the 29th decimal. An eligible one has a gap of at most a hundredth, and is approved if
every confidence is at least 0.906. -/
theorem gate_abstention (host : Host) (request : PolicyRequest host)
    (config : Option PolicyConfig) :
    ∃ policy, evaluatePolicy host request config = .ok policy ∧
      (∀ result, evaluateCompositeGate defaultAmbient host request policy = .ok result →
        result.route = .autoApprove →
        ∀ c ∈ request.val.extraction.confidences,
          9 / 10 + 6 / 10 * result.normalizedMatchDelta.val.value - 33 / 10 ^ 29 ≤ c.val.value) ∧
      ∀ matchRequest, matchInvoice host matchRequest = .ok request.val.match →
        policy.val.status = .autoApproveEligible →
        ∃ result, evaluateCompositeGate defaultAmbient host request policy = .ok result ∧
          result.normalizedMatchDelta.val.value ≤ 1 / 100 ∧
          ((∀ c ∈ request.val.extraction.confidences, 906 / 1000 ≤ c.val.value) →
            result.route = .autoApprove) := by
  have hpolicy := policy_ok host request config
  refine ⟨_, hpolicy, fun result hresult happroved c hc => ?_,
    fun matchRequest hmatch hstatus => ?_⟩
  · exact (floor_of_approved hresult happroved).trans (Gate.minimumFieldConfidence_le hc)
  · have hallowed := (policy_eligible_iff hpolicy).mp hstatus
    obtain ⟨δ, hδ, hnonneg, hle⟩ := delta_of_pass hmatch hallowed.match
    obtain ⟨reading, hreading, hdelta, hroute⟩ := Gate.rounded_eligible (policy_digest hpolicy)
      hstatus hδ ⟨hnonneg, hle.trans (by norm_num)⟩
    obtain ⟨result, hresult, rfl⟩ := default_gate_ok hreading
    refine ⟨result, hresult, hdelta.trans_le hle, fun hall => ?_⟩
    obtain ⟨c, hc, hminimum⟩ := Gate.exists_minimum (confidences_ne_nil hallowed)
    refine hroute.mpr (approved_of_floor ?_ hle)
    rw [hminimum]
    exact hall c hc

/-! ## A gap that is rounded up -/

/-- The order of one piece, at 6000. -/
def costlyOrder : PurchaseOrder :=
  { Match.smallOrder with
    totalAmount := ⟨⟨false, 6000, 0⟩, by decide +kernel⟩
    lines := ⟨[⟨⟨1, Nat.one_pos⟩, ⟨"S-1", Match.sku_text⟩, ⟨"Paper", Match.paper_text⟩,
      ⟨.one, by decide +kernel⟩, ⟨⟨false, 6000, 0⟩, by decide +kernel⟩,
      ⟨⟨false, 6000, 0⟩, by decide +kernel⟩⟩], by decide⟩ }

/-- The order with its vendor and a receipt of its piece. -/
def costlySnapshot : ERPSnapshot :=
  ⟨⟨Match.smallVendor, costlyOrder,
    ⟨[Match.smallReceipt 3 ⟨.one, by decide +kernel⟩], by decide⟩⟩, by decide +kernel⟩

/-- A cent less than what was ordered. -/
def costlyAmount : Amount :=
  ⟨⟨false, 599999, -2⟩, by decide +kernel⟩

/-- The invoice of the order, whose vendor was read with a confidence of 0.900001. -/
def costlyExtraction : InvoiceExtraction :=
  { InvoiceExtraction.unread with
    vendorName := .known ⟨"Vendor", Match.vendor_text⟩ ⟨⟨false, 900001, -6⟩, by decide +kernel⟩
    poNumber := .certain ⟨"P-1", Match.order_text⟩
    currency := .certain .usd
    subtotal := .certain costlyAmount
    totalAmount := .certain costlyAmount
    lineItems := ⟨[{
      description := .certain ⟨"Paper", Match.paper_text⟩
      quantity := .certain ⟨.one, by decide +kernel⟩
      unitPrice := .certain costlyAmount
      taxRate := .unread
      lineTotal := .certain costlyAmount }], by decide⟩ }

/-- The request to match the invoice with its order. -/
def costlyMatchRequest : MatchRequest :=
  { Match.smallRequest with
    extraction := costlyExtraction
    snapshot := some costlySnapshot }

/-- The identity checks of that match. -/
def costlyIdentities : List IdentityCheck :=
  Match.headerIdentities .sample costlyExtraction costlySnapshot.val ++
    costlySnapshot.val.poLines.map (Match.lineIdentity .sample costlyExtraction)

/-- The numeric checks of that match. -/
def costlyChecks : List NumericCheck :=
  (Match.numericChecks costlyExtraction costlySnapshot.val .default).toOption.getD []

section

variable (host : Host) (extraction : InvoiceExtraction) (snapshot : ERPSnapshot)
  (identities : List IdentityCheck) (numeric : List NumericCheck)

/-- The match of a clean request. -/
def cleanMatch : MatchResult :=
  ⟨Match.withSnapshot host extraction snapshot .default identities numeric,
    Match.withSnapshot_valid ..⟩

theorem clean_validation (digest : Sha256) :
    ValidationResultData.Valid ⟨.pass, digest, digest, .default, []⟩ :=
  iff_of_true rfl rfl

/-- A validation that found nothing. -/
def cleanValidation : ValidationResult :=
  let digest := host.modelDigest (InvoiceExtraction.codec host) extraction
  ⟨⟨.pass, digest, digest, .default, []⟩, clean_validation digest⟩

theorem clean_taxonomy (digest validation «match» : Sha256) : TaxonomyResultData.Valid
    ⟨.clean, [], [], [], digest, some digest, some validation, some «match», none, digest,
      .default⟩ :=
  ⟨rfl, rfl⟩

/-- Evidence without a fault but for the checks of the match. -/
def cleanRequestData : PolicyRequestData :=
  let digest := host.modelDigest (InvoiceExtraction.codec host) extraction
  let validation := cleanValidation host extraction
  let result := cleanMatch host extraction snapshot identities numeric
  { runId := 1
    invoiceId := 2
    traceId := Match.smallRequest.traceId
    asOf := 0
    extraction := extraction
    validation := validation
    «match» := result
    taxonomy := ⟨_, clean_taxonomy digest (host.modelDigest ValidationResult.codec validation)
      (host.modelDigest MatchResult.codec result)⟩
    snapshot := some snapshot }

theorem cleanRequest_valid :
    (cleanRequestData host extraction snapshot identities numeric).Valid host where
  validation := rfl
  «match» := rfl
  taxonomy := rfl
  taxonomyValidation := rfl
  taxonomyMatch := rfl
  found := rfl
  snapshot s hs := by
    rw [← Option.some.inj hs]
    rfl
  order s hs := by
    rw [← Option.some.inj hs]
    exact ⟨rfl, rfl⟩

/-- A clean request. -/
def cleanRequest : PolicyRequest host :=
  ⟨cleanRequestData host extraction snapshot identities numeric,
    cleanRequest_valid host extraction snapshot identities numeric⟩

end

/-- The clean request of that match. -/
def costlyRequest : PolicyRequest .sample :=
  cleanRequest .sample costlyExtraction costlySnapshot costlyIdentities costlyChecks

theorem costlyRequest_match :
    matchInvoice .sample costlyMatchRequest = .ok costlyRequest.val.match := by
  obtain ⟨numeric, hvalid, hnumeric, -, hresult⟩ := @matchInvoice_some .sample
    costlyMatchRequest costlySnapshot none rfl
  have hchecks : numeric = costlyChecks := by
    change Match.numericChecks costlyExtraction costlySnapshot.val .default = _ at hnumeric
    rw [costlyChecks, hnumeric]
    rfl
  subst hchecks
  exact hresult

theorem costlyRequest_eligible : Policy.reasons .default costlyRequest.val = [] := by
  decide +kernel

theorem costlyRequest_delta :
    Gate.roundedDelta costlyRequest.val.match 1 =
      .ok (1666666666666666666666666667 / 10 ^ 33) := by
  decide +kernel

theorem costlyRequest_score : 19 / 20 ≤ CompositeGateConfigData.default.roundedScore
    (Gate.minimumFieldConfidence costlyRequest.val.extraction).val.value
    (1666666666666666666666666667 / 10 ^ 33) 1 := by
  decide +kernel

/-- An invoice that is approved with a confidence under `0.9 + 0.6 δ` : its gap is rounded up, and
its score up to the threshold. -/
theorem gate_abstention_rounded : ¬∀ (host : Host) (request : PolicyRequest host)
    (matchRequest : MatchRequest) (policy : PolicyResult) (result : CompositeGateResultData),
    matchInvoice host matchRequest = .ok request.val.match →
    evaluatePolicy host request = .ok policy →
    evaluateCompositeGate defaultAmbient host request policy = .ok result →
    result.route = .autoApprove →
    ∀ c ∈ request.val.extraction.confidences,
      9 / 10 + 6 / 10 * result.normalizedMatchDelta.val.value ≤ c.val.value := by
  intro h
  have hpolicy := policy_ok .sample costlyRequest none
  have heligible := (policy_eligible_iff hpolicy).mpr
    ((Policy.reasons_eq_nil_iff _ _).mp costlyRequest_eligible)
  obtain ⟨reading, hreading, hdelta, hroute⟩ := Gate.rounded_eligible (policy_digest hpolicy)
    heligible costlyRequest_delta (by norm_num)
  obtain ⟨result, hresult, rfl⟩ := default_gate_ok hreading
  have happroved : result.reading.route = .autoApprove := hroute.mpr costlyRequest_score
  have hfloor := h .sample costlyRequest costlyMatchRequest _ result costlyRequest_match
    hpolicy hresult happroved costlyExtraction.vendorName.confidence List.mem_cons_self
  have hvendor : costlyExtraction.vendorName.confidence.val.value = 900001 / 1000000 := by
    decide +kernel
  change result.normalizedMatchDelta.val.value = _ at hdelta
  rw [hdelta, hvendor] at hfloor
  norm_num at hfloor

end InvoiceOps
