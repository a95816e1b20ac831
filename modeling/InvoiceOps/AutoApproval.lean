import InvoiceOps.GateExact
import InvoiceOps.TaxonomyExact

/-!
# Automatic approval

What an automatic approval says of an invoice is spread over five checks. `Payable` says it in one
place, of the invoice, its order and what was received. The policy finds an invoice eligible just
when it is payable, and the gate approves it just when its score reaches the threshold as well
(`auto_approve_exact`).
-/

open Decimal (Ambient)

namespace InvoiceOps

namespace Match

/-! ## Comparisons that hold -/

/-- The texts are the same after normalisation. -/
def SameText (host : Host) (expected : String) (actual : Option String) : Prop :=
  ∃ s ∈ actual, isBlank s = false ∧ host.text expected = host.text s

/-- A tolerance for an expected number : the relative one is rounded as the matcher does. -/
def toleranceOf (absolute : AbsoluteTolerance) (relative : RelativeTolerance) (x : ℚ) : ℚ :=
  max absolute.val.value (exactContext.round (|x| * relative.val.value))

/-- Without a relative tolerance the absolute one is left. -/
theorem toleranceOf_noTolerance (absolute : AbsoluteTolerance) (x : ℚ) :
    toleranceOf absolute noTolerance x = absolute.val.value := by
  rw [toleranceOf, noTolerance_val, Decimal.value_zero, mul_zero, Decimal.Context.round_zero]
  exact max_eq_left absolute.property.1

/-- Both numbers are there, and the second is within the tolerance of the first. -/
def Comparison.Holds (c : Comparison) : Prop :=
  ∃ x ∈ c.expected, ∃ y ∈ c.actual,
    c.rule.Allows (y - x) (toleranceOf c.absolute c.relative x) ∧ 0 ≤ y ∧ (c.positive → 0 < y)

/-- A decided check matches just when its comparison holds. -/
theorem Comparison.Decides.match_iff {c : Comparison} {check : NumericCheck}
    (h : c.Decides check) : check.val.status = .match ↔ c.Holds := by
  unfold Comparison.Holds
  cases hx : c.expected with
  | none =>
    have hunknown := h.unknown.mpr (.inl hx)
    simp [hunknown]
  | some x =>
    cases hy : c.actual with
    | none =>
      have hunknown := h.unknown.mpr (.inr hy)
      simp [hunknown]
    | some y =>
      obtain ⟨size, product, tolerance, hsize, hproduct, -, htolerance, hmatch⟩ :=
        (h.measured x hx y hy).tolerance
      have hround := Decimal.Context.value_of_mul (by decide : 1 ≤ exactContext.prec) hproduct
      rw [hsize] at hround
      rw [hmatch, htolerance, hround]
      simp [toleranceOf]

/-- Two lists whose members correspond. -/
theorem forall_mem_iff {α β : Type} {R : α → β → Prop} {P : α → Prop} {Q : β → Prop}
    (h : ∀ a b, R a b → (Q b ↔ P a)) {as : List α} {bs : List β} (hR : List.Forall₂ R as bs) :
    (∀ b ∈ bs, Q b) ↔ ∀ a ∈ as, P a := by
  induction hR with
  | nil => simp
  | cons hab _ ih => rw [List.forall_mem_cons, List.forall_mem_cons, h _ _ hab, ih]

/-- A match passes just when there is a snapshot and all its comparisons hold. -/
theorem match_pass_iff_holds (host : Host) {request : MatchRequest} {config : MatchConfig}
    {result : MatchResult} (h : matchInvoice host request config = .ok result) :
    result.val.status = .pass ↔ ∃ s ∈ request.snapshot,
      (∀ c ∈ identityComparisons request.extraction s.val,
        SameText host c.expected c.actual) ∧
      ∀ c ∈ comparisons request.extraction s.val config, c.Holds := by
  cases hrequest : request.snapshot with
  | none =>
    obtain ⟨hvalid, hresult⟩ := matchInvoice_none host config hrequest
    obtain rfl := Except.ok.inj (hresult.symm.trans h)
    simp [withoutSnapshot]
  | some snapshot =>
    obtain ⟨numeric, hvalid, -, hcomputed, hresult⟩ := matchInvoice_some host config hrequest
    obtain rfl := Except.ok.inj (hresult.symm.trans h)
    have hidentities := forall_mem_iff (R := IdentityComparison.Decides host)
      (fun _ _ hd => hd.match) (identities_decide host request.extraction snapshot.property)
    have hnumbers := forall_mem_iff (R := Comparison.Computed)
      (fun _ _ hd => hd.decides.match_iff) hcomputed
    obtain ⟨-, -, hpass⟩ := status_withSnapshot host request.extraction snapshot config
      (headerIdentities host request.extraction snapshot.val ++
        snapshot.val.poLines.map (lineIdentity host request.extraction)) numeric
    refine hpass.trans ?_
    rw [MatchResultData.statuses, List.forall_mem_append, List.forall_mem_map,
      List.forall_mem_map]
    simp only [Option.mem_def, Option.some.injEq, exists_eq_left']
    exact and_congr hidentities hnumbers

/-! ## Orders that are paid -/

section

variable (host : Host) (policy : MatchConfig) (snapshot : ERPSnapshotData)

/-- What an invoice line says of the line of the order that it pays. -/
structure LinePaid (line : PurchaseOrderLine) (invoiceLine : InvoiceLineItem) : Prop where
  description : SameText host line.description.val (text? invoiceLine.description)
  unitPrice : ∃ p ∈ Control.number? invoiceLine.unitPrice, 0 ≤ p ∧
    |p - line.unitPrice.val.value| ≤ toleranceOf policy.priceAbsoluteTolerance
      policy.priceRelativeTolerance line.unitPrice.val.value
  quantity : ∃ q ∈ Control.number? invoiceLine.quantity, 0 < q ∧
    q - line.quantity.val.value ≤ policy.quantityAbsoluteTolerance.val.value ∧
    q - receivedOf snapshot line.lineNumber ≤ policy.quantityAbsoluteTolerance.val.value ∧
    ∃ n ∈ Control.number? invoiceLine.lineTotal, 0 ≤ n ∧
      |n - q * line.unitPrice.val.value| ≤ toleranceOf policy.lineTotalAbsoluteTolerance
        policy.lineTotalRelativeTolerance (q * line.unitPrice.val.value)
  receipts : receivedOf snapshot line.lineNumber - line.quantity.val.value ≤
    policy.quantityAbsoluteTolerance.val.value

/-- What an invoice says of the order that it pays. The lines are in the order's order. -/
structure OrderPaid (extraction : InvoiceExtraction) : Prop where
  poNumber : SameText host snapshot.purchaseOrder.poNumber.val (text? extraction.poNumber)
  vendorName : SameText host snapshot.vendor.name.val (text? extraction.vendorName)
  currency : SameText host snapshot.purchaseOrder.currency.text (text? extraction.currency)
  lines : List.Forall₂ (LinePaid host policy snapshot) snapshot.poLines extraction.lineItems.val
  subtotal : ∃ s ∈ Control.number? extraction.subtotal, 0 ≤ s ∧
    s - snapshot.purchaseOrder.totalAmount.val.value ≤ toleranceOf policy.amountAbsoluteTolerance
      policy.amountRelativeTolerance snapshot.purchaseOrder.totalAmount.val.value ∧
    s - receivedValueOf snapshot ≤ toleranceOf policy.amountAbsoluteTolerance
      policy.amountRelativeTolerance (receivedValueOf snapshot)
  receipts : receivedValueOf snapshot - snapshot.purchaseOrder.totalAmount.val.value ≤
    toleranceOf policy.amountAbsoluteTolerance policy.amountRelativeTolerance
      snapshot.purchaseOrder.totalAmount.val.value

end

section

variable {host : Host} {policy : MatchConfig} {snapshot : ERPSnapshotData}

/-- What was received is not negative. -/
theorem receivedOf_nonneg (number : LineNumber) : 0 ≤ receivedOf snapshot number :=
  sumOf_nonneg _ number

/-- Nor is its value. -/
theorem receivedValueOf_nonneg : 0 ≤ receivedValueOf snapshot := by
  refine List.sum_nonneg fun x hx => ?_
  obtain ⟨line, -, rfl⟩ := List.mem_map.mp hx
  exact mul_nonneg (receivedOf_nonneg _) line.unitPrice.property.1

/-- The comparisons of a line hold just when the line is paid. -/
theorem lineComparisons_iff {line : PurchaseOrderLine} {invoiceLine : InvoiceLineItem} :
    SameText host line.description.val (text? invoiceLine.description) ∧
      (∀ c ∈ lineComparisons snapshot policy line (some invoiceLine), c.Holds) ↔
      LinePaid host policy snapshot line invoiceLine := by
  simp only [lineComparisons, List.forall_mem_cons, List.not_mem_nil, false_imp_iff,
    implies_true, and_true, Comparison.Holds, MatchRule.Allows, toleranceOf_noTolerance,
    Option.bind_some, Option.mem_def, Option.some.injEq, exists_eq_left', Option.map_eq_some_iff]
  constructor
  · rintro ⟨hdescription, ⟨p, hp, hprice, hp0, -⟩, ⟨q, hq, hordered, -, hq0⟩,
      ⟨q₂, hq₂, hreceived, -, -⟩, ⟨hreceipts, -, -⟩, _, ⟨q₃, hq₃, rfl⟩, n, hn, htotal, hn0, -⟩
    obtain rfl := Option.some.inj (hq.symm.trans hq₂)
    obtain rfl := Option.some.inj (hq.symm.trans hq₃)
    exact ⟨hdescription, ⟨p, hp, hp0, hprice⟩,
      ⟨q, hq, hq0 trivial, hordered, hreceived, n, hn, hn0, htotal⟩, hreceipts⟩
  · intro h
    obtain ⟨p, hp, hp0, hprice⟩ := h.unitPrice
    obtain ⟨q, hq, hq0, hordered, hreceived, n, hn, hn0, htotal⟩ := h.quantity
    exact ⟨h.description, ⟨p, hp, hprice, hp0, by simp⟩, ⟨q, hq, hordered, hq0.le, fun _ => hq0⟩,
      ⟨q, hq, hreceived, hq0.le, fun _ => hq0⟩, ⟨h.receipts, receivedOf_nonneg _, by simp⟩,
      _, ⟨q, hq, rfl⟩, n, hn, htotal, hn0, by simp⟩

/-- What holds of every member of a list and what is at its position in another one. -/
theorem forall_zipIdx_iff {α β : Type} {P : α → Option β → Prop} {as : List α} {bs : List β}
    (h : as.length = bs.length) : (∀ c ∈ as.zipIdx, P c.1 bs[c.2]?) ↔
      List.Forall₂ (fun a b => P a (some b)) as bs := by
  rw [List.forall₂_iff_get]
  constructor
  · refine fun hall => ⟨h, fun i h₁ h₂ => ?_⟩
    have hi := hall (as.get ⟨i, h₁⟩, i) (List.mem_zipIdx_iff_getElem?.mpr (by simp [h₁]))
    rwa [List.getElem?_eq_getElem h₂] at hi
  · rintro ⟨-, hget⟩ ⟨a, i⟩ hmem
    obtain ⟨h₁, ha⟩ := List.getElem?_eq_some_iff.mp (List.mem_zipIdx_iff_getElem?.mp hmem)
    have h₂ : i < bs.length := h ▸ h₁
    dsimp only at h₁ ha ⊢
    rw [List.getElem?_eq_getElem h₂, ← ha]
    exact hget i h₁ h₂

/-- The comparisons of a request hold just when the order is paid. -/
theorem orderPaid_iff {extraction : InvoiceExtraction} :
    ((∀ c ∈ identityComparisons extraction snapshot, SameText host c.expected c.actual) ∧
      ∀ c ∈ comparisons extraction snapshot policy, c.Holds) ↔
      OrderPaid host policy snapshot extraction := by
  have hlineCount : SameText host (toString snapshot.poLines.length)
      (some (toString extraction.lineItems.val.length)) ↔
        snapshot.poLines.length = extraction.lineItems.val.length := by
    unfold SameText
    constructor
    · rintro ⟨s, ⟨⟩, -, heq⟩
      exact text_injective host heq
    · intro heq
      exact ⟨_, rfl, notBlank_toString _, by rw [heq]⟩
  have hlines (hlength : snapshot.poLines.length = extraction.lineItems.val.length) :
      ((∀ c ∈ snapshot.poLines.zipIdx, SameText host c.1.description.val
          (extraction.lineItems.val[c.2]?.bind fun l => text? l.description)) ∧
        ∀ c ∈ snapshot.poLines.zipIdx, ∀ comparison ∈
          lineComparisons snapshot policy c.1 extraction.lineItems.val[c.2]?,
          comparison.Holds) ↔
      List.Forall₂ (LinePaid host policy snapshot) snapshot.poLines extraction.lineItems.val := by
    rw [← forall₂_and, forall_zipIdx_iff (P := fun line invoiceLine =>
      SameText host line.description.val (invoiceLine.bind fun l => text? l.description) ∧
        ∀ comparison ∈ lineComparisons snapshot policy line invoiceLine, comparison.Holds) hlength]
    simp only [Option.bind_some, lineComparisons_iff]
  simp only [identityComparisons, comparisons, headerComparisons, List.forall_mem_append,
    List.forall_mem_cons, List.not_mem_nil, false_imp_iff, implies_true, and_true,
    List.forall_mem_map, List.forall_mem_flatMap, Comparison.Holds, MatchRule.Allows,
    Option.mem_def, Option.some.injEq, exists_eq_left', hlineCount]
  constructor
  · rintro ⟨⟨⟨hnumber, hvendor, hcurrency, hlength⟩, htexts⟩,
      ⟨⟨s, hs, hordered, hs0, -⟩, ⟨s', hs', hreceived, -⟩, hreceipts, -⟩, hnumbers⟩
    obtain rfl := Option.some.inj (hs.symm.trans hs')
    exact ⟨hnumber, hvendor, hcurrency, (hlines hlength).mp ⟨htexts, hnumbers⟩,
      ⟨s, hs, hs0, hordered, hreceived⟩, hreceipts⟩
  · intro h
    have hlength := h.lines.length_eq
    obtain ⟨htexts, hnumbers⟩ := (hlines hlength).mpr h.lines
    obtain ⟨s, hs, hs0, hordered, hreceived⟩ := h.subtotal
    exact ⟨⟨⟨h.poNumber, h.vendorName, h.currency, hlength⟩, htexts⟩,
      ⟨⟨s, hs, hordered, hs0, by simp⟩, ⟨s, hs, hreceived, hs0, by simp⟩, h.receipts,
        receivedValueOf_nonneg, by simp⟩, hnumbers⟩

end

end Match

/-! ## Payable invoices -/

namespace LiveServices

section

variable (host : Host) (configs : NodeConfigs) (run : RunInput)

/-- An order that the invoice of a run can be paid against. -/
structure PaidOrder (s : ERPSnapshot) : Prop where
  paid : Match.OrderPaid host configs.matching s.val run.extraction
  status : s.val.purchaseOrder.status = .open ∨
    s.val.purchaseOrder.status = .partiallyReceived
  age : 0 ≤ orderAge s run.asOf ∧ orderAge s run.asOf ≤ configs.policy.maxPoAgeDays.val
  bank : ∃ observed ∈ Match.text? run.extraction.bankAccountIban,
    ∃ vendor ∈ s.val.vendor.bankAccountIban, Taxonomy.Nonblank host observed ∧
      Taxonomy.Nonblank host vendor.val ∧
      Taxonomy.iban host observed = Taxonomy.iban host vendor.val

/-- An invoice that can be paid without a review. -/
structure Payable : Prop where
  nearDuplicate : run.nearDuplicate = false
  accepted : ∃ rule ∈ configs.validation.currencies.val, Accepted run.extraction rule
  order : ∃ s ∈ run.snapshot, PaidOrder host configs run s
  limit : ∃ band ∈ configs.policy.bands.val,
    Match.text? run.extraction.currency = some band.val.currency.val ∧
      ∃ amount ∈ Control.number? run.extraction.totalAmount,
        amount ≤ band.val.autoApproveLimit.val.value

end

section

variable {host : Host} {configs : NodeConfigs} {run : RunInput} {evidence : Evidence}

/-- Validation passes just when the extraction is accepted under a configured rule. -/
theorem validation_pass_iff (h : Ran host configs run evidence) :
    evidence.validation.val.status = .pass ↔
      ∃ rule ∈ configs.validation.currencies.val, Accepted run.extraction rule := by
  obtain ⟨result, hresult, -, hfound⟩ :=
    validateInvoice_ok host run.extraction configs.validation
  obtain rfl := Except.ok.inj (hresult.symm.trans h.validation)
  rw [← Control.findings_eq_nil, ← hfound, List.map_eq_nil_iff]
  exact evidence.validation.property

/-- Matching passes just when there is an order, and the invoice pays it. -/
theorem match_pass_iff_paid (h : Ran host configs run evidence) :
    evidence.match.val.status = .pass ↔
      ∃ s ∈ run.snapshot, Match.OrderPaid host configs.matching s.val run.extraction := by
  rw [Match.match_pass_iff_holds host h.match]
  exact exists_congr fun s => and_congr_right fun _ => Match.orderPaid_iff

/-- The IBAN that the taxonomy is given is that of the order's vendor. -/
theorem vendorBankIban_iff {s : ERPSnapshot} (hs : run.snapshot = some s) {p : String → Prop} :
    (∃ vendor ∈ vendorBankIban run.snapshot, p vendor.val) ↔
      ∃ vendor ∈ s.val.vendor.bankAccountIban, p vendor.val := by
  rw [vendorBankIban, hs, Option.bind_some]
  cases s.val.vendor.bankAccountIban <;> simp

/-- The policy finds just the payable invoices eligible. -/
theorem eligible_iff_payable (h : Ran host configs run evidence) :
    evidence.policy.val.status = .autoApproveEligible ↔ Payable host configs run := by
  obtain ⟨hvalid, hpolicy⟩ := h.policy
  obtain ⟨_, hclassify⟩ := h.taxonomy
  obtain ⟨ns, old, hclassified⟩ := Taxonomy.classified hclassify
  have hclean := @Taxonomy.Classified.clean_iff _ _ _ _ _ hclassified evidence.taxonomy.property
    run.extraction rfl
  rw [policy_eligible_iff hpolicy]
  constructor
  · intro he
    have hc := hclean.mp he.taxonomy
    obtain ⟨s, hs, hpaid⟩ := (match_pass_iff_paid h).mp he.match
    obtain ⟨band, ⟨hband, hcurrency⟩, amount, hamount, -, hle⟩ := he.amount
    obtain ⟨hclosed, hcancelled, hage⟩ := he.order s hs
    refine ⟨hc.nearDuplicate, (validation_pass_iff h).mp he.validation,
      ⟨s, hs, hpaid, ?_, hage, ?_⟩,
      ⟨band, hband, hcurrency, amount.value, ?_, hle⟩⟩
    · cases hstatus : s.val.purchaseOrder.status with
      | «open» => exact .inl rfl
      | partiallyReceived => exact .inr rfl
      | closed => exact absurd hstatus hclosed
      | cancelled => exact absurd hstatus hcancelled
    · obtain ⟨observed, hobserved, hvendor⟩ := hc.bank
      exact ⟨observed, hobserved, (vendorBankIban_iff (p := fun vendor =>
        Taxonomy.Nonblank host observed ∧ Taxonomy.Nonblank host vendor ∧
          Taxonomy.iban host observed = Taxonomy.iban host vendor) hs).mp hvendor⟩
    · obtain ⟨d, hd, rfl⟩ := Option.map_eq_some_iff.mp hamount
      exact Option.map_eq_some_iff.mpr ⟨d, hd, rfl⟩
  · intro hp
    obtain ⟨s, hs, hpaid, hstatus, hage, observed, hobserved, hvendor⟩ := hp.order
    obtain ⟨band, hband, hcurrency, _, hamount, hle⟩ := hp.limit
    have hmatch := (match_pass_iff_paid h).mpr ⟨s, hs, hpaid⟩
    have hvalidation := (validation_pass_iff h).mpr hp.accepted
    have hfresh : poAgeExceeded run.snapshot run.asOf configs.policy.maxPoAgeDays.val = false := by
      rw [hs, poAgeExceeded]
      exact decide_eq_false (not_lt.mpr hage.2)
    have hnonneg : 0 ≤ run.extraction.totalAmount.amount := by
      obtain ⟨rule, -, haccepted⟩ := hp.accepted
      obtain ⟨a, ha, hnonneg⟩ := haccepted.totalAmount
      rwa [ExtractedField.amount, ha, Option.getD_some]
    obtain ⟨hpoStatus, -⟩ := hvalid.order s hs
    have hstatusText : evidence.match.val.poStatus ≠ some "CLOSED" ∧
        evidence.match.val.poStatus ≠ some "CANCELLED" := by
      change evidence.match.val.poStatus = _ at hpoStatus
      rw [hpoStatus]
      rcases hstatus with hstatus | hstatus <;> rw [hstatus] <;> decide
    have hclear : s.val.purchaseOrder.status ≠ .closed ∧
        s.val.purchaseOrder.status ≠ .cancelled := by
      rcases hstatus with hstatus | hstatus <;> rw [hstatus] <;> decide
    refine ⟨hclean.mpr ⟨rfl, hp.nearDuplicate, hfresh, ⟨_, rfl, hmatch, hstatusText⟩,
      ⟨_, rfl, hvalidation⟩, observed, hobserved, ?_⟩, hvalidation, hmatch, ?_, ?_⟩
    · exact (vendorBankIban_iff (p := fun vendor =>
        Taxonomy.Nonblank host observed ∧ Taxonomy.Nonblank host vendor ∧
          Taxonomy.iban host observed = Taxonomy.iban host vendor) hs).mpr hvendor
    · obtain ⟨d, hd, rfl⟩ := Option.map_eq_some_iff.mp hamount
      refine ⟨band, ⟨hband, hcurrency⟩, d.val, Option.map_eq_some_iff.mpr ⟨d, hd, rfl⟩, ?_, hle⟩
      rwa [ExtractedField.amount, hamount, Option.getD_some] at hnonneg
    · intro t ht
      obtain rfl := Option.some.inj (hs.symm.trans ht)
      exact ⟨hclear.1, hclear.2, hage⟩

end

/-! ## The gate of a run -/

/-- `LiveInvoiceServices.gate`, where what it reads was written to the state and read back `n`
times. -/
def gate (amb : Ambient) (host : Host) (run : RunInput) (rules : CompositeGateConfig) (n : ℕ)
    (evidence : Evidence) : Except Exn CompositeGateResultData := do
  let request ← construct "PolicyRequest" (PolicyRequestData.Valid host)
    (policyRequestData run evidence.validation evidence.match evidence.taxonomy)
  evaluateCompositeGate amb host ((PolicyRequest.codec host).canon^[n] request)
    ((PolicyResult.codec host).canon^[n] evidence.policy) rules

/-- The gate approves what is eligible and reaches the threshold, if it is enabled. -/
theorem approve_iff {amb : Ambient} {host : Host} {request : PolicyRequest host}
    {policy : PolicyResult} {rules : CompositeGateConfig} {result : CompositeGateResultData}
    (h : evaluateCompositeGate amb host request policy rules = .ok result) :
    result.route = .autoApprove ↔ policy.val.status = .autoApproveEligible ∧
      rules.val.autoApprovalEnabled = true ∧
      rules.val.threshold.val.value ≤ result.score.val.value := by
  unfold evaluateCompositeGate gateRules at h
  rw [ok_bind] at h
  split_ifs at h
  obtain ⟨delta, -, h⟩ := bind_eq_ok.mp h
  obtain ⟨score, -, h⟩ := bind_eq_ok.mp h
  obtain ⟨reason, hreason, h⟩ := bind_eq_ok.mp h
  obtain ⟨scoreShare, hscore, h⟩ := bind_eq_ok.mp h
  obtain ⟨deltaShare, -, h⟩ := bind_eq_ok.mp h
  obtain ⟨-, -, h⟩ := bind_eq_ok.mp h
  obtain rfl := Except.ok.inj h
  cases score with
  | infinite _ | nan => cases hscore
  | finite d =>
    unfold Gate.share construct at hscore
    dsimp only at hscore
    split_ifs at hscore with hd
    obtain rfl := Except.ok.inj hscore
    rw [reason_rounded, computed_ok] at hreason
    obtain rfl := Except.ok.inj hreason
    dsimp only [Gate.result]
    unfold Gate.roundedReason
    split_ifs with hstatus henabled hbelow
    · simp [GateReason.route, hstatus]
    · simp [GateReason.route, henabled]
    · simp [GateReason.route, not_le.mpr hbelow]
    · simpa [GateReason.route, not_not.mp hstatus, not_lt.mp hbelow] using henabled

/-- A status is what it was, however often it is read back. -/
theorem status_reread {host : Host} (policy : PolicyResult) (n : ℕ) :
    ((PolicyResult.codec host).canon^[n] policy).val.status = policy.val.status := by
  induction n with
  | zero => rfl
  | succ n ih =>
    rw [Function.iterate_succ_apply']
    exact ih

end LiveServices

/-- The checks of a run always have their results, and the policy finds just the payable invoices
eligible. Whenever the gate has a result, in any decimal context and however often the evidence was
written and read back, it approves just the payable invoices whose score reaches the threshold. -/
theorem auto_approve_exact (host : Host) (configs : NodeConfigs) (run : RunInput) :
    ∃ evidence, LiveServices.evaluate host configs run = .ok evidence ∧
      (evidence.policy.val.status = .autoApproveEligible ↔
        LiveServices.Payable host configs run) ∧
      ∀ amb rules n result, LiveServices.gate amb host run rules n evidence = .ok result →
        (result.route = .autoApprove ↔ LiveServices.Payable host configs run ∧
          rules.val.autoApprovalEnabled = true ∧
          rules.val.threshold.val.value ≤ result.score.val.value) := by
  obtain ⟨evidence, hevidence, hran, -⟩ := LiveServices.evaluate_ok host configs run
  have heligible := LiveServices.eligible_iff_payable hran
  refine ⟨evidence, hevidence, heligible, fun amb rules n result hresult => ?_⟩
  unfold LiveServices.gate at hresult
  obtain ⟨request, -, hgate⟩ := bind_eq_ok.mp hresult
  rw [LiveServices.approve_iff hgate, LiveServices.status_reread, heligible]

end InvoiceOps
