import InvoiceOps.Provenance

/-!
# What the policy decides

Each reason of the policy stands for one condition on its request. `Policy.Blocked` and
`Policy.Eligible` say what the three blocking reasons, and no reason at all, come to
(`evaluate_policy_exact`). `InTier` is the table of the approval tiers, and an amount is in one of
them (`hasTier_iff`).
-/

namespace InvoiceOps

/-! ## Tiers -/

/-- The tiers of a band, with inclusive upper bounds. -/
def InTier (band : SpendBandData) (amount : ℚ) : ApprovalTier → Prop
  | .none => 0 ≤ amount ∧ amount ≤ band.autoApproveLimit.val.value
  | .apManager => band.autoApproveLimit.val.value < amount ∧ amount ≤ band.managerLimit.val.value
  | .procurementDirector =>
    band.managerLimit.val.value < amount ∧ amount ≤ band.directorLimit.val.value
  | .dualControl => band.directorLimit.val.value < amount
  | .unknown => amount < 0

/-- The tier of an amount, which is unknown without an amount or a band. -/
def HasTier (amount : Option Decimal) (band : Option SpendBand) (tier : ApprovalTier) : Prop :=
  match amount, band with
  | some amount, some band => InTier band.val amount.value tier
  | _, _ => tier = .unknown

/-- The limits ascend, so that the tiers do not overlap. -/
theorem InTier.unique {band : SpendBandData} (h : band.Valid) {amount : ℚ} {s t : ApprovalTier}
    (hs : InTier band amount s) (ht : InTier band amount t) : s = t := by
  have hauto := band.autoApproveLimit.property
  obtain ⟨hmanager, hdirector, -⟩ := h
  cases s <;> cases t <;> dsimp only [InTier] at hs ht <;> first
    | rfl
    | exfalso; linarith only [hauto, hmanager, hdirector, hs, ht]

theorem inTier_approvalTier (amount : Decimal) (band : SpendBand) :
    InTier band.val amount.value (approvalTier (some amount) (some band)) := by
  unfold approvalTier
  dsimp only
  split_ifs with hneg hauto hmanager hdirector
  · exact hneg
  · exact ⟨not_lt.mp hneg, hauto⟩
  · exact ⟨not_le.mp hauto, hmanager⟩
  · exact ⟨not_le.mp hmanager, hdirector⟩
  · exact not_le.mp hdirector

theorem hasTier_iff (amount : Option Decimal) (band : Option SpendBand) (tier : ApprovalTier) :
    HasTier amount band tier ↔ approvalTier amount band = tier := by
  unfold HasTier
  cases amount with
  | none => exact eq_comm
  | some amount =>
    cases band with
    | none => exact eq_comm
    | some band =>
      have htier := inTier_approvalTier amount band
      refine ⟨fun h => htier.unique band.property h, fun h => ?_⟩
      rw [← h]
      exact htier

/-! ## Reasons -/

namespace Policy

/-- A band of the currency. -/
def HasBand (rules : PolicyConfig) (currency : Option String) (band : SpendBand) : Prop :=
  band ∈ rules.bands.val ∧ currency = some band.val.currency.val

/-- No two bands have the currency. -/
theorem band?_eq_some {rules : PolicyConfig} {currency : Option String} {band : SpendBand} :
    band? rules currency = some band ↔ HasBand rules currency band := by
  refine ⟨fun h => ⟨List.mem_of_find?_eq_some h, band?_currency h⟩, fun ⟨hmem, hcurrency⟩ => ?_⟩
  have hsome : (band? rules currency).isSome := List.find?_isSome.mpr
    ⟨band, hmem, decide_eq_true hcurrency.symm⟩
  obtain ⟨other, hother⟩ := Option.isSome_iff_exists.mp hsome
  have heq : other.val.currency = band.val.currency :=
    Subtype.ext (Option.some.inj ((band?_currency hother).symm.trans hcurrency))
  rw [hother, List.inj_on_of_nodup_map rules.bands.property.2 (List.mem_of_find?_eq_some hother)
    hmem heq]

/-- What blocks a request. -/
def Blocked (rules : PolicyConfig) (request : PolicyRequestData) : Prop :=
  .dupExact ∈ request.taxonomy.val.codes ∨
  (∃ s ∈ request.snapshot, s.val.purchaseOrder.status = .cancelled) ∨
  ∃ band, HasBand rules (Match.text? request.extraction.currency) band ∧
    ∃ amount ∈ decimal? request.extraction.totalAmount,
      band.val.hardSpendLimit.val.value < amount.value

/-- What makes a request eligible. -/
structure Eligible (rules : PolicyConfig) (request : PolicyRequestData) : Prop where
  taxonomy : request.taxonomy.val.status = .clean
  validation : request.validation.val.status = .pass
  «match» : request.match.val.status = .pass
  amount : ∃ band, HasBand rules (Match.text? request.extraction.currency) band ∧
    ∃ amount ∈ decimal? request.extraction.totalAmount,
      0 ≤ amount.value ∧ amount.value ≤ band.val.autoApproveLimit.val.value
  order : ∀ s ∈ request.snapshot,
    s.val.purchaseOrder.status ≠ .closed ∧ s.val.purchaseOrder.status ≠ .cancelled ∧
      0 ≤ orderAge s request.asOf ∧ orderAge s request.asOf ≤ rules.maxPoAgeDays.val

theorem mem_reasonIf {p : Prop} [Decidable p] {r reason : PolicyReason} :
    r ∈ reasonIf p reason ↔ p ∧ r = reason := by
  unfold reasonIf
  split_ifs with h <;> simp [h]

theorem cancelled_iff (rules : PolicyConfig) (asOf : Date) (snapshot : Option ERPSnapshot) :
    .cancelledPo ∈ orderReasons rules asOf snapshot ↔
      ∃ s ∈ snapshot, s.val.purchaseOrder.status = .cancelled := by
  cases snapshot with
  | none => simp [orderReasons]
  | some s =>
    unfold orderReasons
    dsimp only
    split_ifs with hcancelled hfuture hfuture <;> simp [mem_reasonIf, hcancelled]

theorem spendCap_iff (amount : Option Decimal) (band : Option SpendBand) :
    .spendCapExceeded ∈ amountReasons amount band ↔
      ∃ b ∈ band, ∃ a ∈ amount, b.val.hardSpendLimit.val.value < a.value := by
  unfold amountReasons
  cases amount with
  | none => simp [mem_reasonIf]
  | some a =>
    dsimp only
    split_ifs with hneg
    · refine iff_of_false (by simp [mem_reasonIf]) ?_
      rintro ⟨b, -, _, ⟨⟩, hlt⟩
      exact absurd (b.val.hardSpendLimit.property.trans (hlt.trans hneg)) (lt_irrefl _)
    · simp [mem_reasonIf]

/-- The reasons of an order are none of those of an amount, and of none but itself. -/
theorem mem_reasons {rules : PolicyConfig} {request : PolicyRequestData} {r : PolicyReason}
    (h : r ∈ blocking) : r ∈ reasons rules request ↔
      (.dupExact ∈ request.taxonomy.val.codes ∧ r = .exactDuplicate) ∨
      r ∈ orderReasons rules request.asOf request.snapshot ∨
      r ∈ amountReasons (decimal? request.extraction.totalAmount)
        (band? rules (Match.text? request.extraction.currency)) := by
  have hnot : r ≠ .exceptionPresent ∧ r ≠ .unresolvedEvidence ∧ r ≠ .validationFailed ∧
      r ≠ .matchNotPassed := by
    refine ⟨?_, ?_, ?_, ?_⟩ <;> rintro rfl <;> exact absurd h (by decide)
  unfold reasons
  simp only [List.mem_append, mem_reasonIf, hnot.1, hnot.2.1, hnot.2.2.1, hnot.2.2.2, and_false,
    or_false, or_assoc]

theorem blocked_iff (rules : PolicyConfig) (request : PolicyRequestData) :
    (∃ r ∈ reasons rules request, r ∈ blocking) ↔ Blocked rules request := by
  have hamount := spendCap_iff (decimal? request.extraction.totalAmount)
    (band? rules (Match.text? request.extraction.currency))
  have horder := cancelled_iff rules request.asOf request.snapshot
  have hband : (∃ b ∈ band? rules (Match.text? request.extraction.currency),
      ∃ a ∈ decimal? request.extraction.totalAmount,
        b.val.hardSpendLimit.val.value < a.value) ↔
      ∃ b, HasBand rules (Match.text? request.extraction.currency) b ∧
        ∃ a ∈ decimal? request.extraction.totalAmount,
          b.val.hardSpendLimit.val.value < a.value :=
    exists_congr fun b => and_congr_left' band?_eq_some
  unfold Blocked
  rw [← hband, ← hamount, ← horder]
  constructor
  · rintro ⟨r, hr, hblocking⟩
    rcases (mem_reasons hblocking).mp hr with ⟨hdup, -⟩ | h | h
    · exact .inl hdup
    · have hblocks : ∀ r ∈ [PolicyReason.cancelledPo, .closedPo] ++
          [PolicyReason.futurePo, .stalePo], r ∈ blocking → r = .cancelledPo := by decide
      obtain rfl := hblocks r ((orderReasons_sublist _ _ _).subset h) hblocking
      exact .inr (.inl h)
    · have hblocks : ∀ r ∈ [PolicyReason.unsupportedCurrency] ++
          [PolicyReason.unknownAmount, .invalidAmount, .spendCapExceeded, .approvalRequired],
          r ∈ blocking → r = .spendCapExceeded := by decide
      obtain rfl := hblocks r ((amountReasons_sublist _ _).subset h) hblocking
      exact .inr (.inr h)
  · rintro (hdup | h | h)
    · exact ⟨.exactDuplicate, (mem_reasons (by decide)).mpr (.inl ⟨hdup, rfl⟩), by decide⟩
    · exact ⟨.cancelledPo, (mem_reasons (by decide)).mpr (.inr (.inl h)), by decide⟩
    · exact ⟨.spendCapExceeded, (mem_reasons (by decide)).mpr (.inr (.inr h)), by decide⟩

theorem orderReasons_eq_nil {rules : PolicyConfig} {asOf : Date}
    {snapshot : Option ERPSnapshot} : orderReasons rules asOf snapshot = [] ↔
      ∀ s ∈ snapshot, s.val.purchaseOrder.status ≠ .closed ∧
        s.val.purchaseOrder.status ≠ .cancelled ∧ 0 ≤ orderAge s asOf ∧
        orderAge s asOf ≤ rules.maxPoAgeDays.val := by
  cases snapshot with
  | none => simp [orderReasons]
  | some s =>
    have hmem : ∀ {p : ERPSnapshot → Prop}, (∀ t ∈ some s, p t) ↔ p s := by simp
    rw [hmem]
    unfold orderReasons
    dsimp only
    split_ifs with hcancelled hfuture hfuture
    · simp [hcancelled]
    · simp [hcancelled]
    · simp [hfuture]
    · simp only [List.append_eq_nil_iff, reasonIf_eq_nil, poAgeExceeded, decide_eq_true_eq,
        not_lt, hcancelled, not_lt.mp hfuture, not_false_eq_true, ne_eq, true_and]

theorem amountReasons_eq_nil_iff {amount : Option Decimal} {band : Option SpendBand} :
    amountReasons amount band = [] ↔ ∃ b ∈ band, ∃ a ∈ amount,
      0 ≤ a.value ∧ a.value ≤ b.val.autoApproveLimit.val.value := by
  constructor
  · intro h
    obtain ⟨a, b, rfl, rfl, -, -, htier⟩ := amountReasons_eq_nil h
    have hin := inTier_approvalTier a b
    rw [htier] at hin
    exact ⟨b, rfl, a, rfl, hin⟩
  · rintro ⟨b, ⟨⟩, a, ⟨⟩, hnonneg, hauto⟩
    have htier : approvalTier (some a) (some b) = .none :=
      (hasTier_iff (some a) (some b) .none).mp ⟨hnonneg, hauto⟩
    obtain ⟨hmanager, hdirector, hhard⟩ := b.property
    have hcap : ¬b.val.hardSpendLimit.val.value < a.value := by linarith
    unfold amountReasons
    dsimp only
    rw [if_neg (not_lt.mpr hnonneg), htier]
    simp [reasonIf_eq_nil, hcap]

/-- Where nothing was found, there are no codes. -/
theorem taxonomy_clean_iff (result : TaxonomyResult) : result.val.status = .clean ↔
    result.val.status ≠ .exception ∧ result.val.unresolved = [] := by
  have hstatus := result.property.2
  unfold Taxonomy.statusOf at hstatus
  split_ifs at hstatus with hfindings hunresolved
  · simp [hstatus]
  · simp [hstatus, hunresolved]
  · simp [hstatus, not_not.mp hunresolved]

theorem clean_codes {result : TaxonomyResult} (h : result.val.status = .clean) :
    result.val.codes = [] := by
  have hstatus := result.property.2
  rw [h] at hstatus
  have hfindings : result.val.findings = [] := by
    unfold Taxonomy.statusOf at hstatus
    split_ifs at hstatus with hfindings
    exact not_not.mp hfindings
  rw [result.property.1, hfindings]
  rfl

theorem reasons_eq_nil_iff (rules : PolicyConfig) (request : PolicyRequestData) :
    reasons rules request = [] ↔ Eligible rules request := by
  have hband : (∃ b ∈ band? rules (Match.text? request.extraction.currency),
      ∃ a ∈ decimal? request.extraction.totalAmount,
        0 ≤ a.value ∧ a.value ≤ b.val.autoApproveLimit.val.value) ↔
      ∃ b, HasBand rules (Match.text? request.extraction.currency) b ∧
        ∃ a ∈ decimal? request.extraction.totalAmount,
          0 ≤ a.value ∧ a.value ≤ b.val.autoApproveLimit.val.value :=
    exists_congr fun b => and_congr_left' band?_eq_some
  unfold reasons
  simp only [List.append_eq_nil_iff, reasonIf_eq_nil, orderReasons_eq_nil,
    amountReasons_eq_nil_iff, hband, not_not]
  constructor
  · rintro ⟨⟨⟨⟨⟨⟨-, horder⟩, hamount⟩, hexception⟩, hunresolved⟩, hvalidation⟩, hmatch⟩
    exact ⟨(taxonomy_clean_iff _).mpr ⟨hexception, hunresolved⟩, hvalidation, hmatch, hamount,
      horder⟩
  · intro h
    obtain ⟨hexception, hunresolved⟩ := (taxonomy_clean_iff _).mp h.taxonomy
    refine ⟨⟨⟨⟨⟨⟨?_, h.order⟩, h.amount⟩, hexception⟩, hunresolved⟩, h.validation⟩, h.match⟩
    rw [clean_codes h.taxonomy]
    exact List.not_mem_nil

theorem statusOf_block_iff {findings : List PolicyFinding} :
    statusOf findings = .block ↔ ∃ r ∈ findings.map PolicyFinding.reason, r ∈ blocking := by
  have hany : (findings.any fun f => f.reason ∈ blocking) = true ↔
      ∃ r ∈ findings.map PolicyFinding.reason, r ∈ blocking := by
    simp
  rw [← hany]
  unfold statusOf
  split_ifs with hblock hsome <;> simp [hblock]

theorem statusOf_eligible_iff {findings : List PolicyFinding} :
    statusOf findings = .autoApproveEligible ↔ findings = [] := by
  refine ⟨statusOf_eligible, fun h => ?_⟩
  rw [h]
  rfl

end Policy

theorem policy_eligible_iff {host : Host} {request : PolicyRequest host}
    {config : Option PolicyConfig} {policy : PolicyResult}
    (h : evaluatePolicy host request config = .ok policy) :
    policy.val.status = .autoApproveEligible ↔
      Policy.Eligible (config.getD .default) request.val := by
  rw [policy_ok, Except.ok.injEq] at h
  rw [← h, ← Policy.reasons_eq_nil_iff, ← Policy.result_reasons host, List.map_eq_nil_iff]
  exact Policy.statusOf_eligible_iff

/-- The policy always has a result : its reasons are unique, it blocks and approves just what it has
to, and its tier is that of the amount. -/
theorem evaluate_policy_exact (host : Host) (request : PolicyRequest host)
    (config : Option PolicyConfig) :
    ∃ result, evaluatePolicy host request config = .ok result ∧
      (result.val.findings.map PolicyFinding.reason).Nodup ∧
      (result.val.status = .block ↔ Policy.Blocked (config.getD .default) request.val) ∧
      (result.val.status = .autoApproveEligible ↔
        Policy.Eligible (config.getD .default) request.val) ∧
      ∀ tier, HasTier (decimal? request.val.extraction.totalAmount)
        (Policy.band? (config.getD .default) (Match.text? request.val.extraction.currency)) tier ↔
          result.val.approvalTier = tier := by
  have hvalid := Policy.result_valid host (config.getD .default) request
  have hpolicy := policy_ok host request config
  refine ⟨_, hpolicy, hvalid.unique, ?_, policy_eligible_iff hpolicy, fun tier => hasTier_iff _ _ _⟩
  rw [← Policy.blocked_iff, ← Policy.result_reasons host]
  exact Policy.statusOf_block_iff

end InvoiceOps
