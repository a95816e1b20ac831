import InvoiceOps.MatchingExact
import InvoiceOps.Policy

/-!
# The chain of checks

`LiveServices.evaluate` is what a run computes of an extraction : validation, matching, taxonomy and
policy, each on the results of the ones before. Every request of the chain is accepted, since the
evidence in it is about its own extraction, and every check has a result (`evaluate_ok`).
-/

namespace InvoiceOps

/-- What a run hands to the checks. -/
structure RunInput where
  runId : Uuid
  invoiceId : Uuid
  traceId : { s : String // isTraceId s }
  asOf : Date
  extraction : InvoiceExtraction
  snapshot : Option ERPSnapshot
  nearDuplicate : Bool

/-- The configurations of the nodes. -/
structure NodeConfigs where
  validation : ValidationConfig := .default
  matching : MatchConfig := .default
  taxonomy : TaxonomyConfig := .default
  policy : PolicyConfig := .default

/-- The results of the checks. -/
structure Evidence where
  validation : ValidationResult
  «match» : MatchResult
  taxonomy : TaxonomyResult
  policy : PolicyResult

namespace LiveServices

variable (host : Host) (configs : NodeConfigs) (run : RunInput)

/-- The bank account of the vendor, as the taxonomy takes it. -/
def vendorBankIban (snapshot : Option ERPSnapshot) : Option (Text 0 64) :=
  snapshot.bind fun s => s.val.vendor.bankAccountIban.map fun iban =>
    ⟨iban.val, iban.property.1, iban.property.2.trans (by norm_num)⟩

/-- The request `match` builds. -/
def matchRequest : MatchRequest :=
  ⟨run.runId, run.invoiceId, run.traceId, run.extraction, run.snapshot⟩

/-- The request `policy` builds for the classification. -/
def taxonomyRequestData (validation : ValidationResult) (result : MatchResult) :
    TaxonomyRequestData where
  runId := run.runId
  invoiceId := run.invoiceId
  traceId := run.traceId
  extraction := some run.extraction
  validation := some validation
  «match» := some result
  vendorBankIban := vendorBankIban run.snapshot
  nearDuplicate := run.nearDuplicate
  stalePo := poAgeExceeded run.snapshot run.asOf configs.policy.maxPoAgeDays.val

/-- The request `policy` builds for the decision. -/
def policyRequestData (validation : ValidationResult) (result : MatchResult)
    (taxonomy : TaxonomyResult) : PolicyRequestData where
  runId := run.runId
  invoiceId := run.invoiceId
  traceId := run.traceId
  asOf := run.asOf
  extraction := run.extraction
  validation := validation
  «match» := result
  taxonomy := taxonomy
  snapshot := run.snapshot

/-- The checks of a run, in order. -/
def evaluate : Except Exn Evidence := do
  let validation ← validateInvoice host run.extraction configs.validation
  let result ← matchInvoice host (matchRequest run) configs.matching
  let taxonomyRequest ← construct "TaxonomyRequest" (TaxonomyRequestData.Valid host)
    (taxonomyRequestData configs run validation result)
  let taxonomy ← classifyExceptions host taxonomyRequest configs.taxonomy
  let policyRequest ← construct "PolicyRequest" (PolicyRequestData.Valid host)
    (policyRequestData run validation result taxonomy)
  let policy ← evaluatePolicy host policyRequest configs.policy
  return ⟨validation, result, taxonomy, policy⟩

end LiveServices

/-! ## Every check has a result -/

/-! ### Validation -/

/-- The fields a validation is about. -/
def issueFields : List String :=
  ["description", "quantity", "unit_price", "tax_rate", "line_total", "vendor_name",
    "invoice_number", "currency", "invoice_date", "subtotal", "tax_amount", "total_amount",
    "line_items"]

namespace Control

/-- A finding of a missing field is at one of the fields. -/
theorem field_missing {lineNumber : Option ℕ} {fields : List (String × Bool)} {f : Finding}
    (h : f ∈ fields.filterMap (missing lineNumber)) : f.field ∈ fields.map Prod.fst := by
  obtain ⟨g, hg, hf⟩ := List.mem_filterMap.mp h
  unfold missing at hf
  split_ifs at hf
  rw [← Option.some.inj hf]
  exact List.mem_map_of_mem hg

/-- A finding of an invalid value is at its field. -/
theorem field_invalid {code : IssueCode} {field : String} {bad : ℚ → Prop} [DecidablePred bad]
    {value : Option ℚ} {lineNumber : Option ℕ} {f : Finding}
    (h : f ∈ (invalid code field bad value lineNumber).toList) : f.field = field := by
  obtain ⟨x, -, hf⟩ := Option.map_eq_some_iff.mp (Option.mem_toList.mp h)
  rw [← hf]

/-- A finding of a mismatch is at its field. -/
theorem field_mismatch {code : IssueCode} {field : String} {expected actual : Option ℚ}
    {tolerance : ℚ} {lineNumber : Option ℕ} {f : Finding}
    (h : f ∈ (mismatch code field expected actual tolerance lineNumber).toList) :
    f.field = field := by
  obtain ⟨x, -, hx⟩ := Option.bind_eq_some_iff.mp (Option.mem_toList.mp h)
  obtain ⟨y, -, hy⟩ := Option.bind_eq_some_iff.mp hx
  split_ifs at hy
  rw [← Option.some.inj hy]

/-- Every finding on a line is at an issue's field. -/
theorem field_lineFindings {rule : Option CurrencyRule} {line : InvoiceLineItem} {number : ℕ}
    {f : Finding} (h : f ∈ lineFindings rule line number) : f.field ∈ issueFields := by
  unfold lineFindings at h
  simp only [List.mem_append] at h
  rcases h with ((((h | h) | h) | h) | h) | h
  · have hfields : (Validate.lineFields line).map Prod.fst ⊆ issueFields := by
      have hnames : (Validate.lineFields line).map Prod.fst =
          ["description", "quantity", "unit_price", "tax_rate", "line_total"] := rfl
      rw [hnames]
      decide
    exact hfields (field_missing h)
  · rw [field_invalid h]
    decide
  · rw [field_invalid h]
    decide
  · rw [field_invalid h]
    decide
  · rw [field_invalid h]
    decide
  · cases rule with
    | none => simp at h
    | some rule =>
      rw [field_mismatch h]
      decide

/-- Every finding on the totals is at one. -/
theorem field_totalFindings {extraction : InvoiceExtraction} {rule : CurrencyRule} {f : Finding}
    (h : f ∈ totalFindings extraction rule) : f.field ∈ issueFields := by
  unfold totalFindings at h
  simp only [List.mem_append] at h
  rcases h with (h | h) | h
  · rw [field_mismatch h]
    decide
  · rw [field_mismatch h]
    decide
  · rw [field_mismatch h]
    decide

/-- Every finding is about one of the fields. -/
theorem field_findings {extraction : InvoiceExtraction} {config : ValidationConfig} {f : Finding}
    (h : f ∈ findings extraction config) : f.field ∈ issueFields := by
  unfold findings at h
  simp only [List.mem_append] at h
  rcases h with ((((((h | h) | h) | h) | h) | h) | h) | h
  · have hfields : (Validate.invoiceFields extraction).map Prod.fst ⊆ issueFields := by
      have hnames : (Validate.invoiceFields extraction).map Prod.fst =
          ["vendor_name", "invoice_number", "currency", "invoice_date", "subtotal", "tax_amount",
            "total_amount"] := rfl
      rw [hnames]
      decide
    exact hfields (field_missing h)
  · split_ifs at h
    · rw [List.mem_singleton.mp h]
      decide
    · exact absurd h List.not_mem_nil
  · split_ifs at h
    · rw [List.mem_singleton.mp h]
      decide
    · exact absurd h List.not_mem_nil
  · rw [field_invalid h]
    decide
  · rw [field_invalid h]
    decide
  · rw [field_invalid h]
    decide
  · obtain ⟨line, -, h⟩ := List.mem_flatMap.mp h
    exact field_lineFindings h
  · cases hrule : Validate.rule? extraction config with
    | none =>
      rw [hrule] at h
      exact absurd h List.not_mem_nil
    | some rule =>
      rw [hrule] at h
      exact field_totalFindings h

theorem length_toList_le {α : Type} (o : Option α) : o.toList.length ≤ 1 := by
  cases o <;> simp

/-- A line has at most ten findings. -/
theorem length_lineFindings (rule : Option CurrencyRule) (line : InvoiceLineItem) (number : ℕ) :
    (lineFindings rule line number).length ≤ 10 := by
  have hmissing := List.length_filterMap_le (missing (some number)) (Validate.lineFields line)
  have hfields : (Validate.lineFields line).length = 5 := rfl
  have hprice := length_toList_le (invalid .negativeValue "unit_price" (· < 0)
    (number? line.unitPrice) (some number))
  have hnet := length_toList_le (invalid .negativeValue "line_total" (· < 0)
    (number? line.lineTotal) (some number))
  have hquantity := length_toList_le (invalid .nonpositiveQuantity "quantity" (· ≤ 0)
    (number? line.quantity) (some number))
  have hrate := length_toList_le (invalid .taxRateOutOfRange "tax_rate"
    (fun r => ¬(0 ≤ r ∧ r ≤ 1)) (number? line.taxRate) (some number))
  have hmath := length_toList_le (rule.bind fun rule => mismatch .lineMathMismatch "line_total"
    (lineExpected rule line) (net? line) rule.absoluteTolerance.val.value (some number))
  unfold lineFindings
  simp only [List.length_append]
  omega

/-- At most five hundred lines are not right. -/
theorem length_findings (extraction : InvoiceExtraction) (config : ValidationConfig) :
    (findings extraction config).length ≤ 5020 := by
  have hmissing := List.length_filterMap_le (missing none) (Validate.invoiceFields extraction)
  have hfields : (Validate.invoiceFields extraction).length = 7 := rfl
  have hsubtotal := length_toList_le (invalid .negativeValue "subtotal" (· < 0)
    (number? extraction.subtotal) none)
  have htax := length_toList_le (invalid .negativeValue "tax_amount" (· < 0)
    (number? extraction.taxAmount) none)
  have htotal := length_toList_le (invalid .negativeValue "total_amount" (· < 0)
    (number? extraction.totalAmount) none)
  have hlines : ((extraction.lineItems.val.zipIdx 1).flatMap fun line =>
      lineFindings (Validate.rule? extraction config) line.1 line.2).length ≤ 5000 := by
    have hsum := List.sum_le_card_nsmul ((extraction.lineItems.val.zipIdx 1).map fun line =>
      (lineFindings (Validate.rule? extraction config) line.1 line.2).length) 10 fun n hn => by
        obtain ⟨line, -, rfl⟩ := List.mem_map.mp hn
        exact length_lineFindings _ line.1 line.2
    have hlength := extraction.lineItems.property
    rw [List.length_map, List.length_zipIdx, nsmul_eq_mul, Nat.cast_id] at hsum
    rw [List.length_flatMap]
    omega
  have htotals : ((Validate.rule? extraction config).elim [] (totalFindings extraction)).length ≤
      3 := by
    cases Validate.rule? extraction config with
    | none => simp
    | some rule =>
      have hone := length_toList_le (mismatch .subtotalMismatch "subtotal"
        (sumAll (extraction.lineItems.val.map net?)) (subtotal? extraction)
        rule.absoluteTolerance.val.value none)
      have htwo := length_toList_le (mismatch .taxMismatch "tax_amount"
        (sumAll (extraction.lineItems.val.map (lineTax rule))) (tax? extraction)
        rule.absoluteTolerance.val.value none)
      have hthree := length_toList_le (mismatch .totalMismatch "total_amount"
        ((subtotal? extraction).bind fun s => (tax? extraction).map fun t => s + t)
        (total? extraction) rule.absoluteTolerance.val.value none)
      rw [Option.elim_some]
      unfold totalFindings
      simp only [List.length_append]
      omega
  have hempty : (if extraction.lineItems.val = [] then
      [{ code := .emptyLines, field := "line_items" : Finding }] else []).length ≤ 1 := by
    split_ifs <;> simp
  have hsupported : (if extraction.currency.value ≠ none ∧ Validate.rule? extraction config = none
      then [{ code := .unsupportedCurrency, field := "currency" : Finding }] else []).length ≤
      1 := by
    split_ifs <;> simp
  unfold findings
  simp only [List.length_append]
  omega

end Control

/-- A validation, whose issues are about its fields. -/
theorem validate_ok (host : Host) (extraction : InvoiceExtraction) (config : ValidationConfig) :
    ∃ result, validateInvoice host extraction config = .ok result ∧
      result.val.inputSha256 = host.modelDigest (InvoiceExtraction.codec host) extraction ∧
      result.val.issues.length ≤ 5020 ∧ ∀ issue ∈ result.val.issues,
        issue.val.field ∈ issueFields := by
  obtain ⟨result, hresult, hdigest, hfound⟩ := validateInvoice_ok host extraction config
  refine ⟨result, hresult, hdigest, ?_, fun issue hissue => ?_⟩
  · have hlength := congrArg List.length hfound
    rw [List.length_map] at hlength
    exact hlength.trans_le (Control.length_findings extraction config)
  · have hmem := List.mem_map_of_mem (f := ValidationIssue.finding) hissue
    rw [hfound] at hmem
    exact Control.field_findings hmem

/-! ### Matching -/

/-- The checks of a match are those of at most five hundred lines. -/
structure MatchResultData.Sized (result : MatchResultData) : Prop where
  identities : result.identityChecks.length ≤ 504
  numbers : result.numericChecks.length ≤ 2503
  identityLines : ∀ c ∈ result.identityChecks, ∀ n ∈ c.lineNumber, n.val ≤ 500
  numericLines : ∀ c ∈ result.numericChecks, ∀ n ∈ c.val.lineNumber, n.val ≤ 500

/-- What a match says about its request. -/
structure MatchResultData.About (result : MatchResultData) (host : Host) (request : MatchRequest) :
    Prop where
  extraction : result.extractionSha256 =
    host.modelDigest (InvoiceExtraction.codec host) request.extraction
  found : result.snapshotFound = request.snapshot.isSome
  snapshot : ∀ s ∈ request.snapshot,
    result.snapshotSha256 = some (host.modelDigest (ERPSnapshot.codec host) s)
  order : ∀ s ∈ request.snapshot,
    result.poStatus = some s.val.purchaseOrder.status.text ∧
      result.poNumber = some s.val.purchaseOrder.poNumber.val

namespace Match

/-- A line of a consistent order is numbered up to 500. -/
theorem lineNumber_le {snapshot : ERPSnapshotData} (h : snapshot.Valid) {line : PurchaseOrderLine}
    (hline : line ∈ snapshot.poLines) : line.lineNumber.val ≤ 500 := by
  have hmem := List.mem_map_of_mem (f := fun l : PurchaseOrderLine => l.lineNumber.val) hline
  have hlength : snapshot.poLines.length ≤ 500 := snapshot.purchaseOrder.lines.property
  rw [h.numbers, List.mem_range'_1] at hmem
  omega

/-- So are the lines of the comparisons. -/
theorem comparisons_lines {extraction : InvoiceExtraction} {snapshot : ERPSnapshotData}
    {policy : MatchConfig} (h : snapshot.Valid) :
    ∀ c ∈ comparisons extraction snapshot policy, ∀ n ∈ c.lineNumber, n.val ≤ 500 := by
  intro c hc
  rcases List.mem_append.mp hc with hc | hc
  · have hnone : ∀ c ∈ headerComparisons extraction snapshot policy, c.lineNumber = none := by
      simp [headerComparisons]
    rw [hnone c hc]
    intro n hn
    cases hn
  · obtain ⟨line, hline, hc⟩ := List.mem_flatMap.mp hc
    have hsome : ∀ c ∈ lineComparisons snapshot policy line.1 extraction.lineItems.val[line.2]?,
        c.lineNumber = some line.1.lineNumber := by
      simp [lineComparisons]
    rw [hsome c hc]
    intro n hn
    rw [← Option.some.inj hn]
    exact lineNumber_le h (List.fst_mem_of_mem_zipIdx hline)

/-- And those of the identities. -/
theorem identityComparisons_lines {extraction : InvoiceExtraction} {snapshot : ERPSnapshotData}
    (h : snapshot.Valid) :
    ∀ c ∈ identityComparisons extraction snapshot, ∀ n ∈ c.lineNumber, n.val ≤ 500 := by
  intro c hc
  rcases List.mem_append.mp hc with hc | hc
  · simp only [List.mem_cons, List.not_mem_nil, or_false] at hc
    rcases hc with rfl | rfl | rfl | rfl <;> exact fun n hn => absurd hn (Option.not_mem_none n)
  · obtain ⟨line, hline, rfl⟩ := List.mem_map.mp hc
    intro n hn
    rw [← Option.some.inj hn]
    exact lineNumber_le h (List.fst_mem_of_mem_zipIdx hline)

end Match

/-- A match, of at most five hundred lines. -/
theorem match_ok (host : Host) (request : MatchRequest) (config : Option MatchConfig) :
    ∃ result, matchInvoice host request config = .ok result ∧ result.val.Sized ∧
      result.val.About host request := by
  cases hrequest : request.snapshot with
  | none =>
    obtain ⟨hvalid, hresult⟩ := matchInvoice_none host config hrequest
    refine ⟨_, hresult, ⟨?_, ?_, ?_, ?_⟩, ⟨rfl, ?_, ?_, ?_⟩⟩ <;>
      simp [Match.withoutSnapshot, hrequest]
  | some snapshot =>
    obtain ⟨numeric, hvalid, -, hdecide, hresult⟩ := matchInvoice_some host config hrequest
    have hidentities := Match.identities_decide host request.extraction snapshot.property
    have hlines : snapshot.val.poLines.length ≤ 500 := snapshot.val.purchaseOrder.lines.property
    refine ⟨_, hresult, ⟨?_, ?_, ?_, ?_⟩, ⟨rfl, ?_, fun s hs => ?_, fun s hs => ?_⟩⟩
    · have hlength := hidentities.length_eq.symm.trans (Match.length_identityComparisons ..)
      exact hlength.trans_le (by omega)
    · have hlength := hdecide.length_eq.symm.trans (Match.length_comparisons ..)
      exact hlength.trans_le (by omega)
    · refine forall_of_forall₂ hidentities fun c hc check hdecides => ?_
      rw [hdecides.lineNumber]
      exact Match.identityComparisons_lines snapshot.property c hc
    · refine forall_of_forall₂ hdecide fun c hc check hdecides => ?_
      rw [hdecides.decides.lineNumber]
      exact Match.comparisons_lines snapshot.property c hc
    · rw [hrequest]
      rfl
    · rw [hrequest] at hs
      rw [← Option.some.inj hs]
      rfl
    · rw [hrequest] at hs
      rw [← Option.some.inj hs]
      exact ⟨rfl, rfl⟩

/-! ### Taxonomy -/

namespace Taxonomy

/-- A reference within the bounds is constructed. -/
theorem newRef_eq {ref : EvidenceRefData} (h : ref.Valid) : newRef ref = .ok ⟨ref, h⟩ :=
  construct_eq h

/-- The references the taxonomy makes. -/
def Short (ref : EvidenceRefData) : Prop :=
  (1 ≤ ref.field.length ∧ ref.field.length ≤ 80) ∧ ∀ n ∈ ref.lineNumber, 0 < n ∧ n ≤ 500

/-- A short reference is within the bounds. -/
theorem Short.valid {ref : EvidenceRefData} (h : Short ref) : ref.Valid :=
  ⟨h.1, fun n hn => (h.2 n hn).1⟩

/-- What a note is about. -/
def Note.evidence : Note → EvidenceRef
  | .finding f => f.evidence
  | .unresolved e => e

/-- A note on a short reference is taken. -/
theorem note_ok {code : Option ExceptionCode} {ref : EvidenceRefData} (h : Short ref) :
    ∃ n, note code ref = .ok n ∧ Short (Note.evidence n).val := by
  unfold note
  rw [newRef_eq h.valid, ok_bind]
  cases code with
  | none => exact ⟨_, rfl, h⟩
  | some code => exact ⟨_, rfl, h⟩

/-- Notes on short references are taken, one for each. -/
theorem mapM_notes {α : Type} {f : α → Except Exn Note} {l : List α}
    (h : ∀ a ∈ l, ∃ n, f a = .ok n ∧ Short (Note.evidence n).val) :
    ∃ ns, l.mapM f = .ok ns ∧ ns.length = l.length ∧ ∀ n ∈ ns, Short (Note.evidence n).val := by
  obtain ⟨ns, hns, hall⟩ := mapM_forall₂ h
  exact ⟨ns, hns, hall.length_eq.symm, forall_of_forall₂ hall fun _ _ _ hn => hn⟩

/-- A step of the classification. -/
def Noted (step : Except Exn (List Note)) (bound : ℕ) : Prop :=
  ∃ ns, step = .ok ns ∧ ns.length ≤ bound ∧ ∀ n ∈ ns, Short (Note.evidence n).val

/-- No notes are noted. -/
theorem Noted.nil {bound : ℕ} : Noted (.ok []) bound :=
  ⟨[], rfl, by simp, by simp⟩

/-- One note is. -/
theorem Noted.single {code : Option ExceptionCode} {ref : EvidenceRefData} (h : Short ref) :
    Noted (do let n ← note code ref; return [n]) 1 := by
  obtain ⟨n, hn, hshort⟩ := @note_ok code ref h
  rw [hn, ok_bind]
  exact ⟨[n], rfl, le_rfl, by simpa using hshort⟩

/-- A signal is noted once, or not at all. -/
theorem signal_noted (on : Bool) (code : ExceptionCode) (source : EvidenceSource) {field : String}
    (h : 1 ≤ field.length ∧ field.length ≤ 80) : Noted (signal on code source field) 1 := by
  unfold signal
  split_ifs
  · exact .single ⟨h, by simp⟩
  · exact .nil

/-- A bank mismatch is noted once at most. -/
theorem bankNotes_noted (host : Host) (extraction : InvoiceExtraction) (vendor : Option String) :
    Noted (bankNotes host extraction vendor) 1 := by
  have hshort : Short { source := .erp, field := "bank_account_iban" } :=
    ⟨(by decide : 1 ≤ "bank_account_iban".length ∧ "bank_account_iban".length ≤ 80), by simp⟩
  unfold bankNotes
  dsimp only
  split
  · split_ifs
    · exact .single hshort
    · exact .single hshort
    · exact .nil
  · exact .single hshort

/-- Checks of bounded number are noted. -/
theorem checks_noted {α : Type} {f : α → Except Exn Note} {checks : List α} {bound : ℕ}
    (hlength : checks.length ≤ bound)
    (h : ∀ c ∈ checks, ∃ n, f c = .ok n ∧ Short (Note.evidence n).val) :
    Noted (checks.mapM f) bound := by
  obtain ⟨ns, hns, heq, hshort⟩ := mapM_notes h
  exact ⟨ns, hns, heq.trans_le hlength, hshort⟩

/-- A reference to a line is short. -/
theorem short_line {source : EvidenceSource} {field : String} {lineNumber : Option LineNumber}
    {index : ℕ} (hfield : 1 ≤ field.length ∧ field.length ≤ 80)
    (hline : ∀ n ∈ lineNumber, n.val ≤ 500) :
    Short ⟨source, field, lineNumber.map Subtype.val, some index⟩ := by
  refine ⟨hfield, fun n hn => ?_⟩
  obtain ⟨m, hm, rfl⟩ := Option.map_eq_some_iff.mp hn
  exact ⟨m.property, hline m hm⟩

/-- What matching found is noted. -/
theorem matchNotes_noted {result : MatchResultData} (h : result.Sized) :
    Noted (matchNotes result) 3009 := by
  obtain ⟨missing, hmissing, hmissingLength, hmissingShort⟩ :=
    signal_noted (!result.snapshotFound) .missingPo .matchIdentity
      (by decide : 1 ≤ "po_number".length ∧ "po_number".length ≤ 80)
  obtain ⟨stale, hstale, hstaleLength, hstaleShort⟩ :=
    signal_noted (result.poStatus = some "CLOSED" || result.poStatus = some "CANCELLED")
      .stalePo .erp (by decide : 1 ≤ "po_status".length ∧ "po_status".length ≤ 80)
  obtain ⟨identity, hidentity, hidentityLength, hidentityShort⟩ :
      Noted (identityNotes result.identityChecks) 504 := by
    refine checks_noted ?_ fun c hc => note_ok (short_line ?_ ?_)
    · exact (List.length_filter_le _ _).trans (List.length_zipIdx.trans_le h.identities)
    · cases c.1.field <;> decide
    · exact h.identityLines c.1 (List.fst_mem_of_mem_zipIdx (List.mem_of_mem_filter hc))
  obtain ⟨numeric, hnumeric, hnumericLength, hnumericShort⟩ :
      Noted (numericNotes result.numericChecks) 2503 := by
    refine checks_noted ?_ fun c hc => note_ok (short_line ?_ ?_)
    · exact (List.length_filter_le _ _).trans (List.length_zipIdx.trans_le h.numbers)
    · cases c.1.val.field <;> decide
    · exact h.numericLines c.1 (List.fst_mem_of_mem_zipIdx (List.mem_of_mem_filter hc))
  unfold matchNotes
  rw [hmissing, ok_bind, hstale, ok_bind, hidentity, ok_bind, hnumeric, ok_bind]
  refine ⟨_, rfl, ?_, ?_⟩
  · simp only [List.length_append]
    omega
  · simp only [List.forall_mem_append]
    exact ⟨⟨⟨hmissingShort, hstaleShort⟩, hidentityShort⟩, hnumericShort⟩

/-- What validation found is noted. -/
theorem validationNotes_noted {result : ValidationResultData}
    (hlength : result.issues.length ≤ 5020)
    (hfields : ∀ issue ∈ result.issues, issue.val.field ∈ issueFields) :
    Noted (validationNotes result) 5020 := by
  refine checks_noted (List.length_zipIdx.trans_le hlength) fun issue hissue => note_ok ⟨?_, ?_⟩
  · have hnames : ∀ f ∈ issueFields, 1 ≤ f.length ∧ f.length ≤ 80 := by decide
    exact hnames _ (hfields issue.1 (List.fst_mem_of_mem_zipIdx hissue))
  · exact issue.1.property.2.1

/-- The evidence a request has to hold for the taxonomy. -/
structure Holds (request : TaxonomyRequestData) : Prop where
  extraction : request.extraction.isSome
  validation : ∃ v, request.validation = some v ∧ v.val.issues.length ≤ 5020 ∧
    ∀ issue ∈ v.val.issues, issue.val.field ∈ issueFields
  «match» : ∃ m, request.match = some m ∧ m.val.Sized

/-- All that is found is noted, and is at most 9000 notes. -/
theorem notes_noted (host : Host) {request : TaxonomyRequestData} (h : Holds request) :
    Noted (notes host request) 9000 := by
  obtain ⟨extraction, hextraction⟩ := Option.isSome_iff_exists.mp h.extraction
  obtain ⟨v, hv, hissues, hfields⟩ := h.validation
  obtain ⟨m, hm, hsized⟩ := h.match
  obtain ⟨exact, hexact, hexactLength, hexactShort⟩ :=
    signal_noted request.exactDuplicate .dupExact .ingest
      (by decide : 1 ≤ "content_hash".length ∧ "content_hash".length ≤ 80)
  obtain ⟨near, hnear, hnearLength, hnearShort⟩ :=
    signal_noted request.nearDuplicate .dupNear .similarity
      (by decide : 1 ≤ "invoice_similarity".length ∧ "invoice_similarity".length ≤ 80)
  obtain ⟨matching, hmatching, hmatchingLength, hmatchingShort⟩ := matchNotes_noted hsized
  obtain ⟨validation, hvalidation, hvalidationLength, hvalidationShort⟩ :=
    validationNotes_noted hissues hfields
  obtain ⟨bank, hbank, hbankLength, hbankShort⟩ :=
    bankNotes_noted host extraction (request.vendorBankIban.map Subtype.val)
  unfold notes
  rw [hexact, ok_bind, hnear, ok_bind, hm, Option.elim_some, hmatching, ok_bind, hv,
    Option.elim_some, hvalidation, ok_bind, hextraction, Option.elim_some, hbank, ok_bind]
  refine ⟨_, rfl, ?_, ?_⟩
  · simp only [List.length_append]
    omega
  · simp only [List.forall_mem_append]
    exact ⟨⟨⟨⟨hexactShort, hnearShort⟩, hmatchingShort⟩, hvalidationShort⟩, hbankShort⟩

/-- What holds of the notes holds of the findings. -/
theorem finding_evidence {ns : List Note} {P : EvidenceRef → Prop}
    (h : ∀ n ∈ ns, P (Note.evidence n)) : ∀ f ∈ ns.filterMap Note.finding?, P f.evidence := by
  intro f hf
  obtain ⟨n, hn, hnf⟩ := List.mem_filterMap.mp hf
  cases n with
  | finding g =>
    rw [← Option.some.inj hnf]
    exact h _ hn
  | unresolved e => cases hnf

end Taxonomy

/-- A classification, of findings with short references. -/
theorem classify_ok (host : Host) (request : TaxonomyRequest host)
    (config : Option TaxonomyConfig) (h : Taxonomy.Holds request.val) :
    ∃ result, classifyExceptions host request config = .ok result ∧
      (∃ findings unresolved, result.val =
        Taxonomy.result host request.val (config.getD .default) findings unresolved) ∧
      result.val.findings.length ≤ 9001 ∧
      ∀ f ∈ result.val.findings, Taxonomy.Short f.evidence.val := by
  obtain ⟨ns, hns, hlength, hshort⟩ := Taxonomy.notes_noted host h
  obtain ⟨old, hold, holdLength, holdShort⟩ := Taxonomy.signal_noted
    (request.val.stalePo && !(ns.filterMap Note.finding?).any fun f => f.code = .stalePo)
    .stalePo .policy (by decide : 1 ≤ "stale_po".length ∧ "stale_po".length ≤ 80)
  have hvalid : (Taxonomy.result host request.val (config.getD .default)
      (ns.filterMap Note.finding? ++ old.filterMap Note.finding?)
      (ns.filterMap Note.unresolved?)).Valid := ⟨rfl, rfl⟩
  unfold classifyExceptions
  dsimp only
  rw [hns, ok_bind, hold, ok_bind]
  refine ⟨_, construct_eq hvalid, ⟨_, _, rfl⟩, ?_, ?_⟩
  · have hfirst := List.length_filterMap_le Note.finding? ns
    have hsecond := List.length_filterMap_le Note.finding? old
    exact List.length_append.trans_le (by omega)
  · exact List.forall_mem_append.mpr
      ⟨Taxonomy.finding_evidence (P := fun e => Taxonomy.Short e.val) hshort,
        Taxonomy.finding_evidence (P := fun e => Taxonomy.Short e.val) holdShort⟩

/-! ### Policy -/

namespace Policy

/-- A condition gives its reason or none. -/
theorem reasonIf_sublist (p : Prop) [Decidable p] (reason : PolicyReason) :
    List.Sublist (reasonIf p reason) [reason] := by
  unfold reasonIf
  split_ifs
  · exact List.Sublist.refl _
  · exact List.nil_sublist _

/-- The reasons on an order, in their order. -/
theorem orderReasons_sublist (rules : PolicyConfig) (asOf : Date) (snapshot : Option ERPSnapshot) :
    List.Sublist (orderReasons rules asOf snapshot)
      ([PolicyReason.cancelledPo, .closedPo] ++ [PolicyReason.futurePo, .stalePo]) := by
  cases snapshot with
  | none => exact List.nil_sublist _
  | some snapshot =>
    unfold orderReasons
    refine List.Sublist.append ?_ ?_
    · split_ifs
      · exact (List.Sublist.refl [PolicyReason.cancelledPo]).trans
          (List.sublist_append_left [PolicyReason.cancelledPo] [.closedPo])
      · exact (reasonIf_sublist _ _).cons _
    · split_ifs
      · exact (List.Sublist.refl [PolicyReason.futurePo]).trans
          (List.sublist_append_left [PolicyReason.futurePo] [.stalePo])
      · exact (reasonIf_sublist _ _).cons _

/-- The reasons on an amount, in their order. -/
theorem amountReasons_sublist (amount : Option Decimal) (band : Option SpendBand) :
    List.Sublist (amountReasons amount band) ([PolicyReason.unsupportedCurrency] ++
      [PolicyReason.unknownAmount, .invalidAmount, .spendCapExceeded, .approvalRequired]) := by
  unfold amountReasons
  refine (reasonIf_sublist _ _).append ?_
  cases amount with
  | none => exact List.sublist_append_left [PolicyReason.unknownAmount] _
  | some amount =>
    dsimp only
    split_ifs
    · exact (List.sublist_append_left [PolicyReason.invalidAmount] _).cons _
    · exact (((reasonIf_sublist _ _).append (reasonIf_sublist _ _)).cons _).cons _

/-- No reason is given twice. -/
theorem reasons_nodup (rules : PolicyConfig) (request : PolicyRequestData) :
    (reasons rules request).Nodup := by
  have hsub : List.Sublist (reasons rules request) PolicyReason.order :=
    ((((((reasonIf_sublist _ _).append (orderReasons_sublist _ _ _)).append
      (amountReasons_sublist _ _)).append (reasonIf_sublist _ _)).append
      (reasonIf_sublist _ _)).append (reasonIf_sublist _ _)).append (reasonIf_sublist _ _)
  exact (by decide : PolicyReason.order.Nodup).sublist hsub

/-- A condition that gives no reason fails. -/
theorem reasonIf_eq_nil {p : Prop} [Decidable p] {reason : PolicyReason} :
    reasonIf p reason = [] ↔ ¬p := by
  unfold reasonIf
  split_ifs with h <;> simp [h]

/-- Where the amount gives no reason, it needs no approval. -/
theorem amountReasons_eq_nil {amount : Option Decimal} {band : Option SpendBand}
    (h : amountReasons amount band = []) :
    ∃ a b, amount = some a ∧ band = some b ∧ 0 ≤ a.value ∧
      a.value ≤ b.val.hardSpendLimit.val.value ∧ approvalTier amount band = .none := by
  unfold amountReasons at h
  rw [List.append_eq_nil_iff, reasonIf_eq_nil] at h
  obtain ⟨hband, h⟩ := h
  obtain ⟨b, rfl⟩ := Option.ne_none_iff_exists'.mp hband
  cases amount with
  | none => exact absurd h (List.cons_ne_nil _ _)
  | some a =>
    dsimp only at h
    split_ifs at h with hneg
    · rw [List.append_eq_nil_iff, reasonIf_eq_nil, reasonIf_eq_nil] at h
      obtain ⟨hcap, htier⟩ := h
      refine ⟨a, b, rfl, rfl, not_lt.mp hneg, ?_, ?_⟩
      · by_contra hlt
        exact hcap ⟨b, rfl, not_le.mp hlt⟩
      · have hmem : approvalTier (some a) (some b) ∈ [ApprovalTier.none, .unknown] :=
          not_not.mp htier
        have hknown : approvalTier (some a) (some b) ≠ .unknown := by
          unfold approvalTier
          dsimp only
          rw [if_neg hneg]
          split_ifs <;> decide
        simpa [hknown] using hmem

/-- Only a policy without findings is eligible. -/
theorem statusOf_eligible {findings : List PolicyFinding}
    (h : statusOf findings = .autoApproveEligible) : findings = [] := by
  unfold statusOf at h
  split_ifs at h with hblock hsome
  exact not_not.mp hsome

/-- A band is for its own currency. -/
theorem band?_currency {rules : PolicyConfig} {currency : Option String} {band : SpendBand}
    (h : band? rules currency = some band) : currency = some band.val.currency.val := by
  have hcurrency := List.find?_some h
  exact (of_decide_eq_true hcurrency).symm

/-- The findings have the reasons of the policy. -/
theorem result_reasons (host : Host) (rules : PolicyConfig) (request : PolicyRequest host) :
    (result host rules request).findings.map PolicyFinding.reason = reasons rules request.val := by
  unfold result
  rw [List.map_map]
  exact List.map_id _

/-- Every result of the policy passes its validation. -/
theorem result_valid (host : Host) (rules : PolicyConfig) (request : PolicyRequest host) :
    (result host rules request).Valid := by
  refine ⟨?_, rfl, fun heligible => ?_⟩
  · rw [result_reasons]
    exact reasons_nodup rules request.val
  · have hnil := List.map_eq_nil_iff.mp (statusOf_eligible heligible)
    unfold reasons at hnil
    simp only [List.append_eq_nil_iff] at hnil
    obtain ⟨a, b, ha, hb, hnonneg, -, htier⟩ := amountReasons_eq_nil hnil.1.1.1.1.2
    refine ⟨htier, ⟨a, ha, hnonneg⟩, ?_⟩
    change Match.text? request.val.extraction.currency ≠ none
    rw [band?_currency hb]
    exact Option.some_ne_none _

end Policy

/-- The policy always has a result. -/
theorem policy_ok (host : Host) (request : PolicyRequest host) (config : Option PolicyConfig) :
    evaluatePolicy host request config =
      .ok ⟨Policy.result host (config.getD .default) request, Policy.result_valid host _ request⟩ :=
  construct_eq _

/-! ### The chain -/

namespace LiveServices

variable (host : Host) (configs : NodeConfigs) (run : RunInput)

/-- A run of the checks, each request of which is accepted. -/
structure Ran (evidence : Evidence) : Prop where
  validation : validateInvoice host run.extraction configs.validation = .ok evidence.validation
  «match» : matchInvoice host (matchRequest run) configs.matching = .ok evidence.match
  taxonomy : ∃ h, classifyExceptions host
    ⟨taxonomyRequestData configs run evidence.validation evidence.match, h⟩ configs.taxonomy =
      .ok evidence.taxonomy
  policy : ∃ h, evaluatePolicy host
    ⟨policyRequestData run evidence.validation evidence.match evidence.taxonomy, h⟩
      configs.policy = .ok evidence.policy

/-- The sizes of what a run of the checks finds. -/
structure Sized (evidence : Evidence) : Prop where
  issues : evidence.validation.val.issues.length ≤ 5020
  fields : ∀ issue ∈ evidence.validation.val.issues, issue.val.field ∈ issueFields
  «match» : evidence.match.val.Sized
  findings : evidence.taxonomy.val.findings.length ≤ 9001
  references : ∀ f ∈ evidence.taxonomy.val.findings, Taxonomy.Short f.evidence.val

/-- The checks of a run always have their results. -/
theorem evaluate_ok :
    ∃ evidence, evaluate host configs run = .ok evidence ∧ Ran host configs run evidence ∧
      Sized evidence := by
  obtain ⟨validation, hvalidation, hvalidationDigest, hissues, hfields⟩ :=
    validate_ok host run.extraction configs.validation
  obtain ⟨result, hmatch, hsized, habout⟩ := match_ok host (matchRequest run) configs.matching
  have htaxonomyValid : TaxonomyRequestData.Valid host
      (taxonomyRequestData configs run validation result) := by
    refine ⟨fun v hv => ?_, fun m hm => ?_⟩
    · rw [← Option.some.inj hv]
      exact hvalidationDigest
    · rw [← Option.some.inj hm]
      exact habout.extraction
  obtain ⟨taxonomy, htaxonomy, ⟨findings, unresolved, hresult⟩, hlength, hshort⟩ := classify_ok host
    ⟨taxonomyRequestData configs run validation result, htaxonomyValid⟩ configs.taxonomy
    ⟨rfl, ⟨validation, rfl, hissues, hfields⟩, ⟨result, rfl, hsized⟩⟩
  have hpolicyValid : PolicyRequestData.Valid host
      (policyRequestData run validation result taxonomy) :=
    { validation := hvalidationDigest
      «match» := habout.extraction
      taxonomy := congrArg TaxonomyResultData.extractionSha256 hresult
      taxonomyValidation := congrArg TaxonomyResultData.validationSha256 hresult
      taxonomyMatch := congrArg TaxonomyResultData.matchSha256 hresult
      found := habout.found
      snapshot := habout.snapshot
      order := habout.order }
  have hpolicy := policy_ok host ⟨policyRequestData run validation result taxonomy, hpolicyValid⟩
    configs.policy
  refine ⟨⟨validation, result, taxonomy, _⟩, ?_, ⟨hvalidation, hmatch, ⟨_, htaxonomy⟩,
    ⟨_, hpolicy⟩⟩, ⟨hissues, hfields, hsized, hlength, hshort⟩⟩
  unfold evaluate
  rw [hvalidation, ok_bind, hmatch, ok_bind, construct_eq htaxonomyValid, ok_bind, htaxonomy,
    ok_bind, construct_eq hpolicyValid, ok_bind, hpolicy]
  rfl

end LiveServices

end InvoiceOps
