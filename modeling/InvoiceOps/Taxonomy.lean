import InvoiceOps.Matching

/-!
# The exception taxonomy

`classifyExceptions` turns the evidence of the earlier checks into findings under ten codes. What it
cannot map to a code stays unresolved. A request is only accepted if its evidence is about its own
extraction.
-/

namespace InvoiceOps

/-! ## Codes and evidence -/

/-- `ExceptionCode`. -/
inductive ExceptionCode where
  | dupExact | dupNear | priceMm | qtyMm | missingPo | bankChange | ccyMm | taxErr | mathErr
  | stalePo
  deriving DecidableEq, Repr

namespace ExceptionCode

/-- The value of a code. -/
def text : ExceptionCode → String
  | dupExact => "DUP_EXACT"
  | dupNear => "DUP_NEAR"
  | priceMm => "PRICE_MM"
  | qtyMm => "QTY_MM"
  | missingPo => "MISSING_PO"
  | bankChange => "BANK_CHANGE"
  | ccyMm => "CCY_MM"
  | taxErr => "TAX_ERR"
  | mathErr => "MATH_ERR"
  | stalePo => "STALE_PO"

/-- `CODE_ORDER`. -/
def order : List ExceptionCode :=
  [dupExact, dupNear, missingPo, bankChange, ccyMm, priceMm, qtyMm, taxErr, mathErr, stalePo]

/-- A code is read back by its value. -/
def codec : Codec ExceptionCode :=
  .literal text order fun x => by cases x <;> rfl

end ExceptionCode

/-- Where the evidence of a finding comes from. -/
inductive EvidenceSource where
  | ingest | similarity | matchIdentity | matchNumeric | validation | erp | policy
  deriving DecidableEq, Repr

namespace EvidenceSource

/-- The value of a source. -/
def text : EvidenceSource → String
  | ingest => "INGEST"
  | similarity => "SIMILARITY"
  | matchIdentity => "MATCH_IDENTITY"
  | matchNumeric => "MATCH_NUMERIC"
  | validation => "VALIDATION"
  | erp => "ERP"
  | policy => "POLICY"

/-- A source is read back by its value. -/
def codec : Codec EvidenceSource :=
  .literal text [ingest, similarity, matchIdentity, matchNumeric, validation, erp, policy]
    fun x => by cases x <;> rfl

end EvidenceSource

/-- `EvidenceRef`, before its field and its numbers are checked. -/
structure EvidenceRefData where
  source : EvidenceSource
  field : String
  lineNumber : Option ℕ := none
  sourceIndex : Option ℕ := none
  deriving DecidableEq

/-- The field is named in one to eighty characters, and lines are counted from one. -/
def EvidenceRefData.Valid (ref : EvidenceRefData) : Prop :=
  (1 ≤ ref.field.length ∧ ref.field.length ≤ 80) ∧ ∀ n ∈ ref.lineNumber, 0 < n

instance : DecidablePred EvidenceRefData.Valid :=
  fun _ => inferInstanceAs (Decidable (_ ∧ _))

/-- A reference that `EvidenceRef` accepts. -/
abbrev EvidenceRef := { ref : EvidenceRefData // ref.Valid }

/-- A code with its evidence. -/
structure ExceptionFinding where
  code : ExceptionCode
  evidence : EvidenceRef
  deriving DecidableEq

/-- `TaxonomyConfig`. -/
structure TaxonomyConfig where
  version : ConfigVersion
  deriving DecidableEq

/-- The `TaxonomyConfig` that is built without arguments. -/
def TaxonomyConfig.default : TaxonomyConfig :=
  ⟨⟨"exception-taxonomy@v1", by decide⟩⟩

/-- How a classification ended. -/
inductive TaxonomyStatus where
  | clean | exception | unclassified
  deriving DecidableEq, Repr

/-- `TaxonomyResult`, before its status and its codes are checked. -/
structure TaxonomyResultData where
  status : TaxonomyStatus
  codes : List ExceptionCode
  findings : List ExceptionFinding
  unresolved : List EvidenceRef
  inputSha256 : Sha256
  extractionSha256 : Option Sha256
  validationSha256 : Option Sha256
  matchSha256 : Option Sha256
  vendorBankSha256 : Option Sha256
  configSha256 : Sha256
  config : TaxonomyConfig
  deriving DecidableEq

namespace Taxonomy

/-- The codes that were found, in order. -/
def codesOf (findings : List ExceptionFinding) : List ExceptionCode :=
  ExceptionCode.order.filter fun code => findings.any fun f => f.code = code

/-- The status that follows from what was found. -/
def statusOf (findings : List ExceptionFinding) (unresolved : List EvidenceRef) : TaxonomyStatus :=
  if findings ≠ [] then .exception else if unresolved ≠ [] then .unclassified else .clean

end Taxonomy

/-- `consistent_result`. -/
def TaxonomyResultData.Valid (result : TaxonomyResultData) : Prop :=
  result.codes = Taxonomy.codesOf result.findings ∧
    result.status = Taxonomy.statusOf result.findings result.unresolved

instance : DecidablePred TaxonomyResultData.Valid :=
  fun _ => inferInstanceAs (Decidable (_ ∧ _))

/-- A result whose status and codes follow from its findings. -/
abbrev TaxonomyResult := { result : TaxonomyResultData // result.Valid }

/-! ## Results as JSON -/

/-- A reference as JSON ; it is checked as it is read. -/
def EvidenceRef.codec : Codec EvidenceRef :=
  ((Codec.record ((Fields.required "source" EvidenceSource.codec).and <|
      (Fields.required "field" Codec.string).and <|
      (Fields.default "line_number" (Codec.nat.nullable Codec.nat_ne_null) none).and <|
      .default "source_index" (Codec.nat.nullable Codec.nat_ne_null) none) (by simp)).map
    (fun (source, field, lineNumber, sourceIndex) =>
      (⟨source, field, lineNumber, sourceIndex⟩ : EvidenceRefData))
    (fun ref => (ref.source, ref.field, ref.lineNumber, ref.sourceIndex)) fun _ => rfl).check
    EvidenceRefData.Valid fun ref h => by
      refine ⟨h.1, fun n hn => h.2 n ?_⟩
      obtain ⟨m, hm, rfl⟩ := Option.map_eq_some_iff.mp hn
      exact hm

/-- A finding as JSON. -/
def ExceptionFinding.codec : Codec ExceptionFinding :=
  (Codec.record ((Fields.required "code" ExceptionCode.codec).and <|
      .required "evidence" EvidenceRef.codec) (by simp)).map
    (fun (code, evidence) => ⟨code, evidence⟩)
    (fun finding => (finding.code, finding.evidence)) fun _ => rfl

theorem canon_evidenceRef (ref : EvidenceRef) : EvidenceRef.codec.canon ref = ref := by
  obtain ⟨⟨source, field, lineNumber, sourceIndex⟩, h⟩ := ref
  refine Subtype.ext ?_
  cases lineNumber <;> cases sourceIndex <;> rfl

theorem canon_finding (finding : ExceptionFinding) :
    ExceptionFinding.codec.canon finding = finding := by
  obtain ⟨code, evidence⟩ := finding
  exact congrArg (ExceptionFinding.mk code) (canon_evidenceRef evidence)

/-- A configuration as JSON. -/
def TaxonomyConfig.codec : Codec TaxonomyConfig :=
  (Codec.record (.default "version" ConfigVersion.codec TaxonomyConfig.default.version)
    (by simp)).map TaxonomyConfig.mk TaxonomyConfig.version fun _ => rfl

namespace TaxonomyStatus

/-- The value of a status. -/
def text : TaxonomyStatus → String
  | clean => "CLEAN"
  | exception => "EXCEPTION"
  | unclassified => "UNCLASSIFIED"

/-- A status is read back by its value. -/
def codec : Codec TaxonomyStatus :=
  .literal text [clean, exception, unclassified] fun x => by cases x <;> rfl

end TaxonomyStatus

/-- A result as JSON ; it is checked as it is read. -/
def TaxonomyResult.codec : Codec TaxonomyResult :=
  ((Codec.record ((Fields.required "status" TaxonomyStatus.codec).and <|
      (Fields.required "codes" ExceptionCode.codec.list).and <|
      (Fields.required "findings" ExceptionFinding.codec.list).and <|
      (Fields.required "unresolved" EvidenceRef.codec.list).and <|
      (Fields.required "input_sha256" Sha256.codec).and <|
      (Fields.default "extraction_sha256" (Sha256.codec.nullable Sha256.dump_ne_null) none).and <|
      (Fields.default "validation_sha256" (Sha256.codec.nullable Sha256.dump_ne_null) none).and <|
      (Fields.default "match_sha256" (Sha256.codec.nullable Sha256.dump_ne_null) none).and <|
      (Fields.default "vendor_bank_sha256" (Sha256.codec.nullable Sha256.dump_ne_null) none).and <|
      (Fields.required "config_sha256" Sha256.codec).and <|
      .required "config" TaxonomyConfig.codec) (by simp)).map
    (fun (status, codes, findings, unresolved, inputSha256, extractionSha256, validationSha256,
        matchSha256, vendorBankSha256, configSha256, config) =>
      (⟨status, codes, findings, unresolved, inputSha256, extractionSha256, validationSha256,
        matchSha256, vendorBankSha256, configSha256, config⟩ : TaxonomyResultData))
    (fun result => (result.status, result.codes, result.findings, result.unresolved,
      result.inputSha256, result.extractionSha256, result.validationSha256, result.matchSha256,
      result.vendorBankSha256, result.configSha256, result.config)) fun _ => rfl).check
    TaxonomyResultData.Valid fun result h => by
      have hcodes := Codec.canon_list ExceptionCode.codec (fun _ => rfl) result.codes
      have hfindings := Codec.canon_list _ canon_finding result.findings
      have hunresolved := Codec.canon_list _ canon_evidenceRef result.unresolved
      obtain ⟨hcodesValid, hstatus⟩ := h
      refine ⟨?_, ?_⟩
      · rw [← hfindings, ← hcodes] at hcodesValid
        exact hcodesValid
      · rw [← hfindings, ← hunresolved] at hstatus
        exact hstatus

/-! ## Requests -/

/-- `TaxonomyRequest`, before its evidence is checked. -/
structure TaxonomyRequestData where
  runId : Uuid
  invoiceId : Uuid
  traceId : { s : String // isTraceId s }
  extraction : Option InvoiceExtraction := none
  validation : Option ValidationResult := none
  «match» : Option MatchResult := none
  vendorBankIban : Option (Text 0 64) := none
  exactDuplicate : Bool := false
  nearDuplicate : Bool := false
  stalePo : Bool := false
  deriving DecidableEq

/-- `consistent_provenance`. -/
def TaxonomyRequestData.Valid (host : Host) (request : TaxonomyRequestData) : Prop :=
  match request.extraction with
  | none => (request.exactDuplicate || request.nearDuplicate || request.stalePo) ∧
      request.validation = none ∧ request.match = none
  | some extraction =>
    (∀ v ∈ request.validation, v.val.inputSha256 =
        host.modelDigest (InvoiceExtraction.codec host) extraction) ∧
      ∀ m ∈ request.match, m.val.extractionSha256 =
        host.modelDigest (InvoiceExtraction.codec host) extraction

instance (host : Host) : DecidablePred (TaxonomyRequestData.Valid host) := fun request =>
  match h : request.extraction with
  | none => decidable_of_iff ((request.exactDuplicate || request.nearDuplicate ||
      request.stalePo) ∧ request.validation = none ∧ request.match = none) (by
        rw [TaxonomyRequestData.Valid, h])
  | some extraction => decidable_of_iff ((∀ v ∈ request.validation, v.val.inputSha256 =
        host.modelDigest (InvoiceExtraction.codec host) extraction) ∧
      ∀ m ∈ request.match, m.val.extractionSha256 =
        host.modelDigest (InvoiceExtraction.codec host) extraction) (by
        rw [TaxonomyRequestData.Valid, h])

/-- A request whose evidence belongs together. -/
abbrev TaxonomyRequest (host : Host) :=
  { request : TaxonomyRequestData // request.Valid host }

/-- A trace identifier as JSON. -/
def traceIdCodec : Codec { s : String // isTraceId s } :=
  Codec.string.check (fun s => isTraceId s) fun _ h => h

/-- A request as JSON, as its digest covers it. -/
def TaxonomyRequestData.codec (host : Host) : Codec TaxonomyRequestData :=
  (Codec.record ((Fields.required "run_id" host.uuid).and <|
      (Fields.required "invoice_id" host.uuid).and <|
      (Fields.required "trace_id" traceIdCodec).and <|
      (Fields.default "extraction" ((InvoiceExtraction.codec host).nullable fun _ => nofun)
        none).and <|
      (Fields.default "validation" (ValidationResult.codec.nullable fun _ => nofun) none).and <|
      (Fields.default "match" (MatchResult.codec.nullable fun _ => nofun) none).and <|
      (Fields.default "vendor_bank_iban" ((Text.codec 0 64).nullable fun _ => nofun) none).and <|
      (Fields.default "exact_duplicate" Codec.bool false).and <|
      (Fields.default "near_duplicate" Codec.bool false).and <|
      .default "stale_po" Codec.bool false) (by simp)).map
    (fun (runId, invoiceId, traceId, extraction, validation, «match», vendorBankIban,
        exactDuplicate, nearDuplicate, stalePo) =>
      ⟨runId, invoiceId, traceId, extraction, validation, «match», vendorBankIban,
        exactDuplicate, nearDuplicate, stalePo⟩)
    (fun request => (request.runId, request.invoiceId, request.traceId, request.extraction,
      request.validation, request.match, request.vendorBankIban, request.exactDuplicate,
      request.nearDuplicate, request.stalePo)) fun _ => rfl

/-! ## Classification -/

/-- Evidence, under a code or unresolved. -/
inductive Note where
  | finding (finding : ExceptionFinding)
  | unresolved (evidence : EvidenceRef)
  deriving DecidableEq

namespace Note

/-- The finding of a note, if it is one. -/
def finding? : Note → Option ExceptionFinding
  | finding f => some f
  | unresolved _ => none

/-- The evidence of a note that no code covers. -/
def unresolved? : Note → Option EvidenceRef
  | finding _ => none
  | unresolved e => some e

end Note

namespace Taxonomy

/-- `EvidenceRef(...)`. -/
def newRef (ref : EvidenceRefData) : Except Exn EvidenceRef :=
  construct "EvidenceRef" EvidenceRefData.Valid ref

/-- `add`, or an unresolved reference if there is no code. -/
def note (code : Option ExceptionCode) (ref : EvidenceRefData) : Except Exn Note := do
  let evidence ← newRef ref
  match code with
  | some code => return .finding ⟨code, evidence⟩
  | none => return .unresolved evidence

/-- `add`, if a signal is on. -/
def signal (on : Bool) (code : ExceptionCode) (source : EvidenceSource) (field : String) :
    Except Exn (List Note) :=
  if on then do
    let finding ← note (some code) { source := source, field := field }
    return [finding]
  else .ok []

/-- The code of an identity that does not match. -/
def identityCode (check : IdentityCheck) : Option ExceptionCode :=
  if check.status = .mismatch ∧ check.field = .currency then some .ccyMm else none

/-- `_QUANTITY_FIELDS`. -/
def quantityFields : List NumericField :=
  [.quantityOrdered, .quantityReceived, .receiptVsOrder, .receiptVsOrderTotal]

/-- The code of a number that does not match. -/
def numericCode (check : NumericCheckData) : Option ExceptionCode :=
  if check.status = .mismatch ∧ check.field = .unitPrice then some .priceMm
  else if check.status = .mismatch ∧ check.field ∈ quantityFields then some .qtyMm
  else none

/-- `_TAX_ISSUES`. -/
def taxIssues : List IssueCode :=
  [.taxMismatch, .taxRateOutOfRange]

/-- `_MATH_ISSUES`. -/
def mathIssues : List IssueCode :=
  [.lineMathMismatch, .subtotalMismatch, .totalMismatch, .negativeValue, .nonpositiveQuantity]

/-- The code of a validation issue. -/
def issueCode (code : IssueCode) : Option ExceptionCode :=
  if code ∈ taxIssues then some .taxErr else if code ∈ mathIssues then some .mathErr else none

/-- The notes on the identity checks that do not match. -/
def identityNotes (checks : List IdentityCheck) : Except Exn (List Note) :=
  (checks.zipIdx.filter fun c => c.1.status ≠ .match).mapM fun c =>
    note (identityCode c.1)
      ⟨.matchIdentity, c.1.field.text, c.1.lineNumber.map Subtype.val, some c.2⟩

/-- The notes on the numeric checks that do not match. -/
def numericNotes (checks : List NumericCheck) : Except Exn (List Note) :=
  (checks.zipIdx.filter fun c => c.1.val.status ≠ .match).mapM fun c =>
    note (numericCode c.1.val)
      ⟨.matchNumeric, c.1.val.field.text, c.1.val.lineNumber.map Subtype.val, some c.2⟩

/-- The notes on a match. -/
def matchNotes (result : MatchResultData) : Except Exn (List Note) := do
  let missing ← signal (!result.snapshotFound) .missingPo .matchIdentity "po_number"
  let stale ← signal (result.poStatus = some "CLOSED" || result.poStatus = some "CANCELLED")
    .stalePo .erp "po_status"
  let identity ← identityNotes result.identityChecks
  let numeric ← numericNotes result.numericChecks
  return missing ++ stale ++ identity ++ numeric

/-- The notes on a validation, one for each of its issues. -/
def validationNotes (result : ValidationResultData) : Except Exn (List Note) :=
  result.issues.zipIdx.mapM fun issue =>
    note (issueCode issue.1.val.code)
      ⟨.validation, issue.1.val.field, issue.1.val.lineNumber, some issue.2⟩

/-- A check that did not run. -/
def notRun (source : EvidenceSource) (extraction : Option InvoiceExtraction) :
    Except Exn (List Note) :=
  if extraction.isSome then do
    let missing ← note none { source := source, field := "not_run" }
    return [missing]
  else .ok []

/-- `_iban`. -/
def iban (host : Host) (value : String) : String :=
  host.upper (String.ofList (value.toList.filter fun c => !isPythonSpace c))

/-- The comparison of the bank accounts. -/
def bankNotes (host : Host) (extraction : InvoiceExtraction) (vendor : Option String) :
    Except Exn (List Note) := do
  let evidence : EvidenceRefData := { source := .erp, field := "bank_account_iban" }
  match Match.text? extraction.bankAccountIban, vendor with
  | some observed, some vendor =>
    if observed = "" ∨ vendor = "" ∨ iban host observed = "" ∨ iban host vendor = "" then
      let unresolved ← note none evidence
      return [unresolved]
    else if iban host observed ≠ iban host vendor then
      let finding ← note (some .bankChange) evidence
      return [finding]
    else return []
  | _, _ =>
    let unresolved ← note none evidence
    return [unresolved]

/-- All the evidence, but for an old purchase order. -/
def notes (host : Host) (request : TaxonomyRequestData) : Except Exn (List Note) := do
  let exact ← signal request.exactDuplicate .dupExact .ingest "content_hash"
  let near ← signal request.nearDuplicate .dupNear .similarity "invoice_similarity"
  let matching ← request.match.elim (notRun .matchIdentity request.extraction)
    fun m => matchNotes m.val
  let validation ← request.validation.elim (notRun .validation request.extraction)
    fun v => validationNotes v.val
  let bank ← request.extraction.elim (.ok []) fun e =>
    bankNotes host e (request.vendorBankIban.map Subtype.val)
  return exact ++ near ++ matching ++ validation ++ bank

/-- The fingerprint of the account that is expected. -/
def vendorBank (host : Host) (vendor : Option String) : Option Sha256 :=
  vendor.bind fun vendor =>
    if vendor = "" ∨ iban host vendor = "" then none else some (host.sha256 (iban host vendor))

/-- `TaxonomyResult` as the classification builds it. -/
def result (host : Host) (request : TaxonomyRequestData) (policy : TaxonomyConfig)
    (findings : List ExceptionFinding) (unresolved : List EvidenceRef) : TaxonomyResultData where
  status := statusOf findings unresolved
  codes := codesOf findings
  findings := findings
  unresolved := unresolved
  inputSha256 := host.modelDigest (TaxonomyRequestData.codec host) request
  extractionSha256 := request.extraction.map (host.modelDigest (InvoiceExtraction.codec host))
  validationSha256 := request.validation.map (host.modelDigest ValidationResult.codec)
  matchSha256 := request.match.map (host.modelDigest MatchResult.codec)
  vendorBankSha256 := vendorBank host (request.vendorBankIban.map Subtype.val)
  configSha256 := host.modelDigest TaxonomyConfig.codec policy
  config := policy

end Taxonomy

/-- `classify_exceptions`. -/
def classifyExceptions (host : Host) (request : TaxonomyRequest host)
    (config : Option TaxonomyConfig := none) : Except Exn TaxonomyResult := do
  let policy := config.getD .default
  let notes ← Taxonomy.notes host request.val
  let findings := notes.filterMap Note.finding?
  let old ← Taxonomy.signal
    (request.val.stalePo && !findings.any fun f => f.code = .stalePo) .stalePo .policy "stale_po"
  construct "TaxonomyResult" TaxonomyResultData.Valid (Taxonomy.result host request.val policy
    (findings ++ old.filterMap Note.finding?) (notes.filterMap Note.unresolved?))

end InvoiceOps
