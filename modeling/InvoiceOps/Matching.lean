import InvoiceOps.Erp
import InvoiceOps.Validation

/-!
# Three-way matching

`matchInvoice` compares an extraction with an ERP snapshot : four identities of the header and three
amounts, then the description and five numbers of each purchase order line, against the invoice
line at its position. What is missing on the invoice is unknown.
-/

open Decimal (Arithmetic)

namespace InvoiceOps

/-! ## Configuration and snapshot -/

/-- An absolute tolerance, in the currency of the invoice. -/
abbrev AbsoluteTolerance := { d : Decimal // 0 ≤ d.value ∧ d.value ≤ 100 }

/-- A relative tolerance, as a share of the expected value. -/
abbrev RelativeTolerance := { d : Decimal // 0 ≤ d.value ∧ d.value ≤ 1 }

/-- `MatchConfig`. -/
structure MatchConfig where
  version : ConfigVersion
  priceAbsoluteTolerance : AbsoluteTolerance
  priceRelativeTolerance : RelativeTolerance
  quantityAbsoluteTolerance : AbsoluteTolerance
  lineTotalAbsoluteTolerance : AbsoluteTolerance
  lineTotalRelativeTolerance : RelativeTolerance
  amountAbsoluteTolerance : AbsoluteTolerance
  amountRelativeTolerance : RelativeTolerance
  deriving DecidableEq

namespace MatchConfig

/-- One cent. -/
def cent : AbsoluteTolerance :=
  ⟨⟨false, 1, -2⟩, by decide +kernel⟩

/-- Half a percent. -/
def halfPercent : RelativeTolerance :=
  ⟨⟨false, 5, -3⟩, by decide +kernel⟩

/-- The `MatchConfig` that is built without arguments. -/
def default : MatchConfig where
  version := ⟨"three-way-match@v1", by decide⟩
  priceAbsoluteTolerance := cent
  priceRelativeTolerance := halfPercent
  quantityAbsoluteTolerance := ⟨.zero, by decide +kernel⟩
  lineTotalAbsoluteTolerance := cent
  lineTotalRelativeTolerance := halfPercent
  amountAbsoluteTolerance := cent
  amountRelativeTolerance := halfPercent

end MatchConfig

/-- `ERPSnapshot`, before its identities are checked. -/
structure ERPSnapshotData where
  vendor : Vendor
  purchaseOrder : PurchaseOrder
  goodsReceipts : { receipts : List GoodsReceipt // receipts.length ≤ 100 }
  deriving DecidableEq

namespace ERPSnapshotData

variable (snapshot : ERPSnapshotData)

/-- The lines of the purchase order. -/
def poLines : List PurchaseOrderLine :=
  snapshot.purchaseOrder.lines.val

/-- `po_lines.get`. -/
def sku? (number : LineNumber) : Option (Text 1 128) :=
  (snapshot.poLines.find? fun line => line.lineNumber = number).map PurchaseOrderLine.sku

/-- `consistent_relations`. -/
structure Valid : Prop where
  vendor : snapshot.vendor.id = snapshot.purchaseOrder.vendorId
  order : ∀ receipt ∈ snapshot.goodsReceipts.val,
    receipt.purchaseOrderId = snapshot.purchaseOrder.id
  nonempty : snapshot.poLines ≠ []
  numbers : snapshot.poLines.map (fun line => line.lineNumber.val) =
    List.range' 1 snapshot.poLines.length
  receipts : (snapshot.goodsReceipts.val.map GoodsReceipt.id).Nodup
  receiptLines : ∀ receipt ∈ snapshot.goodsReceipts.val,
    (receipt.lines.val.map ReceiptLine.lineNumber).Nodup
  skus : ∀ receipt ∈ snapshot.goodsReceipts.val, ∀ line ∈ receipt.lines.val,
    snapshot.sku? line.lineNumber = some line.sku

instance : DecidablePred Valid := fun snapshot =>
  decidable_of_iff
    (snapshot.vendor.id = snapshot.purchaseOrder.vendorId ∧
      (∀ receipt ∈ snapshot.goodsReceipts.val,
        receipt.purchaseOrderId = snapshot.purchaseOrder.id) ∧
      snapshot.poLines ≠ [] ∧
      snapshot.poLines.map (fun line => line.lineNumber.val) =
        List.range' 1 snapshot.poLines.length ∧
      (snapshot.goodsReceipts.val.map GoodsReceipt.id).Nodup ∧
      (∀ receipt ∈ snapshot.goodsReceipts.val,
        (receipt.lines.val.map ReceiptLine.lineNumber).Nodup) ∧
      ∀ receipt ∈ snapshot.goodsReceipts.val, ∀ line ∈ receipt.lines.val,
        snapshot.sku? line.lineNumber = some line.sku)
    ⟨fun ⟨h₁, h₂, h₃, h₄, h₅, h₆, h₇⟩ => ⟨h₁, h₂, h₃, h₄, h₅, h₆, h₇⟩,
      fun h => ⟨h.vendor, h.order, h.nonempty, h.numbers, h.receipts, h.receiptLines, h.skus⟩⟩

end ERPSnapshotData

/-- A snapshot whose lines and identities fit together. -/
abbrev ERPSnapshot := { snapshot : ERPSnapshotData // snapshot.Valid }

/-- `MatchRequest`. -/
structure MatchRequest where
  runId : Uuid
  invoiceId : Uuid
  traceId : { s : String // isTraceId s }
  extraction : InvoiceExtraction
  snapshot : Option ERPSnapshot
  deriving DecidableEq

/-! ## Results -/

/-- How a check ended : `unknown` where a value to compare is missing. -/
inductive CheckStatus where
  | «match» | mismatch | unknown
  deriving DecidableEq, Repr

/-- What an identity check is about. -/
inductive IdentityField where
  | poNumber | vendorName | currency | lineCount | description
  deriving DecidableEq, Repr

/-- What a numeric check is about. -/
inductive NumericField where
  | unitPrice | quantityOrdered | quantityReceived | receiptVsOrder | lineTotal | subtotalOrdered
  | subtotalReceived | receiptVsOrderTotal
  deriving DecidableEq, Repr

/-- What a numeric check asks of the actual value : that it is the expected one within the
tolerance, or at most that. -/
inductive MatchRule where
  | equal | atMost
  deriving DecidableEq, Repr

/-- A comparison of two texts. -/
structure IdentityCheck where
  field : IdentityField
  lineNumber : Option LineNumber
  expected : Option String
  actual : Option String
  status : CheckStatus
  deriving DecidableEq

/-- `NumericCheck`, before its tolerance is checked : a comparison of two numbers. -/
structure NumericCheckData where
  field : NumericField
  lineNumber : Option LineNumber
  rule : MatchRule
  expected : Option Decimal
  actual : Option Decimal
  difference : Option Decimal
  tolerance : Option Decimal
  status : CheckStatus
  deriving DecidableEq

/-- A tolerance is not negative. -/
def NumericCheckData.Valid (check : NumericCheckData) : Prop :=
  ∀ t ∈ check.tolerance, 0 ≤ t.value

instance : DecidablePred NumericCheckData.Valid :=
  fun _ => inferInstanceAs (Decidable (∀ t ∈ _, _))

/-- A numeric check that `NumericCheck` accepts. -/
abbrev NumericCheck := { check : NumericCheckData // check.Valid }

/-- How a match ended. -/
inductive MatchStatus where
  | pass | fail | incomplete
  deriving DecidableEq, Repr

/-- `MatchResult`, before its checks are compared with its status. -/
structure MatchResultData where
  status : MatchStatus
  snapshotFound : Bool
  poNumber : Option String
  poStatus : Option String
  extractionSha256 : Sha256
  snapshotSha256 : Option Sha256
  configSha256 : Sha256
  config : MatchConfig
  identityChecks : List IdentityCheck
  numericChecks : List NumericCheck
  deriving DecidableEq

namespace MatchResultData

variable (result : MatchResultData)

/-- How the checks of a result ended. -/
def statuses : List CheckStatus :=
  result.identityChecks.map IdentityCheck.status ++
    result.numericChecks.map fun check => check.val.status

/-- `consistent_decision`. -/
def Valid : Prop :=
  result.snapshotFound = result.snapshotSha256.isSome ∧
    result.status =
      if .mismatch ∈ result.statuses then .fail
      else if result.snapshotFound = false ∨ .unknown ∈ result.statuses then .incomplete
      else .pass

instance : DecidablePred Valid :=
  fun _ => inferInstanceAs (Decidable (_ ∧ _))

end MatchResultData

/-- A result whose status follows from its checks. -/
abbrev MatchResult := { result : MatchResultData // result.Valid }

/-! ## The comparisons -/

/-- `_text`. -/
def Host.text (host : Host) (value : String) : String :=
  let words := (host.casefold (host.nfkc value)).toList.splitOnP isPythonSpace
  " ".intercalate ((words.filter (· ≠ [])).map String.ofList)

namespace Match

/-- `_identity`. -/
def identity (host : Host) (field : IdentityField) (expected : String) (actual : Option String)
    (lineNumber : Option LineNumber := none) : IdentityCheck :=
  { field := field
    lineNumber := lineNumber
    expected := some expected
    actual := actual
    status :=
      match actual with
      | none => .unknown
      | some actual =>
        if isBlank actual then .unknown
        else if host.text expected = host.text actual then .match else .mismatch }

/-- `NumericCheck(...)`. -/
def newCheck (check : NumericCheckData) : Except Exn NumericCheck :=
  construct "NumericCheck" NumericCheckData.Valid check

/-- Whether a difference is within the tolerance. -/
def within [Arithmetic Exn] (rule : MatchRule) (difference tolerance : Decimal) : Except Exn Bool :=
  match rule with
  | .equal => do
    let size ← Arithmetic.abs difference
    return size.value ≤ tolerance.value
  | .atMost => .ok (difference.value ≤ tolerance.value)

/-- `max`. -/
def larger (a b : Decimal) : Decimal :=
  if a.value < b.value then b else a

/-- `_numeric`. -/
def numeric [Arithmetic Exn] (field : NumericField) (lineNumber : Option LineNumber)
    (rule : MatchRule) (expected : Decimal) (actual : Option Decimal) (absoluteTolerance : Decimal)
    (relativeTolerance : Decimal := .zero) (positiveActual : Bool := false) :
    Except Exn NumericCheck :=
  match actual with
  | none => newCheck ⟨field, lineNumber, rule, some expected, none, none, none, .unknown⟩
  | some actual => do
    let size ← Arithmetic.abs expected
    let relative ← Arithmetic.mul size relativeTolerance
    let tolerance := larger absoluteTolerance relative
    let difference ← Arithmetic.sub actual expected
    let invalidSign : Bool := actual.value < 0 || (positiveActual && actual.value = 0)
    let close ← within rule difference tolerance
    newCheck ⟨field, lineNumber, rule, some expected, some actual, some difference,
      some tolerance, if close && !invalidSign then .match else .mismatch⟩

/-- `totals[number]`. -/
def total (totals : LineNumber → Option Decimal) (number : LineNumber) : Except Exn Decimal :=
  match totals number with
  | some d => .ok d
  | none => .error (.new (.other "KeyError") (toString number.val))

/-- `totals[line.line_number] += line.received_quantity`. -/
def addLine [Arithmetic Exn] (totals : LineNumber → Option Decimal) (line : ReceiptLine) :
    Except Exn (LineNumber → Option Decimal) := do
  let quantity ← total totals line.lineNumber
  let quantity ← Arithmetic.add quantity line.receivedQuantity.val
  return Function.update totals line.lineNumber (some quantity)

/-- `_received`, over the lines of the receipts in order. -/
def received [Arithmetic Exn] (snapshot : ERPSnapshotData) :
    Except Exn (LineNumber → Option Decimal) :=
  (snapshot.goodsReceipts.val.flatMap fun receipt => receipt.lines.val).foldlM addLine
    fun number => if number ∈ snapshot.poLines.map PurchaseOrderLine.lineNumber then some .zero
      else none

/-- What was received, at the prices of the order. -/
def receivedValue [Arithmetic Exn] (received : LineNumber → Option Decimal)
    (lines : List PurchaseOrderLine) : Except Exn Decimal := do
  let values ← lines.mapM fun line => do
    let quantity ← total received line.lineNumber
    Arithmetic.mul quantity line.unitPrice.val
  Arithmetic.sum values .zero

/-- The checks of the amounts. -/
def headerNumbers [Arithmetic Exn] (policy : MatchConfig) (order : PurchaseOrder)
    (subtotal : Option Decimal) (receivedValue : Decimal) : Except Exn (List NumericCheck) := do
  let absolute := policy.amountAbsoluteTolerance.val
  let relative := policy.amountRelativeTolerance.val
  let ordered ←
    numeric .subtotalOrdered none .atMost order.totalAmount.val subtotal absolute relative
  let receivedCheck ←
    numeric .subtotalReceived none .atMost receivedValue subtotal absolute relative
  let receipt ← numeric .receiptVsOrderTotal none .atMost order.totalAmount.val
    (some receivedValue) absolute relative
  return [ordered, receivedCheck, receipt]

/-- The check of a line's total, which needs the quantity. -/
def lineTotal [Arithmetic Exn] (policy : MatchConfig) (line : PurchaseOrderLine)
    (quantity actual : Option Decimal) : Except Exn NumericCheck :=
  match quantity with
  | none => newCheck ⟨.lineTotal, some line.lineNumber, .equal, none, actual, none, none, .unknown⟩
  | some quantity => do
    let expected ← Arithmetic.mul quantity line.unitPrice.val
    numeric .lineTotal (some line.lineNumber) .equal expected actual
      policy.lineTotalAbsoluteTolerance.val policy.lineTotalRelativeTolerance.val

/-- The checks of a line's numbers. -/
def lineNumbers [Arithmetic Exn] (policy : MatchConfig) (received : LineNumber → Option Decimal)
    (line : PurchaseOrderLine) (invoiceLine : Option InvoiceLineItem) :
    Except Exn (List NumericCheck) := do
  let number := some line.lineNumber
  let quantity := invoiceLine.bind fun l => decimal? l.quantity
  let absolute := policy.quantityAbsoluteTolerance.val
  let price ← numeric .unitPrice number .equal line.unitPrice.val
    (invoiceLine.bind fun l => decimal? l.unitPrice) policy.priceAbsoluteTolerance.val
    policy.priceRelativeTolerance.val
  let ordered ←
    numeric .quantityOrdered number .atMost line.quantity.val quantity absolute .zero true
  let arrived ← total received line.lineNumber
  let receivedCheck ←
    numeric .quantityReceived number .atMost arrived quantity absolute .zero true
  let receipt ←
    numeric .receiptVsOrder number .atMost line.quantity.val (some arrived) absolute
  let lineTotal ← lineTotal policy line quantity (invoiceLine.bind fun l => decimal? l.lineTotal)
  return [price, ordered, receivedCheck, receipt, lineTotal]

/-- The invoice line of a purchase order line. -/
def invoiceLine (extraction : InvoiceExtraction) (line : PurchaseOrderLine) :
    Option InvoiceLineItem :=
  extraction.lineItems.val[line.lineNumber.val - 1]?

/-- The text of a field. -/
def text? {p : String → Prop} (field : ExtractedField { s // p s }) : Option String :=
  field.value.map Subtype.val

/-- The checks of the header : the order number, the vendor's name, the currency. -/
def headerIdentities (host : Host) (extraction : InvoiceExtraction) (snapshot : ERPSnapshotData) :
    List IdentityCheck :=
  [identity host .poNumber snapshot.purchaseOrder.poNumber.val (text? extraction.poNumber),
    identity host .vendorName snapshot.vendor.name.val (text? extraction.vendorName),
    identity host .currency snapshot.purchaseOrder.currency.text (text? extraction.currency),
    identity host .lineCount (toString snapshot.poLines.length)
      (some (toString extraction.lineItems.val.length))]

/-- The check of a line's description against the order's. -/
def lineIdentity (host : Host) (extraction : InvoiceExtraction) (line : PurchaseOrderLine) :
    IdentityCheck :=
  identity host .description line.description.val
    ((invoiceLine extraction line).bind fun l => text? l.description) (some line.lineNumber)

/-- All the numeric checks. -/
def numericChecks [Arithmetic Exn] (extraction : InvoiceExtraction) (snapshot : ERPSnapshotData)
    (policy : MatchConfig) : Except Exn (List NumericCheck) := do
  let received ← received snapshot
  let receivedValue ← receivedValue received snapshot.poLines
  let header ← headerNumbers policy snapshot.purchaseOrder (decimal? extraction.subtotal)
    receivedValue
  let lines ← snapshot.poLines.mapM fun line =>
    lineNumbers policy received line (invoiceLine extraction line)
  return header ++ lines.flatten

end Match

/-! ## As JSON -/

namespace CheckStatus

/-- The value of a status. -/
def text : CheckStatus → String
  | «match» => "MATCH"
  | mismatch => "MISMATCH"
  | unknown => "UNKNOWN"

/-- A status is read back by its value. -/
def codec : Codec CheckStatus :=
  .literal text [«match», mismatch, unknown] fun x => by cases x <;> rfl

end CheckStatus

namespace IdentityField

/-- The value of a field. -/
def text : IdentityField → String
  | poNumber => "po_number"
  | vendorName => "vendor_name"
  | currency => "currency"
  | lineCount => "line_count"
  | description => "description"

/-- A field is read back by its value. -/
def codec : Codec IdentityField :=
  .literal text [poNumber, vendorName, currency, lineCount, description]
    fun x => by cases x <;> rfl

end IdentityField

namespace NumericField

/-- The value of a field. -/
def text : NumericField → String
  | unitPrice => "unit_price"
  | quantityOrdered => "quantity_ordered"
  | quantityReceived => "quantity_received"
  | receiptVsOrder => "receipt_vs_order"
  | lineTotal => "line_total"
  | subtotalOrdered => "subtotal_ordered"
  | subtotalReceived => "subtotal_received"
  | receiptVsOrderTotal => "receipt_vs_order_total"

/-- A field is read back by its value. -/
def codec : Codec NumericField :=
  .literal text [unitPrice, quantityOrdered, quantityReceived, receiptVsOrder, lineTotal,
    subtotalOrdered, subtotalReceived, receiptVsOrderTotal] fun x => by cases x <;> rfl

end NumericField

namespace MatchRule

/-- The value of a rule. -/
def text : MatchRule → String
  | equal => "equal"
  | atMost => "at_most"

/-- A rule is read back by its value. -/
def codec : Codec MatchRule :=
  .literal text [equal, atMost] fun x => by cases x <;> rfl

end MatchRule

namespace MatchStatus

/-- The value of a status. -/
def text : MatchStatus → String
  | pass => "PASS"
  | fail => "FAIL"
  | incomplete => "INCOMPLETE"

/-- A status is read back by its value. -/
def codec : Codec MatchStatus :=
  .literal text [pass, fail, incomplete] fun x => by cases x <;> rfl

end MatchStatus

/-- A tolerance up to a bound. -/
def toleranceCodec (bound : ℚ) : Codec { d : Decimal // 0 ≤ d.value ∧ d.value ≤ bound } :=
  exactWhere _ fun d h => by rwa [Decimal.value_canonical]

/-- A configuration as JSON ; what it leaves out is as in the default one. -/
def MatchConfig.codec : Codec MatchConfig :=
  (Codec.record
    ((Fields.default "version" ConfigVersion.codec MatchConfig.default.version).and <|
      (Fields.default "price_absolute_tolerance" (toleranceCodec 100) cent).and <|
      (Fields.default "price_relative_tolerance" (toleranceCodec 1) halfPercent).and <|
      (Fields.default "quantity_absolute_tolerance" (toleranceCodec 100)
        MatchConfig.default.quantityAbsoluteTolerance).and <|
      (Fields.default "line_total_absolute_tolerance" (toleranceCodec 100) cent).and <|
      (Fields.default "line_total_relative_tolerance" (toleranceCodec 1) halfPercent).and <|
      (Fields.default "amount_absolute_tolerance" (toleranceCodec 100) cent).and <|
      .default "amount_relative_tolerance" (toleranceCodec 1) halfPercent) (by simp)).map
    (fun (version, priceAbsolute, priceRelative, quantityAbsolute, lineTotalAbsolute,
        lineTotalRelative, amountAbsolute, amountRelative) =>
      ⟨version, priceAbsolute, priceRelative, quantityAbsolute, lineTotalAbsolute,
        lineTotalRelative, amountAbsolute, amountRelative⟩)
    (fun config => (config.version, config.priceAbsoluteTolerance, config.priceRelativeTolerance,
      config.quantityAbsoluteTolerance, config.lineTotalAbsoluteTolerance,
      config.lineTotalRelativeTolerance, config.amountAbsoluteTolerance,
      config.amountRelativeTolerance)) fun _ => rfl

/-- An identity check as JSON. -/
def IdentityCheck.codec : Codec IdentityCheck :=
  (Codec.record ((Fields.required "field" IdentityField.codec).and <|
      (Fields.default "line_number" (LineNumber.codec.nullable fun _ => nofun) none).and <|
      (Fields.required "expected" (Codec.string.nullable Codec.string_ne_null)).and <|
      (Fields.required "actual" (Codec.string.nullable Codec.string_ne_null)).and <|
      .required "status" CheckStatus.codec) (by simp)).map
    (fun (field, lineNumber, expected, actual, status) =>
      ⟨field, lineNumber, expected, actual, status⟩)
    (fun check => (check.field, check.lineNumber, check.expected, check.actual, check.status))
    fun _ => rfl

/-- A numeric check as JSON ; its tolerance is checked as it is read. -/
def NumericCheck.codec : Codec NumericCheck :=
  ((Codec.record ((Fields.required "field" NumericField.codec).and <|
      (Fields.default "line_number" (LineNumber.codec.nullable fun _ => nofun) none).and <|
      (Fields.required "rule" MatchRule.codec).and <|
      (Fields.required "expected" nullableDecimal).and <|
      (Fields.required "actual" nullableDecimal).and <|
      (Fields.required "difference" nullableDecimal).and <|
      (Fields.required "tolerance" nullableDecimal).and <|
      .required "status" CheckStatus.codec) (by simp)).map
    (fun (field, lineNumber, rule, expected, actual, difference, tolerance, status) =>
      (⟨field, lineNumber, rule, expected, actual, difference, tolerance, status⟩ :
        NumericCheckData))
    (fun check => (check.field, check.lineNumber, check.rule, check.expected, check.actual,
      check.difference, check.tolerance, check.status)) fun _ => rfl).check
    NumericCheckData.Valid fun check h t ht => by
      obtain ⟨s, hs, rfl⟩ := Option.map_eq_some_iff.mp ht
      exact (h s hs).trans_eq (Decimal.value_canonical s).symm

/-- A result as JSON ; its status is checked against its checks as it is read. -/
def MatchResult.codec : Codec MatchResult :=
  ((Codec.record ((Fields.required "status" MatchStatus.codec).and <|
      (Fields.required "snapshot_found" Codec.bool).and <|
      (Fields.required "po_number" (Codec.string.nullable Codec.string_ne_null)).and <|
      (Fields.required "po_status" (Codec.string.nullable Codec.string_ne_null)).and <|
      (Fields.required "extraction_sha256" Sha256.codec).and <|
      (Fields.default "snapshot_sha256" (Sha256.codec.nullable Sha256.dump_ne_null) none).and <|
      (Fields.required "config_sha256" Sha256.codec).and <|
      (Fields.required "config" MatchConfig.codec).and <|
      (Fields.required "identity_checks" IdentityCheck.codec.list).and <|
      .required "numeric_checks" NumericCheck.codec.list) (by simp)).map
    (fun (status, snapshotFound, poNumber, poStatus, extractionSha256, snapshotSha256,
        configSha256, config, identityChecks, numericChecks) =>
      (⟨status, snapshotFound, poNumber, poStatus, extractionSha256, snapshotSha256, configSha256,
        config, identityChecks, numericChecks⟩ : MatchResultData))
    (fun result => (result.status, result.snapshotFound, result.poNumber, result.poStatus,
      result.extractionSha256, result.snapshotSha256, result.configSha256, result.config,
      result.identityChecks, result.numericChecks)) fun _ => rfl).check
    MatchResultData.Valid fun result h => by
      obtain ⟨hfound, hstatus⟩ := h
      have hidentity : (IdentityCheck.codec.list.canon result.identityChecks).map
          IdentityCheck.status = result.identityChecks.map IdentityCheck.status := by
        rw [Codec.list, List.map_map]
        rfl
      have hnumeric : (NumericCheck.codec.list.canon result.numericChecks).map
          (fun check => check.val.status) = result.numericChecks.map fun check =>
            check.val.status := by
        rw [Codec.list, List.map_map]
        rfl
      refine ⟨hfound.trans Option.isSome_map.symm, ?_⟩
      rw [MatchResultData.statuses, ← hidentity, ← hnumeric] at hstatus
      exact hstatus

section

variable (host : Host)

theorem canon_snapshotData (snapshot : ERPSnapshotData) :
    (⟨(Vendor.codec host).canon snapshot.vendor,
      (PurchaseOrder.codec host).canon snapshot.purchaseOrder,
      (Codec.atMost 100 (GoodsReceipt.codec host)).canon snapshot.goodsReceipts⟩ :
        ERPSnapshotData) = snapshot := by
  rw [canon_vendor, canon_purchaseOrder, canon_atMost (canon_goodsReceipt host)]

/-- A snapshot as JSON ; it is checked as it is read. -/
def ERPSnapshot.codec : Codec ERPSnapshot :=
  ((Codec.record ((Fields.required "vendor" (Vendor.codec host)).and <|
      (Fields.required "purchase_order" (PurchaseOrder.codec host)).and <|
      .required "goods_receipts" (.atMost 100 (GoodsReceipt.codec host))) (by simp)).map
    (fun (vendor, purchaseOrder, goodsReceipts) =>
      (⟨vendor, purchaseOrder, goodsReceipts⟩ : ERPSnapshotData))
    (fun snapshot => (snapshot.vendor, snapshot.purchaseOrder, snapshot.goodsReceipts))
    fun _ => rfl).check ERPSnapshotData.Valid fun snapshot h => by
      have hsnapshot := canon_snapshotData host snapshot
      rwa [← hsnapshot] at h

end

namespace Match

/-- The result without a snapshot. -/
def withoutSnapshot (host : Host) (extraction : InvoiceExtraction) (policy : MatchConfig) :
    MatchResultData where
  status := .incomplete
  snapshotFound := false
  poNumber := text? extraction.poNumber
  poStatus := none
  extractionSha256 := host.modelDigest (InvoiceExtraction.codec host) extraction
  snapshotSha256 := none
  configSha256 := host.modelDigest MatchConfig.codec policy
  config := policy
  identityChecks := []
  numericChecks := []

/-- The result of the checks. -/
def withSnapshot (host : Host) (extraction : InvoiceExtraction) (snapshot : ERPSnapshot)
    (policy : MatchConfig) (identity : List IdentityCheck) (numeric : List NumericCheck) :
    MatchResultData :=
  let statuses := identity.map IdentityCheck.status ++ numeric.map fun check => check.val.status
  { status :=
      if .mismatch ∈ statuses then .fail
      else if .unknown ∈ statuses then .incomplete
      else .pass
    snapshotFound := true
    poNumber := some snapshot.val.purchaseOrder.poNumber.val
    poStatus := some snapshot.val.purchaseOrder.status.text
    extractionSha256 := host.modelDigest (InvoiceExtraction.codec host) extraction
    snapshotSha256 := some (host.modelDigest (ERPSnapshot.codec host) snapshot)
    configSha256 := host.modelDigest MatchConfig.codec policy
    config := policy
    identityChecks := identity
    numericChecks := numeric }

end Match

/-- `match_invoice`. -/
def matchInvoice (host : Host) (request : MatchRequest) (config : Option MatchConfig := none) :
    Except Exn MatchResult :=
  let policy := config.getD .default
  match request.snapshot with
  | none => construct "MatchResult" MatchResultData.Valid
      (Match.withoutSnapshot host request.extraction policy)
  | some snapshot => do
    let identity := Match.headerIdentities host request.extraction snapshot.val ++
      snapshot.val.poLines.map (Match.lineIdentity host request.extraction)
    let numeric ← Match.numericChecks request.extraction snapshot.val policy
    construct "MatchResult" MatchResultData.Valid
      (Match.withSnapshot host request.extraction snapshot policy identity numeric)

end InvoiceOps
