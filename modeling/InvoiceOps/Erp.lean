import InvoiceOps.Extraction

/-!
# ERP records

Vendors, purchase orders and goods receipts, with the bounds their schema sets. Their decimals are
written with all their digits, so that a record is read back as it was.
-/

namespace InvoiceOps

/-- Whether a vendor is active. -/
inductive VendorStatus where
  | active | inactive
  deriving DecidableEq, Repr

/-- How far an order has come. -/
inductive PoStatus where
  | «open» | partiallyReceived | closed | cancelled
  deriving DecidableEq, Repr

/-- The currencies an order may be in. -/
inductive PoCurrency where
  | eur | gbp | usd
  deriving DecidableEq, Repr

/-- A quantity that is ordered. -/
abbrev OrderedQuantity := { d : Decimal // 0 < d.value ∧ d.fits 18 4 }

/-- A quantity that is received. -/
abbrev ReceivedQuantity := { d : Decimal // 0 ≤ d.value ∧ d.fits 18 4 }

/-- A price, or a total, of a purchase order. -/
abbrev OrderAmount := { d : Decimal // 0 ≤ d.value ∧ d.fits 18 2 }

/-- The number of a line, counted from one. -/
abbrev LineNumber := { n : ℕ // 0 < n }

/-- A vendor of the ERP. -/
structure Vendor where
  id : Uuid
  externalId : Text 1 128
  name : Text 1 256
  taxId : Option (Text 0 128)
  bankAccountIban : Option (Text 0 34)
  status : VendorStatus
  createdAt : Timestamp
  deriving DecidableEq

/-- A line of a purchase order. -/
structure PurchaseOrderLine where
  lineNumber : LineNumber
  sku : Text 1 128
  description : Text 1 1000
  quantity : OrderedQuantity
  unitPrice : OrderAmount
  lineTotal : OrderAmount
  deriving DecidableEq

/-- A purchase order with its lines. -/
structure PurchaseOrder where
  id : Uuid
  vendorId : Uuid
  poNumber : Text 1 128
  status : PoStatus
  currency : PoCurrency
  issuedOn : Date
  totalAmount : OrderAmount
  lines : { lines : List PurchaseOrderLine // lines.length ≤ 500 }
  createdAt : Timestamp
  deriving DecidableEq

/-- A line of a goods receipt. -/
structure ReceiptLine where
  lineNumber : LineNumber
  sku : Text 1 128
  receivedQuantity : ReceivedQuantity
  deriving DecidableEq

/-- A goods receipt of a purchase order. -/
structure GoodsReceipt where
  id : Uuid
  purchaseOrderId : Uuid
  receiptNumber : Text 1 128
  receivedAt : Timestamp
  lines : { lines : List ReceiptLine // lines.length ≤ 500 }
  createdAt : Timestamp
  deriving DecidableEq

/-! ## As JSON -/

/-- The value of a vendor's status. -/
def VendorStatus.text : VendorStatus → String
  | active => "ACTIVE"
  | inactive => "INACTIVE"

/-- The value of an order's status. -/
def PoStatus.text : PoStatus → String
  | «open» => "OPEN"
  | partiallyReceived => "PARTIALLY_RECEIVED"
  | closed => "CLOSED"
  | cancelled => "CANCELLED"

/-- The code of a currency. -/
def PoCurrency.text : PoCurrency → String
  | eur => "EUR"
  | gbp => "GBP"
  | usd => "USD"

/-- A vendor's status is read back by its value. -/
def VendorStatus.codec : Codec VendorStatus :=
  .literal text [active, inactive] fun x => by cases x <;> rfl

/-- An order's status is read back by its value. -/
def PoStatus.codec : Codec PoStatus :=
  .literal text [«open», partiallyReceived, closed, cancelled] fun x => by cases x <;> rfl

/-- A currency is read back by its code. -/
def PoCurrency.codec : Codec PoCurrency :=
  .literal text [eur, gbp, usd] fun x => by cases x <;> rfl

/-- A line number as JSON. -/
def LineNumber.codec : Codec LineNumber :=
  Codec.nat.check _ fun _ h => h

/-- A decimal with a condition on it, written with all its digits. -/
def strictWhere (p : Decimal → Prop) [DecidablePred p] : Codec { d // p d } :=
  strictDecimal.check p fun _ h => h

/-- A line of an order as JSON. -/
def PurchaseOrderLine.codec : Codec PurchaseOrderLine :=
  (Codec.record ((Fields.required "line_number" LineNumber.codec).and <|
      (Fields.required "sku" (Text.codec 1 128)).and <|
      (Fields.required "description" (Text.codec 1 1000)).and <|
      (Fields.required "quantity" (strictWhere _)).and <|
      (Fields.required "unit_price" (strictWhere _)).and <|
      .required "line_total" (strictWhere _)) (by simp)).map
    (fun (lineNumber, sku, description, quantity, unitPrice, lineTotal) =>
      ⟨lineNumber, sku, description, quantity, unitPrice, lineTotal⟩)
    (fun line => (line.lineNumber, line.sku, line.description, line.quantity, line.unitPrice,
      line.lineTotal)) fun _ => rfl

/-- A line of a receipt as JSON. -/
def ReceiptLine.codec : Codec ReceiptLine :=
  (Codec.record ((Fields.required "line_number" LineNumber.codec).and <|
      (Fields.required "sku" (Text.codec 1 128)).and <|
      .required "received_quantity" (strictWhere _)) (by simp)).map
    (fun (lineNumber, sku, receivedQuantity) => ⟨lineNumber, sku, receivedQuantity⟩)
    (fun line => (line.lineNumber, line.sku, line.receivedQuantity)) fun _ => rfl

section

variable (host : Host)

/-- A vendor as JSON. -/
def Vendor.codec : Codec Vendor :=
  (Codec.record ((Fields.required "id" host.uuid).and <|
      (Fields.required "external_id" (Text.codec 1 128)).and <|
      (Fields.required "name" (Text.codec 1 256)).and <|
      (Fields.default "tax_id" ((Text.codec 0 128).nullable fun _ => nofun) none).and <|
      (Fields.default "bank_account_iban" ((Text.codec 0 34).nullable fun _ => nofun) none).and <|
      (Fields.default "status" VendorStatus.codec .active).and <|
      .required "created_at" host.datetime) (by simp)).map
    (fun (id, externalId, name, taxId, bankAccountIban, status, createdAt) =>
      ⟨id, externalId, name, taxId, bankAccountIban, status, createdAt⟩)
    (fun vendor => (vendor.id, vendor.externalId, vendor.name, vendor.taxId,
      vendor.bankAccountIban, vendor.status, vendor.createdAt)) fun _ => rfl

/-- An order as JSON. -/
def PurchaseOrder.codec : Codec PurchaseOrder :=
  (Codec.record ((Fields.required "id" host.uuid).and <|
      (Fields.required "vendor_id" host.uuid).and <|
      (Fields.required "po_number" (Text.codec 1 128)).and <|
      (Fields.required "status" PoStatus.codec).and <|
      (Fields.required "currency" PoCurrency.codec).and <|
      (Fields.required "issued_on" host.date).and <|
      (Fields.required "total_amount" (strictWhere _)).and <|
      (Fields.required "lines" (.atMost 500 PurchaseOrderLine.codec)).and <|
      .required "created_at" host.datetime) (by simp)).map
    (fun (id, vendorId, poNumber, status, currency, issuedOn, totalAmount, lines, createdAt) =>
      ⟨id, vendorId, poNumber, status, currency, issuedOn, totalAmount, lines, createdAt⟩)
    (fun order => (order.id, order.vendorId, order.poNumber, order.status, order.currency,
      order.issuedOn, order.totalAmount, order.lines, order.createdAt)) fun _ => rfl

/-- A receipt as JSON. -/
def GoodsReceipt.codec : Codec GoodsReceipt :=
  (Codec.record ((Fields.required "id" host.uuid).and <|
      (Fields.required "purchase_order_id" host.uuid).and <|
      (Fields.required "receipt_number" (Text.codec 1 128)).and <|
      (Fields.required "received_at" host.datetime).and <|
      (Fields.required "lines" (.atMost 500 ReceiptLine.codec)).and <|
      .required "created_at" host.datetime) (by simp)).map
    (fun (id, purchaseOrderId, receiptNumber, receivedAt, lines, createdAt) =>
      ⟨id, purchaseOrderId, receiptNumber, receivedAt, lines, createdAt⟩)
    (fun receipt => (receipt.id, receipt.purchaseOrderId, receipt.receiptNumber,
      receipt.receivedAt, receipt.lines, receipt.createdAt)) fun _ => rfl

/-! A record is read back as it was. -/

/-- A line of an order is read back as it was. -/
theorem canon_purchaseOrderLine (line : PurchaseOrderLine) :
    PurchaseOrderLine.codec.canon line = line :=
  rfl

/-- So is a line of a receipt. -/
theorem canon_receiptLine (line : ReceiptLine) : ReceiptLine.codec.canon line = line :=
  rfl

/-- So is a list of bounded length, if its items are. -/
theorem canon_atMost {α : Type} {n : ℕ} {c : Codec α} (h : ∀ x, c.canon x = x)
    (items : { items : List α // items.length ≤ n }) : (c.atMost n).canon items = items :=
  Subtype.ext (c.canon_list h items.val)

/-- So is a vendor. -/
theorem canon_vendor (vendor : Vendor) : (Vendor.codec host).canon vendor = vendor := by
  obtain ⟨id, externalId, name, taxId, iban, status, createdAt⟩ := vendor
  cases taxId <;> cases iban <;> rfl

/-- So is an order. -/
theorem canon_purchaseOrder (order : PurchaseOrder) :
    (PurchaseOrder.codec host).canon order = order := by
  have hlines := canon_atMost canon_purchaseOrderLine order.lines
  exact congrArg (fun lines => { order with lines := lines }) hlines

/-- So is a receipt. -/
theorem canon_goodsReceipt (receipt : GoodsReceipt) :
    (GoodsReceipt.codec host).canon receipt = receipt := by
  have hlines := canon_atMost canon_receiptLine receipt.lines
  exact congrArg (fun lines => { receipt with lines := lines }) hlines

end

end InvoiceOps
