import InvoiceOps.Erp
import InvoiceOps.Tables

/-!
# The ERP tables

The rows of `vendors`, `purchase_orders` and `goods_receipts`, what an insert of one has to
satisfy, and how a row is read back as a record. Every record is read back from its row as one
that Python's `==` holds equal to it (`Vendor.validate_row`, `PurchaseOrder.validate_row`,
`GoodsReceipt.validate_row`).
-/

namespace InvoiceOps

open ReadCommitted

/-- The lines of an order. -/
abbrev OrderLines := { lines : List PurchaseOrderLine // lines.length ≤ 500 }

/-- The lines of a receipt. -/
abbrev ReceiptLines := { lines : List ReceiptLine // lines.length ≤ 500 }

/-- The lines of an order as JSON. -/
def OrderLines.codec : Codec OrderLines :=
  .atMost 500 PurchaseOrderLine.codec

/-- The lines of a receipt as JSON. -/
def ReceiptLines.codec : Codec ReceiptLines :=
  .atMost 500 ReceiptLine.codec

/-! ## Rows -/

/-- A row of `vendors`. -/
structure VendorRow where
  id : Uuid
  externalId : String
  name : String
  taxId : Option String
  bankAccountIban : Option String
  status : String
  createdAt : Instant
  deriving DecidableEq

/-- With the column of the lines of type `J`. -/
structure PurchaseOrderRow (J : Type) where
  id : Uuid
  vendorId : Uuid
  poNumber : String
  status : String
  currency : String
  issuedOn : Date
  /-- In cents. -/
  totalAmount : ℤ
  lines : J
  createdAt : Instant
  deriving DecidableEq

/-- A row of `goods_receipts`, with the column of the lines of type `J`. -/
structure GoodsReceiptRow (J : Type) where
  id : Uuid
  purchaseOrderId : Uuid
  receiptNumber : String
  receivedAt : Instant
  lines : J
  createdAt : Instant
  deriving DecidableEq

/-- The `jsonb` values `J`, how the lines of a record are validated from one, and the time zone
of the session. What JSON was stored of reads as the JSON does. -/
structure ErpHost (J : Type) where
  takes : Json → Bool
  jsonb : Json → J
  orderLines : J → Option OrderLines
  receiptLines : J → Option ReceiptLines
  orderLines_jsonb : ∀ j lines, takes j → OrderLines.codec.parse j = some lines →
    orderLines (jsonb j) = some lines
  receiptLines_jsonb : ∀ j lines, takes j → ReceiptLines.codec.parse j = some lines →
    receiptLines (jsonb j) = some lines
  /-- The offset a stored time is loaded with. Sessions are set to UTC by all callers, so that it is
  zero ; in a zone with repeated hours, Python would not compare the loaded times as equal. -/
  utcOffset : Instant → ℤ

/-- A number as a `numeric(18, 2)` holds it, in cents. -/
def toCents (d : Decimal) : ℤ :=
  ⌊d.value * 100 + 1 / 2⌋

/-- The decimal a `numeric(18, 2)` is loaded as. -/
def ofCents (cents : ℤ) : Decimal :=
  ⟨cents < 0, cents.natAbs, -2⟩

theorem signed_ofCents (cents : ℤ) : (ofCents cents).signed = cents :=
  Decimal.signed_natAbs (Or.inl rfl) (-2)

/-- An amount of at most two decimals is kept. -/
theorem value_ofCents_toCents (amount : OrderAmount) :
    (ofCents (toCents amount.val)).value = amount.val.value := by
  obtain ⟨k, hk⟩ := (Decimal.fits_bound amount.property.2).1
  have hcents : toCents amount.val = k := by
    rw [toCents, hk, Int.floor_eq_iff]
    constructor <;> linarith
  rw [Decimal.value, signed_ofCents, hcents, hk]
  simp [ofCents, div_eq_mul_inv, zpow_neg]

section

variable {J : Type} (host : ErpHost J)

/-- The row a vendor is inserted as. -/
def Vendor.row (vendor : Vendor) : VendorRow where
  id := vendor.id
  externalId := vendor.externalId.val
  name := vendor.name.val
  taxId := vendor.taxId.map Subtype.val
  bankAccountIban := vendor.bankAccountIban.map Subtype.val
  status := vendor.status.text
  createdAt := vendor.createdAt.instant

/-- The row an order is inserted as. -/
def PurchaseOrder.row (order : PurchaseOrder) : PurchaseOrderRow J where
  id := order.id
  vendorId := order.vendorId
  poNumber := order.poNumber.val
  status := order.status.text
  currency := order.currency.text
  issuedOn := order.issuedOn
  totalAmount := toCents order.totalAmount.val
  lines := host.jsonb (OrderLines.codec.dump order.lines)
  createdAt := order.createdAt.instant

/-- The row a receipt is inserted as. -/
def GoodsReceipt.row (receipt : GoodsReceipt) : GoodsReceiptRow J where
  id := receipt.id
  purchaseOrderId := receipt.purchaseOrderId
  receiptNumber := receipt.receiptNumber.val
  receivedAt := receipt.receivedAt.instant
  lines := host.jsonb (ReceiptLines.codec.dump receipt.lines)
  createdAt := receipt.createdAt.instant

/-! ## Read back -/

/-- A `timestamptz` as it is loaded. -/
def ErpHost.timestamp (instant : Instant) : Timestamp :=
  ⟨instant, host.utcOffset instant⟩

theorem Text.dump_ne_null {low high : ℕ} (s : Text low high) :
    (Text.codec low high).dump s ≠ .null :=
  nofun

/-- A column of texts that may be null. -/
def Text.column (low high : ℕ) : Codec (Option (Text low high)) :=
  (Text.codec low high).nullable Text.dump_ne_null

/-- `Vendor.model_validate`. -/
def VendorRow.validate (row : VendorRow) : Option Vendor := do
  let externalId ← (Text.codec 1 128).parse (.str row.externalId)
  let name ← (Text.codec 1 256).parse (.str row.name)
  let taxId ← (Text.column 0 128).parse (row.taxId.elim .null .str)
  let iban ← (Text.column 0 34).parse (row.bankAccountIban.elim .null .str)
  let status ← VendorStatus.codec.parse (.str row.status)
  return ⟨row.id, externalId, name, taxId, iban, status, host.timestamp row.createdAt⟩

/-- `PurchaseOrder.model_validate`. -/
def PurchaseOrderRow.validate (row : PurchaseOrderRow J) : Option PurchaseOrder := do
  let poNumber ← (Text.codec 1 128).parse (.str row.poNumber)
  let status ← PoStatus.codec.parse (.str row.status)
  let currency ← PoCurrency.codec.parse (.str row.currency)
  let amount := ofCents row.totalAmount
  let totalAmount ← if h : 0 ≤ amount.value ∧ amount.fits 18 2 then some ⟨amount, h⟩ else none
  let lines ← host.orderLines row.lines
  return ⟨row.id, row.vendorId, poNumber, status, currency, row.issuedOn, totalAmount, lines,
    host.timestamp row.createdAt⟩

/-- `GoodsReceipt.model_validate`. -/
def GoodsReceiptRow.validate (row : GoodsReceiptRow J) : Option GoodsReceipt := do
  let receiptNumber ← (Text.codec 1 128).parse (.str row.receiptNumber)
  let lines ← host.receiptLines row.lines
  return ⟨row.id, row.purchaseOrderId, receiptNumber, host.timestamp row.receivedAt, lines,
    host.timestamp row.createdAt⟩

/-! ## Equality

Python compares decimals by value and times by instant. -/

/-- Two lines of orders are equal. -/
def PurchaseOrderLine.same (a b : PurchaseOrderLine) : Bool :=
  a.lineNumber = b.lineNumber && a.sku = b.sku && a.description = b.description &&
    a.quantity.val.value = b.quantity.val.value && a.unitPrice.val.value = b.unitPrice.val.value &&
    a.lineTotal.val.value = b.lineTotal.val.value

/-- Two lines of receipts are equal. -/
def ReceiptLine.same (a b : ReceiptLine) : Bool :=
  a.lineNumber = b.lineNumber && a.sku = b.sku &&
    a.receivedQuantity.val.value = b.receivedQuantity.val.value

/-- Two vendors are equal. -/
def Vendor.same (a b : Vendor) : Bool :=
  a.id = b.id && a.externalId = b.externalId && a.name = b.name && a.taxId = b.taxId &&
    a.bankAccountIban = b.bankAccountIban && a.status = b.status &&
    a.createdAt.instant = b.createdAt.instant

/-- Two orders are equal. -/
def PurchaseOrder.same (a b : PurchaseOrder) : Bool :=
  a.id = b.id && a.vendorId = b.vendorId && a.poNumber = b.poNumber && a.status = b.status &&
    a.currency = b.currency && a.issuedOn = b.issuedOn &&
    a.totalAmount.val.value = b.totalAmount.val.value &&
    a.lines.val.isEqv b.lines.val PurchaseOrderLine.same &&
    a.createdAt.instant = b.createdAt.instant

/-- Two receipts are equal. -/
def GoodsReceipt.same (a b : GoodsReceipt) : Bool :=
  a.id = b.id && a.purchaseOrderId = b.purchaseOrderId && a.receiptNumber = b.receiptNumber &&
    a.receivedAt.instant = b.receivedAt.instant &&
    a.lines.val.isEqv b.lines.val ReceiptLine.same &&
    a.createdAt.instant = b.createdAt.instant

theorem isEqv_self {α : Type} {same : α → α → Bool} (h : ∀ x, same x x) (xs : List α) :
    xs.isEqv xs same := by
  induction xs with
  | nil => rfl
  | cons x xs ih => simp [List.isEqv, h, ih]

/-! A record is read back from its row as an equal one. -/

theorem Text.parse_str {low high : ℕ} (s : Text low high) :
    (Text.codec low high).parse (.str s.val) = some s :=
  (Text.codec low high).parse_dump s

theorem Text.parse_column {low high : ℕ} (s : Option (Text low high)) :
    (Text.column low high).parse ((s.map Subtype.val).elim .null .str) = some s := by
  have h := (Text.column low high).parse_dump s
  rw [Text.column, Codec.canon_nullable fun _ => rfl] at h
  cases s <;> exact h

theorem Vendor.validate_row (vendor : Vendor) : ∃ read,
    vendor.row.validate host = some read ∧ read.same vendor := by
  have hstatus : VendorStatus.codec.parse (.str vendor.status.text) = some vendor.status :=
    VendorStatus.codec.parse_dump vendor.status
  refine ⟨{ vendor with createdAt := host.timestamp vendor.createdAt.instant }, ?_, ?_⟩
  · simp only [VendorRow.validate, Vendor.row, Text.parse_str, Text.parse_column, hstatus,
      Option.bind_eq_bind, Option.bind_some]
    rfl
  · simp [Vendor.same, ErpHost.timestamp]

theorem PurchaseOrder.validate_row (order : PurchaseOrder)
    (htakes : host.takes (OrderLines.codec.dump order.lines)) : ∃ read,
    (order.row host).validate host = some read ∧ read.same order := by
  have hstatus : PoStatus.codec.parse (.str order.status.text) = some order.status :=
    PoStatus.codec.parse_dump order.status
  have hcurrency : PoCurrency.codec.parse (.str order.currency.text) = some order.currency :=
    PoCurrency.codec.parse_dump order.currency
  have hlines : host.orderLines (host.jsonb (OrderLines.codec.dump order.lines)) =
      some order.lines := by
    refine host.orderLines_jsonb _ _ htakes ?_
    rw [OrderLines.codec.parse_dump, OrderLines.codec, canon_atMost canon_purchaseOrderLine]
  have hvalue := value_ofCents_toCents order.totalAmount
  have hamount : 0 ≤ (ofCents (toCents order.totalAmount.val)).value ∧
      (ofCents (toCents order.totalAmount.val)).fits 18 2 := by
    rw [hvalue, Decimal.fits_iff, hvalue, ← Decimal.fits_iff]
    exact order.totalAmount.property
  refine ⟨{ order with
    totalAmount := ⟨_, hamount⟩, createdAt := host.timestamp order.createdAt.instant }, ?_, ?_⟩
  · simp only [PurchaseOrderRow.validate, PurchaseOrder.row, Text.parse_str, hstatus, hcurrency,
      dif_pos hamount, hlines, Option.bind_eq_bind, Option.bind_some]
    rfl
  · have hline : order.lines.val.isEqv order.lines.val PurchaseOrderLine.same :=
      isEqv_self (fun line => by simp [PurchaseOrderLine.same]) _
    simp [PurchaseOrder.same, ErpHost.timestamp, hvalue, hline]

theorem GoodsReceipt.validate_row (receipt : GoodsReceipt)
    (htakes : host.takes (ReceiptLines.codec.dump receipt.lines)) : ∃ read,
    (receipt.row host).validate host = some read ∧ read.same receipt := by
  have hlines : host.receiptLines (host.jsonb (ReceiptLines.codec.dump receipt.lines)) =
      some receipt.lines := by
    refine host.receiptLines_jsonb _ _ htakes ?_
    rw [ReceiptLines.codec.parse_dump, ReceiptLines.codec, canon_atMost canon_receiptLine]
  refine ⟨{ receipt with
    receivedAt := host.timestamp receipt.receivedAt.instant
    createdAt := host.timestamp receipt.createdAt.instant }, ?_, ?_⟩
  · simp only [GoodsReceiptRow.validate, GoodsReceipt.row, Text.parse_str, hlines,
      Option.bind_eq_bind, Option.bind_some]
    rfl
  · have hline : receipt.lines.val.isEqv receipt.lines.val ReceiptLine.same :=
      isEqv_self (fun line => by simp [ReceiptLine.same]) _
    simp [GoodsReceipt.same, ErpHost.timestamp, hline]

end

/-! ## The database -/

/-- The tables of the ERP. -/
structure ErpDb (J : Type) where
  vendors : List VendorRow
  purchaseOrders : List (PurchaseOrderRow J)
  goodsReceipts : List (GoodsReceiptRow J)
  deriving DecidableEq

/-- An insert into one of the tables. -/
inductive ErpWrite (J : Type) where
  | vendor (row : VendorRow)
  | purchaseOrder (row : PurchaseOrderRow J)
  | goodsReceipt (row : GoodsReceiptRow J)
  deriving DecidableEq

/-- `length(btrim(column)) = 0`. -/
def isSpaces (s : String) : Bool :=
  s.toList.all fun c => c = ' '

namespace ErpDb

variable {J : Type} (d : ErpDb J)

/-- The tables after a write. -/
def apply : ErpWrite J → ErpDb J
  | .vendor row => { d with vendors := d.vendors ++ [row] }
  | .purchaseOrder row => { d with purchaseOrders := d.purchaseOrders ++ [row] }
  | .goodsReceipt row => { d with goodsReceipts := d.goodsReceipts ++ [row] }

/-- What the insert of a row breaks. -/
def conflict : ErpWrite J → Option String
  | .vendor row =>
    if hasNul row.externalId || hasNul row.name || row.taxId.any hasNul ||
        row.bankAccountIban.any hasNul then some "text"
    else if isSpaces row.externalId || isSpaces row.name then some "ck_vendors_nonblank"
    else if d.vendors.any fun r => r.id = row.id then some "vendors_pkey"
    else if d.vendors.any fun r => r.externalId = row.externalId then
      some "uq_vendors_external_id"
    else none
  | .purchaseOrder row =>
    if hasNul row.poNumber then some "text"
    else if isSpaces row.poNumber then some "ck_purchase_orders_nonblank"
    else if d.purchaseOrders.any fun r => r.id = row.id then some "purchase_orders_pkey"
    else if d.purchaseOrders.any fun r => r.poNumber = row.poNumber then
      some "uq_purchase_orders_po_number"
    else if !d.vendors.any fun r => r.id = row.vendorId then
      some "purchase_orders_vendor_id_fkey"
    else none
  | .goodsReceipt row =>
    if hasNul row.receiptNumber then some "text"
    else if isSpaces row.receiptNumber then some "ck_goods_receipts_nonblank"
    else if d.goodsReceipts.any fun r => r.id = row.id then some "goods_receipts_pkey"
    else if d.goodsReceipts.any fun r => r.receiptNumber = row.receiptNumber then
      some "uq_goods_receipts_receipt_number"
    else if !d.purchaseOrders.any fun r => r.id = row.purchaseOrderId then
      some "goods_receipts_purchase_order_id_fkey"
    else none

/-- The primary keys. -/
structure Keyed : Prop where
  vendors : (d.vendors.map VendorRow.id).Nodup
  purchaseOrders : (d.purchaseOrders.map PurchaseOrderRow.id).Nodup
  goodsReceipts : (d.goodsReceipts.map GoodsReceiptRow.id).Nodup

variable {d}

theorem nodup_append_row {ρ : Type} {rows : List ρ} {id : ρ → Uuid} {row : ρ}
    (h : (rows.map id).Nodup) (hnew : ¬(rows.any fun r => id r = id row) = true) :
    ((rows ++ [row]).map id).Nodup := by
  rw [List.map_append, List.map_cons, List.map_nil, List.nodup_append]
  refine ⟨h, by simp, fun a ha b hb => ?_⟩
  obtain ⟨r, hr, rfl⟩ := List.mem_map.mp ha
  rw [List.mem_singleton.mp hb]
  exact fun he => hnew (List.any_eq_true.mpr ⟨r, hr, decide_eq_true he⟩)

/-- An insert that breaks nothing keeps the primary keys. -/
theorem Keyed.apply (h : d.Keyed) {w : ErpWrite J} (hw : d.conflict w = none) :
    (d.apply w).Keyed := by
  cases w with
  | vendor row =>
    simp only [conflict] at hw
    split_ifs at hw with _ _ hkey
    exact { h with vendors := nodup_append_row h.vendors hkey }
  | purchaseOrder row =>
    simp only [conflict] at hw
    split_ifs at hw with _ _ hkey
    exact { h with purchaseOrders := nodup_append_row h.purchaseOrders hkey }
  | goodsReceipt row =>
    simp only [conflict] at hw
    split_ifs at hw with _ _ hkey
    exact { h with goodsReceipts := nodup_append_row h.goodsReceipts hkey }

end ErpDb

end InvoiceOps
