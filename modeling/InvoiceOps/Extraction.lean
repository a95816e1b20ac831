import InvoiceOps.Host

/-!
# The extraction

`InvoiceExtraction` is what was read of a document : every field a value or unknown, with a
confidence, and the bounds its schema sets.
-/

namespace InvoiceOps

/-- How sure a field is, from zero to one with six places. -/
abbrev Confidence := { d : Decimal // (0 ≤ d.value ∧ d.value ≤ 1) ∧ d.fits 7 6 }

/-- An amount of at most eighteen digits with four places. -/
abbrev Amount := Digits 18 4

/-- A quantity of at most eighteen digits with six places. -/
abbrev Quantity := Digits 18 6

/-- A tax rate of at most twelve digits with six places. -/
abbrev TaxRate := Digits 12 6

/-- A vendor's name. -/
abbrev VendorName := Text 1 256

/-- A tax number, an invoice number or an order number. -/
abbrev Identifier := Text 1 128

/-- The account number of a bank account. -/
abbrev Iban := Text 1 64

/-- The description of a line. -/
abbrev Description := Text 1 1000

/-- An observed value, or an unknown one, whose confidence is zero. -/
structure ExtractedField (α : Type) where
  value : Option α
  confidence : Confidence
  unknown : value = none → confidence.val.value = 0
  deriving DecidableEq

/-- `InvoiceLineItem`. -/
structure InvoiceLineItem where
  description : ExtractedField Description
  quantity : ExtractedField Quantity
  unitPrice : ExtractedField Amount
  /-- A fraction. -/
  taxRate : ExtractedField TaxRate
  /-- The net amount, without tax. -/
  lineTotal : ExtractedField Amount
  deriving DecidableEq

/-- `InvoiceExtraction`. -/
structure InvoiceExtraction where
  vendorName : ExtractedField VendorName
  vendorTaxId : ExtractedField Identifier
  bankAccountIban : ExtractedField Iban
  invoiceNumber : ExtractedField Identifier
  poNumber : ExtractedField Identifier
  currency : ExtractedField Currency
  invoiceDate : ExtractedField Date
  dueDate : ExtractedField Date
  subtotal : ExtractedField Amount
  taxAmount : ExtractedField Amount
  totalAmount : ExtractedField Amount
  lineItems : { lines : List InvoiceLineItem // lines.length ≤ 500 }
  deriving DecidableEq

/-- A field of which nothing is known. -/
def ExtractedField.unread {α : Type} : ExtractedField α :=
  ⟨none, ⟨.zero, by decide +kernel⟩, fun _ => by decide +kernel⟩

/-- One is a confidence. -/
theorem certain_confidence :
    (0 ≤ Decimal.one.value ∧ Decimal.one.value ≤ 1) ∧ Decimal.one.fits 7 6 := by
  decide +kernel

/-- Only a field without a value has to have no confidence. -/
theorem known_confidence {α : Type} (x : α) (confidence : Confidence) :
    some x = none → confidence.val.value = 0 :=
  fun h => nomatch h

/-- A field that was read with a confidence. -/
def ExtractedField.known {α : Type} (x : α) (confidence : Confidence) : ExtractedField α :=
  ⟨some x, confidence, known_confidence x confidence⟩

/-- A field that was read for certain. -/
def ExtractedField.certain {α : Type} (x : α) : ExtractedField α :=
  .known x ⟨.one, certain_confidence⟩

/-- An invoice of which nothing is known. -/
def InvoiceExtraction.unread : InvoiceExtraction where
  vendorName := .unread
  vendorTaxId := .unread
  bankAccountIban := .unread
  invoiceNumber := .unread
  poNumber := .unread
  currency := .unread
  invoiceDate := .unread
  dueDate := .unread
  subtotal := .unread
  taxAmount := .unread
  totalAmount := .unread
  lineItems := ⟨[], by decide⟩

/-! ## As JSON -/

/-- What fits a number of digits still fits it in canonical form. -/
theorem fits_canonical {maxDigits places : ℕ} (d : Decimal) (h : d.fits maxDigits places) :
    d.canonical.fits maxDigits places := by
  rw [Decimal.fits_iff] at h ⊢
  rwa [Decimal.value_canonical]

/-- A number of bounded digits as JSON. -/
def Digits.codec (maxDigits places : ℕ) : Codec (Digits maxDigits places) :=
  exactWhere _ fits_canonical

/-- A confidence as JSON. -/
def Confidence.codec : Codec Confidence :=
  exactWhere _ fun d h => by
    rw [Decimal.value_canonical]
    exact ⟨h.1, fits_canonical d h.2⟩

/-- A list of at most so many items. -/
def Codec.atMost {α : Type} (n : ℕ) (c : Codec α) : Codec { items : List α // items.length ≤ n } :=
  c.list.check _ fun _ h => (List.length_map c.canon).trans_le h

/-- An extracted field as JSON ; an unknown value has no confidence. -/
def Codec.extracted {α : Type} (c : Codec α) (h : ∀ x, c.dump x ≠ .null) :
    Codec (ExtractedField α) :=
  ((Codec.record ((Fields.required "value" (c.nullable h)).and
      (.required "confidence" Confidence.codec)) (by simp)).check
    (fun f => f.1 = none → f.2.val.value = 0) fun f hf hnone =>
      (Decimal.value_canonical f.2.val).trans (hf (Option.map_eq_none_iff.mp hnone))).map
    (fun f => ⟨f.val.1, f.val.2, f.property⟩) (fun f => ⟨(f.value, f.confidence), f.unknown⟩)
    fun _ => rfl

section

variable (host : Host)

/-- A line of an invoice as JSON. -/
def InvoiceLineItem.codec : Codec InvoiceLineItem :=
  (Codec.record
    ((Fields.required "description" (.extracted (Text.codec 1 1000) fun _ => nofun)).and <|
      (Fields.required "quantity" (.extracted (Digits.codec 18 6) fun _ => nofun)).and <|
      (Fields.required "unit_price" (.extracted (Digits.codec 18 4) fun _ => nofun)).and <|
      (Fields.required "tax_rate" (.extracted (Digits.codec 12 6) fun _ => nofun)).and <|
      .required "line_total" (.extracted (Digits.codec 18 4) fun _ => nofun)) (by simp)).map
    (fun (description, quantity, unitPrice, taxRate, lineTotal) =>
      ⟨description, quantity, unitPrice, taxRate, lineTotal⟩)
    (fun line =>
      (line.description, line.quantity, line.unitPrice, line.taxRate, line.lineTotal))
    fun _ => rfl

/-- An extraction as JSON. -/
def InvoiceExtraction.codec : Codec InvoiceExtraction :=
  (Codec.record
    ((Fields.required "vendor_name" (.extracted (Text.codec 1 256) fun _ => nofun)).and <|
      (Fields.required "vendor_tax_id" (.extracted (Text.codec 1 128) fun _ => nofun)).and <|
      (Fields.required "bank_account_iban" (.extracted (Text.codec 1 64) fun _ => nofun)).and <|
      (Fields.required "invoice_number" (.extracted (Text.codec 1 128) fun _ => nofun)).and <|
      (Fields.required "po_number" (.extracted (Text.codec 1 128) fun _ => nofun)).and <|
      (Fields.required "currency" (.extracted Currency.codec fun _ => nofun)).and <|
      (Fields.required "invoice_date" (.extracted host.date fun _ => nofun)).and <|
      (Fields.required "due_date" (.extracted host.date fun _ => nofun)).and <|
      (Fields.required "subtotal" (.extracted (Digits.codec 18 4) fun _ => nofun)).and <|
      (Fields.required "tax_amount" (.extracted (Digits.codec 18 4) fun _ => nofun)).and <|
      (Fields.required "total_amount" (.extracted (Digits.codec 18 4) fun _ => nofun)).and <|
      .required "line_items" (.atMost 500 InvoiceLineItem.codec)) (by simp)).map
    (fun (vendorName, vendorTaxId, bankAccountIban, invoiceNumber, poNumber, currency,
        invoiceDate, dueDate, subtotal, taxAmount, totalAmount, lineItems) =>
      ⟨vendorName, vendorTaxId, bankAccountIban, invoiceNumber, poNumber, currency, invoiceDate,
        dueDate, subtotal, taxAmount, totalAmount, lineItems⟩)
    (fun e => (e.vendorName, e.vendorTaxId, e.bankAccountIban, e.invoiceNumber, e.poNumber,
      e.currency, e.invoiceDate, e.dueDate, e.subtotal, e.taxAmount, e.totalAmount, e.lineItems))
    fun _ => rfl

end

end InvoiceOps
