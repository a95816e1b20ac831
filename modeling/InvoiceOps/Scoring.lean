import InvoiceOps.Gate
import InvoiceOps.Ocr
import Mathlib.Algebra.BigOperators.Group.List.Basic

/-!
# Field scores

`scoreFields` compares what a document is labelled with to what was extracted of it, field by field,
both in a normal form. A label that is unknown is not compared.

The counts are those of the comparisons (`scoreFields_count`) : a labelled value is matched or
missed, and a value that is not the labelled one, or is on a line after the labelled ones, is
wrong. Where each labelled value has a normal form, only an extracted one matches it
(`field_scoring_sound`).
-/

open Decimal (Ambient Condition Number)

namespace InvoiceOps

/-! ## Labels -/

/-- What a line is labelled with. -/
structure LineLabel where
  description : String
  quantity : String
  unitPrice : Option String := none
  taxRate : Option String := none
  lineTotal : Option String := none

/-- What an invoice is labelled with. -/
structure InvoiceLabel where
  vendorName : Option String := none
  vendorTaxId : Option String := none
  bankAccountIban : Option String := none
  invoiceNumber : Option String := none
  poNumber : Option String := none
  currency : Option String := none
  invoiceDate : Option Date := none
  dueDate : Option Date := none
  subtotal : Option String := none
  taxAmount : Option String := none
  totalAmount : Option String := none
  lineItems : List LineLabel := []

/-- The fields of a header. -/
inductive HeaderField where
  | vendorName | vendorTaxId | bankAccountIban | invoiceNumber | poNumber | currency | invoiceDate
  | dueDate | subtotal | taxAmount | totalAmount
  deriving DecidableEq, Repr

/-- The fields of a line. -/
inductive LineField where
  | description | quantity | unitPrice | taxRate | lineTotal
  deriving DecidableEq, Repr

/-- A field that is scored. A field of a line has one score for all of the lines. -/
inductive ScoredField where
  | header (field : HeaderField)
  | line (field : LineField)
  deriving DecidableEq, Repr

/-- `HEADER_FIELDS`. -/
def headerFields : List HeaderField :=
  [.vendorName, .vendorTaxId, .bankAccountIban, .invoiceNumber, .poNumber, .currency, .invoiceDate,
    .dueDate, .subtotal, .taxAmount, .totalAmount]

/-- `LINE_FIELDS`. -/
def lineFields : List LineField :=
  [.description, .quantity, .unitPrice, .taxRate, .lineTotal]

/-- All fields that are scored. -/
def scoredFields : List ScoredField :=
  headerFields.map .header ++ lineFields.map .line

/-- `NUMERIC_FIELDS`. -/
def numericFields : List ScoredField :=
  [.header .subtotal, .header .taxAmount, .header .totalAmount, .line .quantity, .line .unitPrice,
    .line .taxRate, .line .lineTotal]

/-- A value of a label or of an extraction. -/
inductive FieldValue where
  | text (s : String)
  | date (d : Date)
  | number (d : Decimal)
  deriving DecidableEq

/-- The value a line is labelled with. -/
def LineLabel.get (line : LineLabel) : LineField → Option FieldValue
  | .description => some (.text line.description)
  | .quantity => some (.text line.quantity)
  | .unitPrice => line.unitPrice.map .text
  | .taxRate => line.taxRate.map .text
  | .lineTotal => line.lineTotal.map .text

/-- The value an invoice is labelled with. -/
def InvoiceLabel.get (label : InvoiceLabel) : HeaderField → Option FieldValue
  | .vendorName => label.vendorName.map .text
  | .vendorTaxId => label.vendorTaxId.map .text
  | .bankAccountIban => label.bankAccountIban.map .text
  | .invoiceNumber => label.invoiceNumber.map .text
  | .poNumber => label.poNumber.map .text
  | .currency => label.currency.map .text
  | .invoiceDate => label.invoiceDate.map .date
  | .dueDate => label.dueDate.map .date
  | .subtotal => label.subtotal.map .text
  | .taxAmount => label.taxAmount.map .text
  | .totalAmount => label.totalAmount.map .text

/-- The value that was read of a line. -/
def InvoiceLineItem.get (line : InvoiceLineItem) : LineField → Option FieldValue
  | .description => line.description.value.map fun s => .text s.val
  | .quantity => line.quantity.value.map fun d => .number d.val
  | .unitPrice => line.unitPrice.value.map fun d => .number d.val
  | .taxRate => line.taxRate.value.map fun d => .number d.val
  | .lineTotal => line.lineTotal.value.map fun d => .number d.val

/-- The value that was read of a header. -/
def InvoiceExtraction.get (extraction : InvoiceExtraction) : HeaderField → Option FieldValue
  | .vendorName => extraction.vendorName.value.map fun s => .text s.val
  | .vendorTaxId => extraction.vendorTaxId.value.map fun s => .text s.val
  | .bankAccountIban => extraction.bankAccountIban.value.map fun s => .text s.val
  | .invoiceNumber => extraction.invoiceNumber.value.map fun s => .text s.val
  | .poNumber => extraction.poNumber.value.map fun s => .text s.val
  | .currency => extraction.currency.value.map fun s => .text s.val
  | .invoiceDate => extraction.invoiceDate.value.map .date
  | .dueDate => extraction.dueDate.value.map .date
  | .subtotal => extraction.subtotal.value.map fun d => .number d.val
  | .taxAmount => extraction.taxAmount.value.map fun d => .number d.val
  | .totalAmount => extraction.totalAmount.value.map fun d => .number d.val

/-! ## Normal forms -/

/-- `Decimal(text)` : a number or a special value, if it is one. A number is read as it is
written. -/
structure DecimalReader where
  read : String → Option Number
  read_scientific : ∀ d : Decimal, read (String.ofList d.scientific) = some (.finite d)

/-- It reads the numbers alone. -/
def DecimalReader.sample : DecimalReader where
  read text := (Decimal.parse text.toList).map .finite
  read_scientific d := by rw [String.toList_ofList, Decimal.parse_scientific, Option.map_some]

section

variable (host : Host) (reader : DecimalReader)

/-- `str(value)`. -/
def FieldValue.str : FieldValue → String
  | text s => s
  | date d => host.printDate d
  | number d => String.ofList d.scientific

/-- `format(amount, "f")`, of a number. -/
def formatFixed : Number → Option String
  | .finite d => some (String.ofList d.fixedPoint)
  | .infinite neg => some (if neg then "-Infinity" else "Infinity")
  | .nan => some "NaN"

/-- `_normalized`. -/
def normalized (field : ScoredField) : Option FieldValue → Except Condition (Option String)
  | none => .ok none
  | some value =>
    if field = .header .bankAccountIban then
      .ok (some (host.upper (String.ofList
        ((value.str host).toList.filter fun c => !isPythonSpace c))))
    else if field ∈ numericFields then
      match reader.read (pythonStrip (value.str host)) with
      | some (.finite amount) => (defaultAmbient.normalize amount).map formatFixed
      | some (.infinite _) | some .nan | none => .ok none
    else if field = .header .invoiceDate ∨ field = .header .dueDate then
      .ok (some (value.str host))
    else .ok (some (host.text (value.str host)))

end

/-! ## Counts -/

/-- The true and false positives of a field, and its false negatives. -/
@[ext]
structure FieldCounts where
  tp : ℕ := 0
  fp : ℕ := 0
  fn : ℕ := 0
  deriving DecidableEq, Repr

namespace FieldCounts

instance : Zero FieldCounts :=
  ⟨{}⟩

instance : Add FieldCounts :=
  ⟨fun a b => ⟨a.tp + b.tp, a.fp + b.fp, a.fn + b.fn⟩⟩

@[simp] theorem zero_tp : (0 : FieldCounts).tp = 0 := rfl
@[simp] theorem zero_fp : (0 : FieldCounts).fp = 0 := rfl
@[simp] theorem zero_fn : (0 : FieldCounts).fn = 0 := rfl
@[simp] theorem add_tp (a b : FieldCounts) : (a + b).tp = a.tp + b.tp := rfl
@[simp] theorem add_fp (a b : FieldCounts) : (a + b).fp = a.fp + b.fp := rfl
@[simp] theorem add_fn (a b : FieldCounts) : (a + b).fn = a.fn + b.fn := rfl

instance : AddCommMonoid FieldCounts where
  add_assoc a b c := by ext <;> simp [Nat.add_assoc]
  zero_add a := by ext <;> simp
  add_zero a := by ext <;> simp
  add_comm a b := by ext <;> simp [Nat.add_comm]
  nsmul := nsmulRec

/-- `_f1`. -/
def f1 (counts : FieldCounts) : Except Condition (Option Number) :=
  let denominator := 2 * counts.tp + counts.fp + counts.fn
  if denominator = 0 then .ok none
  else (defaultAmbient.div (.finite ⟨false, 2 * counts.tp, 0⟩)
    (.finite ⟨false, denominator, 0⟩)).map some

end FieldCounts

/-- What is compared in a field. -/
structure FieldComparison where
  field : ScoredField
  expected : Option FieldValue
  observed : Option FieldValue

/-- The scores of the fields. -/
abbrev FieldScores := ScoredField → FieldCounts

/-- The counts of a field, with some more. -/
def FieldScores.add (scores : FieldScores) (field : ScoredField) (counts : FieldCounts) :
    FieldScores :=
  Function.update scores field (scores field + counts)

/-- The sum over all fields. -/
def FieldScores.total (scores : FieldScores) : FieldCounts :=
  (scoredFields.map scores).sum

/-- The lines that were read, of an extraction if there was one. -/
def observedLines (extraction : Option InvoiceExtraction) : List InvoiceLineItem :=
  extraction.elim [] fun e => e.lineItems.val

/-- The comparisons of the headers. -/
def headerComparisons (label : InvoiceLabel) (extraction : Option InvoiceExtraction) :
    List FieldComparison :=
  headerFields.map fun field =>
    ⟨.header field, label.get field, extraction.bind fun e => e.get field⟩

/-- The comparisons of the labelled lines, each with the extracted one of its index. -/
def lineComparisons (label : InvoiceLabel) (extraction : Option InvoiceExtraction) :
    List FieldComparison :=
  label.lineItems.zipIdx.flatMap fun (line, index) =>
    lineFields.map fun field =>
      ⟨.line field, line.get field, (observedLines extraction)[index]?.bind fun l => l.get field⟩

/-- All comparisons of an invoice. -/
def fieldComparisons (label : InvoiceLabel) (extraction : Option InvoiceExtraction) :
    List FieldComparison :=
  headerComparisons label extraction ++ lineComparisons label extraction

/-- The fields with a value on a line after the labelled ones, if there are any of these. -/
def extraFields (label : InvoiceLabel) (extraction : Option InvoiceExtraction) : List LineField :=
  if label.lineItems = [] then []
  else ((observedLines extraction).drop label.lineItems.length).flatMap fun line =>
    lineFields.filter fun field => (line.get field).isSome

section

variable (host : Host) (reader : DecimalReader)

/-- `compare`. -/
def compareField (c : FieldComparison) : Except Condition FieldCounts :=
  if c.expected = none then .ok {}
  else do
    let actual ← normalized host reader c.field c.observed
    let wanted ← normalized host reader c.field c.expected
    return if wanted = actual then { tp := 1 }
      else { fp := if actual = none then 0 else 1, fn := 1 }

/-- The scores with a comparison counted. -/
def countField (scores : FieldScores) (c : FieldComparison) : Except Condition FieldScores :=
  (compareField host reader c).map (scores.add c.field)

/-- `score_fields`. -/
def scoreFields (label : InvoiceLabel) (extraction : Option InvoiceExtraction) :
    Except Condition FieldScores := do
  let scores ← (headerComparisons label extraction).foldlM (countField host reader) fun _ => {}
  let scores ← (lineComparisons label extraction).foldlM (countField host reader) scores
  return (extraFields label extraction).foldl
    (fun scores field => scores.add (.line field) { fp := 1 }) scores

end

/-! ## The F1 score -/

theorem value_natCast (n : ℕ) : (⟨false, n, 0⟩ : Decimal).value = n := by
  simp [Decimal.value, Decimal.signed]

theorem FieldCounts.f1_eq {counts : FieldCounts} (h : 0 < 2 * counts.tp + counts.fp + counts.fn) :
    ∃ d : Decimal, counts.f1 = .ok (some (.finite d)) ∧
      d.value = gateContext.round
        ((2 * counts.tp : ℕ) / (2 * counts.tp + counts.fp + counts.fn : ℕ)) := by
  have hle : ((2 * counts.tp : ℕ) : ℚ) / (2 * counts.tp + counts.fp + counts.fn : ℕ) ≤ 1 := by
    rw [div_le_one (by exact_mod_cast h)]
    exact_mod_cast (by omega : 2 * counts.tp ≤ 2 * counts.tp + counts.fp + counts.fn)
  have hnonneg : (0 : ℚ) ≤ ((2 * counts.tp : ℕ) : ℚ) /
      (2 * counts.tp + counts.fp + counts.fn : ℕ) := by
    positivity
  have hdiv := default_like.div ⟨false, 2 * counts.tp, 0⟩
    (b := ⟨false, 2 * counts.tp + counts.fp + counts.fn, 0⟩) (Nat.ne_of_gt h)
  rw [value_natCast, value_natCast] at hdiv
  obtain ⟨d, hd, hvalue⟩ := hdiv.of_le (by decide) (by decide) (by
    rw [abs_of_nonneg hnonneg]
    exact hle.trans (one_le_zpow₀ (by norm_num) (by decide)))
  refine ⟨d, ?_, hvalue⟩
  rw [FieldCounts.f1, if_neg (Nat.ne_of_gt h)]
  exact congrArg (Except.map some) hd

/-- An F1 score of one is not a rounded one. -/
theorem FieldCounts.f1_eq_one {counts : FieldCounts} (htp : counts.tp < 10 ^ 27) :
    (∃ d : Decimal, counts.f1 = .ok (some (.finite d)) ∧ d.value = 1) ↔
      0 < counts.tp ∧ counts.fp = 0 ∧ counts.fn = 0 := by
  have hprec : 1 ≤ gateContext.prec := by decide
  constructor
  · rintro ⟨d, hd, hone⟩
    have hpos : 0 < 2 * counts.tp + counts.fp + counts.fn := by
      by_contra hzero
      rw [FieldCounts.f1, if_pos (by omega)] at hd
      cases hd
    obtain ⟨d', hd', hvalue⟩ := f1_eq hpos
    obtain rfl : d = d' := by
      rw [hd] at hd'
      simpa using hd'
    by_contra hcounts
    -- what is not exact is at most `1 - 10 ^ (-28)`, which has 28 digits
    have hextra : 2 * counts.tp + 1 ≤ 2 * counts.tp + counts.fp + counts.fn := by omega
    have hlimit : gateContext.Exact (1 - 1 / 10 ^ 28) :=
      ⟨10 ^ 28 - 1, -28, by norm_num, by norm_num [gateContext], by decide, by decide⟩
    have hle : ((2 * counts.tp : ℕ) : ℚ) / (2 * counts.tp + counts.fp + counts.fn : ℕ) ≤
        1 - 1 / 10 ^ 28 := by
      have hden : ((2 * counts.tp : ℕ) : ℚ) + 1 ≤
          ((2 * counts.tp + counts.fp + counts.fn : ℕ) : ℚ) := by exact_mod_cast hextra
      have hnum : ((2 * counts.tp : ℕ) : ℚ) + 1 ≤ 10 ^ 28 := by
        exact_mod_cast (by omega : 2 * counts.tp + 1 ≤ 10 ^ 28)
      rw [div_le_iff₀ (by exact_mod_cast hpos)]
      linarith
    have hround := gateContext.round_le hprec hlimit hle
    rw [← hvalue, hone] at hround
    norm_num at hround
  · rintro ⟨htp, hfp, hfn⟩
    obtain ⟨d, hd, hvalue⟩ := @f1_eq counts (by omega)
    refine ⟨d, hd, ?_⟩
    have hone : gateContext.Exact 1 :=
      ⟨1, 0, by norm_num, by norm_num [gateContext], by decide, by decide⟩
    have hne : ((2 * counts.tp : ℕ) : ℚ) ≠ 0 := by
      exact_mod_cast Nat.ne_of_gt (Nat.mul_pos two_pos htp)
    rw [hvalue, hfp, hfn, add_zero, add_zero, div_self hne, Decimal.Context.round_exact hprec hone]

/-! ## Sums -/

theorem scoredFields_nodup : scoredFields.Nodup := by
  decide

theorem mem_scoredFields (field : ScoredField) : field ∈ scoredFields := by
  cases field with
  | header field => cases field <;> decide
  | line field => cases field <;> decide

theorem sum_update {fields : List ScoredField} (hnodup : fields.Nodup) (scores : FieldScores)
    {field : ScoredField} (hfield : field ∈ fields) (counts : FieldCounts) :
    (fields.map (scores.add field counts)).sum = (fields.map scores).sum + counts := by
  induction fields with
  | nil => cases hfield
  | cons f fields ih =>
    obtain ⟨hf, hnodup⟩ := List.nodup_cons.mp hnodup
    rw [List.map_cons, List.sum_cons, List.map_cons, List.sum_cons]
    by_cases heq : f = field
    · have hrest : fields.map (scores.add field counts) = fields.map scores :=
        List.map_congr_left fun g hg => Function.update_of_ne
          (fun h => hf ((h.trans heq.symm) ▸ hg)) _ _
      rw [hrest, heq, FieldScores.add, Function.update_self, add_assoc, add_comm counts,
        ← add_assoc]
    · have hmem : field ∈ fields := (List.mem_cons.mp hfield).resolve_left (Ne.symm heq)
      rw [ih hnodup hmem, ← add_assoc, FieldScores.add, Function.update_of_ne heq]

theorem total_add (scores : FieldScores) (field : ScoredField) (counts : FieldCounts) :
    (scores.add field counts).total = scores.total + counts :=
  sum_update scoredFields_nodup scores (mem_scoredFields field) counts

/-- The scores with some counts of fields added. -/
def FieldScores.addAll (scores : FieldScores) (entries : List (ScoredField × FieldCounts)) :
    FieldScores :=
  entries.foldl (fun scores e => scores.add e.1 e.2) scores

theorem total_addAll (entries : List (ScoredField × FieldCounts)) : ∀ scores : FieldScores,
    (scores.addAll entries).total = scores.total + (entries.map Prod.snd).sum := by
  induction entries with
  | nil => intro scores; exact (add_zero _).symm
  | cons e entries ih =>
    intro scores
    rw [List.map_cons, List.sum_cons, ← add_assoc, ← total_add, ← ih]
    rfl

theorem addAll_apply (entries : List (ScoredField × FieldCounts)) (field : ScoredField) :
    ∀ scores : FieldScores, scores.addAll entries field =
      scores field + ((entries.filter fun e => e.1 = field).map Prod.snd).sum := by
  induction entries with
  | nil => intro scores; exact (add_zero _).symm
  | cons e entries ih =>
    intro scores
    have hstep : scores.addAll (e :: entries) = (scores.add e.1 e.2).addAll entries := rfl
    rw [hstep, ih, FieldScores.add]
    by_cases h : e.1 = field
    · rw [List.filter_cons_of_pos (by simpa using h), List.map_cons, List.sum_cons, ← h,
        Function.update_self, add_assoc]
    · rw [List.filter_cons_of_neg (by simpa using h), Function.update_of_ne (Ne.symm h)]

/-! ## Values of an extraction -/

/-- There is no space in the text of a number. -/
theorem scientific_not_space (d : Decimal) : ∀ c ∈ d.scientific, isPythonSpace c = false := by
  have hdigits (n : ℕ) : ∀ c ∈ Nat.toDigits 10 n, isPythonSpace c = false := fun c hc =>
    digit_not_space (Decimal.isDigit_toDigits hc)
  have hminus : isPythonSpace '-' = false := by decide
  have hsign : ∀ c ∈ Decimal.signText d.neg, isPythonSpace c = false := by
    cases d.neg <;> simp [Decimal.signText, hminus]
  have hzeros (n : ℕ) : ∀ c ∈ List.replicate n '0', isPythonSpace c = false := fun c hc => by
    rw [(List.mem_replicate.mp hc).2]
    decide
  have hexponent (e : ℤ) : ∀ c ∈ Decimal.exponentText e, isPythonSpace c = false := by
    unfold Decimal.exponentText
    simp only [List.forall_mem_cons]
    refine ⟨by decide, ?_, hdigits _⟩
    split <;> decide
  have hpoint : isPythonSpace '.' = false := by decide
  have hzero : isPythonSpace '0' = false := by decide
  unfold Decimal.scientific
  dsimp only
  rw [List.forall_mem_append]
  refine ⟨hsign, ?_⟩
  have hint := hdigits d.coeff
  split_ifs
  · simp only [List.forall_mem_cons, List.forall_mem_append]
    exact ⟨hzero, hpoint, hzeros _, hint⟩
  · exact hint
  · simp only [List.forall_mem_cons, List.forall_mem_append]
    exact ⟨fun c hc => hint c (List.mem_of_mem_take hc), hpoint,
      fun c hc => hint c (List.mem_of_mem_drop hc)⟩
  · simp only [List.forall_mem_append]
    exact ⟨⟨fun c hc => hint c (List.mem_of_mem_take hc),
      fun c hc => absurd hc List.not_mem_nil⟩, hexponent _⟩
  · simp only [List.forall_mem_cons, List.forall_mem_append]
    exact ⟨⟨fun c hc => hint c (List.mem_of_mem_take hc), hpoint,
      fun c hc => hint c (List.mem_of_mem_drop hc)⟩, hexponent _⟩

theorem pythonStrip_of_not_space {text : List Char} (h : ∀ c ∈ text, isPythonSpace c = false) :
    pythonStrip (String.ofList text) = String.ofList text := by
  have hdrop : text.dropWhile isPythonSpace = text := by
    cases text with
    | nil => rfl
    | cons c cs => rw [List.dropWhile_cons_of_neg (by simp [h c List.mem_cons_self])]
  have hrdrop : text.rdropWhile isPythonSpace = text := by
    rw [List.rdropWhile_eq_self_iff]
    intro hne hlast
    rw [h _ (List.getLast_mem hne)] at hlast
    cases hlast
  unfold pythonStrip
  rw [String.toList_ofList, hdrop]
  exact congrArg String.ofList hrdrop

/-- A number that is not too large has a normal form. -/
theorem normalize_ok {d : Decimal} (h : |d.value| ≤ 10 ^ 18) :
    ∃ r, defaultAmbient.normalize d = .ok (.finite r) := by
  have hlarge : |d.value| ≤ 10 ^ gateContext.emax := by
    refine h.trans ?_
    have : (10 : ℚ) ^ (18 : ℕ) ≤ 10 ^ (999999 : ℕ) := pow_le_pow_right₀ (by norm_num) (by norm_num)
    exact this
  obtain ⟨r, hfix, -⟩ := (default_like.fix d).of_le (by decide) (by decide) hlarge
  unfold Ambient.normalize
  have hfix' : defaultAmbient.fix d = .ok (.finite r) := hfix
  rw [hfix']
  dsimp only [Except.map]
  split <;> exact ⟨_, rfl⟩

/-- A value as an extraction has it in a field. -/
def Extractable (field : ScoredField) (value : FieldValue) : Prop :=
  field ∈ numericFields → ∃ d : Decimal, value = .number d ∧ |d.value| ≤ 10 ^ 18

theorem abs_value_digits {maxDigits places : ℕ} (hdigits : maxDigits ≤ 18)
    (d : Digits maxDigits places) : |d.val.value| ≤ 10 ^ 18 := by
  calc |d.val.value| ≤ 10 ^ maxDigits / 10 ^ places := (Decimal.fits_bound d.property).2.le
    _ ≤ 10 ^ maxDigits := div_le_self (by positivity) (one_le_pow₀ (by norm_num))
    _ ≤ 10 ^ 18 := pow_le_pow_right₀ (by norm_num) hdigits

theorem Extractable.of_number {maxDigits places : ℕ} (hdigits : maxDigits ≤ 18)
    {field : ScoredField} {value : FieldValue} {observed : Option (Digits maxDigits places)}
    (h : (observed.map fun d => .number d.val) = some value) : Extractable field value := by
  obtain ⟨d, -, rfl⟩ := Option.map_eq_some_iff.mp h
  exact fun _ => ⟨d.val, rfl, abs_value_digits hdigits d⟩

theorem InvoiceLineItem.get_extractable {line : InvoiceLineItem} {field : LineField}
    {value : FieldValue} (h : line.get field = some value) : Extractable (.line field) value := by
  cases field with
  | description => exact fun hmem => absurd hmem (by decide)
  | quantity => exact .of_number (by decide) h
  | unitPrice => exact .of_number (by decide) h
  | taxRate => exact .of_number (by decide) h
  | lineTotal => exact .of_number (by decide) h

theorem InvoiceExtraction.get_extractable {extraction : InvoiceExtraction} {field : HeaderField}
    {value : FieldValue} (h : extraction.get field = some value) :
    Extractable (.header field) value := by
  cases field with
  | subtotal => exact .of_number (by decide) h
  | taxAmount => exact .of_number (by decide) h
  | totalAmount => exact .of_number (by decide) h
  | _ => exact fun hmem => absurd hmem (by decide)

theorem fieldComparisons_extractable {label : InvoiceLabel} {extraction : Option InvoiceExtraction}
    {c : FieldComparison} (hc : c ∈ fieldComparisons label extraction) :
    ∀ value ∈ c.observed, Extractable c.field value := by
  intro value hvalue
  rcases List.mem_append.mp hc with hc | hc
  · obtain ⟨field, -, rfl⟩ := List.mem_map.mp hc
    obtain ⟨e, -, hget⟩ := Option.bind_eq_some_iff.mp (Option.mem_def.mp hvalue)
    exact InvoiceExtraction.get_extractable hget
  · obtain ⟨line, -, hline⟩ := List.mem_flatMap.mp hc
    obtain ⟨field, -, rfl⟩ := List.mem_map.mp hline
    obtain ⟨l, -, hget⟩ := Option.bind_eq_some_iff.mp (Option.mem_def.mp hvalue)
    exact InvoiceLineItem.get_extractable hget

/-! ## What is counted -/

section

variable (host : Host) (reader : DecimalReader)

/-- An extracted value has a normal form. -/
theorem normalized_extractable {field : ScoredField} {value : FieldValue}
    (h : Extractable field value) :
    ∃ text, normalized host reader field (some value) = .ok (some text) := by
  unfold normalized
  dsimp only
  split_ifs with haccount hnumeric hdate
  · exact ⟨_, rfl⟩
  · obtain ⟨d, rfl, hd⟩ := h hnumeric
    obtain ⟨r, hr⟩ := normalize_ok hd
    rw [FieldValue.str, pythonStrip_of_not_space (scientific_not_space d), reader.read_scientific]
    dsimp only
    rw [hr]
    exact ⟨_, rfl⟩
  · exact ⟨_, rfl⟩
  · exact ⟨_, rfl⟩

/-- The normal forms are the same. -/
def FieldComparison.Agrees (c : FieldComparison) : Prop :=
  normalized host reader c.field c.expected = normalized host reader c.field c.observed

instance : DecidablePred (FieldComparison.Agrees host reader) :=
  fun _ => inferInstanceAs (Decidable (_ = _))

/-- What a comparison counts. -/
def FieldComparison.counts (c : FieldComparison) : FieldCounts :=
  if c.expected = none then {}
  else if c.Agrees host reader then { tp := 1 }
  else { fp := if c.observed = none then 0 else 1, fn := 1 }

variable {host reader}

theorem ok_or_error {ε α : Type} (x : Except ε α) : (∃ e, x = .error e) ∨ ∃ a, x = .ok a := by
  cases x with
  | error e => exact Or.inl ⟨e, rfl⟩
  | ok a => exact Or.inr ⟨a, rfl⟩

/-- A comparison is counted if what is labelled is normalized without a signal. -/
theorem compareField_eq {c : FieldComparison}
    (hc : ∀ value ∈ c.observed, Extractable c.field value) :
    compareField host reader c =
      (normalized host reader c.field c.expected).map fun _ => c.counts host reader := by
  by_cases hexpected : c.expected = none
  · simp [compareField, FieldComparison.counts, hexpected, normalized, Except.map]
  have hobserved : ∃ actual, normalized host reader c.field c.observed = .ok actual ∧
      (actual = none ↔ c.observed = none) := by
    cases hvalue : c.observed with
    | none => exact ⟨none, rfl, by simp⟩
    | some value =>
      obtain ⟨text, htext⟩ := normalized_extractable host reader (hc value hvalue)
      exact ⟨some text, htext, by simp⟩
  obtain ⟨actual, hactual, hnone⟩ := hobserved
  rcases ok_or_error (normalized host reader c.field c.expected) with ⟨e, hwanted⟩ |
    ⟨wanted, hwanted⟩
  · simp [compareField, hexpected, hactual, hwanted, bind, Except.bind, Except.map]
  · simp [compareField, FieldComparison.counts, FieldComparison.Agrees, hexpected, hactual, hwanted,
      hnone, bind, Except.bind, Except.map, pure, Except.pure]

theorem foldlM_countField {cs : List FieldComparison}
    (hcs : ∀ c ∈ cs, ∀ value ∈ c.observed, Extractable c.field value) {scores scores' : FieldScores}
    (h : cs.foldlM (countField host reader) scores = .ok scores') :
    scores' = scores.addAll (cs.map fun c => (c.field, c.counts host reader)) := by
  induction cs generalizing scores with
  | nil => exact (Except.ok.inj h).symm
  | cons c cs ih =>
    obtain ⟨hc, hcs⟩ := List.forall_mem_cons.mp hcs
    rw [List.foldlM_cons] at h
    obtain ⟨next, hnext, hrest⟩ := bind_eq_ok.mp h
    rw [countField, compareField_eq hc] at hnext
    rcases ok_or_error (normalized host reader c.field c.expected) with ⟨e, hwanted⟩ | ⟨_, hwanted⟩
    · rw [hwanted] at hnext
      cases hnext
    · rw [hwanted] at hnext
      cases hnext
      exact ih hcs hrest

/-- Every labelled value has a normal form. -/
def FieldComparison.Readable (host : Host) (reader : DecimalReader) (c : FieldComparison) : Prop :=
  ∀ value ∈ c.expected, ∃ text, normalized host reader c.field (some value) = .ok (some text)

theorem foldlM_countField_ok {cs : List FieldComparison}
    (hcs : ∀ c ∈ cs, ∀ value ∈ c.observed, Extractable c.field value)
    (hread : ∀ c ∈ cs, c.Readable host reader) (scores : FieldScores) :
    ∃ scores', cs.foldlM (countField host reader) scores = .ok scores' := by
  induction cs generalizing scores with
  | nil => exact ⟨scores, rfl⟩
  | cons c cs ih =>
    obtain ⟨hc, hcs⟩ := List.forall_mem_cons.mp hcs
    obtain ⟨hreadc, hread⟩ := List.forall_mem_cons.mp hread
    have hwanted : ∃ wanted, normalized host reader c.field c.expected = .ok wanted := by
      cases hexpected : c.expected with
      | none => exact ⟨none, rfl⟩
      | some value => exact (hreadc value hexpected).imp' _ fun _ h => h
    obtain ⟨wanted, hwanted⟩ := hwanted
    obtain ⟨scores', hscores⟩ := ih hcs hread (scores.add c.field (c.counts host reader))
    refine ⟨scores', ?_⟩
    rw [List.foldlM_cons, countField, compareField_eq hc, hwanted]
    exact hscores

variable (host reader) in
/-- All that the scores add up. -/
def scoreEntries (label : InvoiceLabel) (extraction : Option InvoiceExtraction) :
    List (ScoredField × FieldCounts) :=
  (fieldComparisons label extraction).map (fun c => (c.field, c.counts host reader)) ++
    (extraFields label extraction).map fun field => (.line field, { fp := 1 })

theorem foldl_extraFields (fields : List LineField) (scores : FieldScores) :
    fields.foldl (fun scores field => scores.add (.line field) { fp := 1 }) scores =
      scores.addAll (fields.map fun field => (.line field, { fp := 1 })) := by
  rw [FieldScores.addAll, List.foldl_map]

theorem addAll_append (scores : FieldScores) (entries entries' : List (ScoredField × FieldCounts)) :
    scores.addAll (entries ++ entries') = (scores.addAll entries).addAll entries' :=
  List.foldl_append

section

variable {label : InvoiceLabel} {extraction : Option InvoiceExtraction}

theorem scoreFields_count {scores : FieldScores}
    (h : scoreFields host reader label extraction = .ok scores) :
    scores = FieldScores.addAll (fun _ => {}) (scoreEntries host reader label extraction) := by
  have hall := fun c => @fieldComparisons_extractable label extraction c
  rw [fieldComparisons, List.forall_mem_append] at hall
  obtain ⟨headers, hheaders, h⟩ := bind_eq_ok.mp h
  obtain ⟨lines, hlines, h⟩ := bind_eq_ok.mp h
  rw [← Except.ok.inj h, foldl_extraFields, foldlM_countField hall.2 hlines,
    foldlM_countField hall.1 hheaders, ← addAll_append, ← addAll_append, scoreEntries,
    fieldComparisons, List.map_append, List.append_assoc]

theorem scoreFields_ok (hread : ∀ c ∈ fieldComparisons label extraction, c.Readable host reader) :
    ∃ scores, scoreFields host reader label extraction = .ok scores := by
  have hall := fun c => @fieldComparisons_extractable label extraction c
  rw [fieldComparisons, List.forall_mem_append] at hall hread
  obtain ⟨headers, hheaders⟩ := foldlM_countField_ok hall.1 hread.1 fun _ => {}
  obtain ⟨lines, hlines⟩ := foldlM_countField_ok hall.2 hread.2 headers
  rw [scoreFields, hheaders]
  dsimp only [bind, Except.bind]
  rw [hlines]
  exact ⟨_, rfl⟩

variable (host reader) in
/-- A value that is labelled and extracted, in the same normal form. -/
def FieldComparison.Matched (c : FieldComparison) : Prop :=
  (c.expected ≠ none ∧ c.observed ≠ none) ∧ c.Agrees host reader

variable (host reader) in
/-- A value that is labelled and extracted, in other normal forms. -/
def FieldComparison.Differs (c : FieldComparison) : Prop :=
  (c.expected ≠ none ∧ c.observed ≠ none) ∧ ¬c.Agrees host reader

instance : DecidablePred (FieldComparison.Matched host reader) :=
  fun _ => inferInstanceAs (Decidable (_ ∧ _))

instance : DecidablePred (FieldComparison.Differs host reader) :=
  fun _ => inferInstanceAs (Decidable (_ ∧ _))

/-- The values of a label. -/
def InvoiceLabel.values (label : InvoiceLabel) : List FieldValue :=
  headerFields.filterMap label.get ++
    label.lineItems.flatMap fun line => lineFields.filterMap line.get

theorem filterMap_expected (label : InvoiceLabel) (extraction : Option InvoiceExtraction) :
    (fieldComparisons label extraction).filterMap FieldComparison.expected = label.values := by
  have hlines : (lineComparisons label extraction).filterMap FieldComparison.expected =
      (label.lineItems.zipIdx.map Prod.fst).flatMap fun line => lineFields.filterMap line.get := by
    rw [lineComparisons, List.filterMap_flatMap, List.flatMap_map]
    exact List.flatMap_congr fun line _ => List.filterMap_map ..
  rw [fieldComparisons, List.filterMap_append, hlines, List.zipIdx_map_fst, headerComparisons,
    List.filterMap_map]
  rfl

/-- A labelled value is matched or missed. -/
theorem labelled_counts (cs : List FieldComparison) :
    ((cs.map (FieldComparison.counts host reader)).sum).tp +
      ((cs.map (FieldComparison.counts host reader)).sum).fn =
        (cs.filterMap FieldComparison.expected).length := by
  induction cs with
  | nil => rfl
  | cons c cs ih =>
    rw [List.map_cons, List.sum_cons, FieldCounts.add_tp, FieldCounts.add_fn]
    cases hexpected : c.expected with
    | none =>
      rw [List.filterMap_cons_none hexpected, FieldComparison.counts, if_pos hexpected]
      simpa using ih
    | some value =>
      have hne : c.expected ≠ none := by simp [hexpected]
      rw [List.filterMap_cons_some hexpected, List.length_cons, FieldComparison.counts, if_neg hne]
      split_ifs <;> dsimp only <;> omega

/-- What is counted once for each comparison with a property is counted as often as there are
such. -/
theorem sum_counts {p : FieldCounts → ℕ} (hzero : p 0 = 0) (hadd : ∀ a b, p (a + b) = p a + p b)
    {Q : FieldComparison → Prop} [DecidablePred Q] {cs : List FieldComparison}
    (h : ∀ c ∈ cs, p (c.counts host reader) = if Q c then 1 else 0) :
    p ((cs.map (FieldComparison.counts host reader)).sum) = (cs.filter fun c => Q c).length := by
  induction cs with
  | nil => exact hzero
  | cons c cs ih =>
    obtain ⟨hc, hcs⟩ := List.forall_mem_cons.mp h
    rw [List.map_cons, List.sum_cons, hadd, ih hcs, hc]
    by_cases hQ : Q c
    · rw [if_pos hQ, List.filter_cons_of_pos (by simpa using hQ), List.length_cons, add_comm]
    · rw [if_neg hQ, List.filter_cons_of_neg (by simpa using hQ), zero_add]

theorem counts_fp (c : FieldComparison) :
    (c.counts host reader).fp = if c.Differs host reader then 1 else 0 := by
  unfold FieldComparison.counts FieldComparison.Differs
  split_ifs <;> simp_all

theorem agrees_matched {c : FieldComparison} (hread : c.Readable host reader)
    (hexpected : c.expected ≠ none) (hagrees : c.Agrees host reader) : c.Matched host reader := by
  refine ⟨⟨hexpected, fun hobserved => ?_⟩, hagrees⟩
  obtain ⟨value, hvalue⟩ := Option.ne_none_iff_exists'.mp hexpected
  obtain ⟨text, htext⟩ := hread value hvalue
  rw [FieldComparison.Agrees, hvalue, hobserved, htext] at hagrees
  cases hagrees

/-- What is read of a label is matched by an extracted value alone. -/
theorem counts_tp {c : FieldComparison} (hread : c.Readable host reader) :
    (c.counts host reader).tp = if c.Matched host reader then 1 else 0 := by
  have hmatched := agrees_matched hread
  have hagrees : c.Matched host reader → c.expected ≠ none ∧ c.Agrees host reader :=
    fun h => ⟨h.1.1, h.2⟩
  unfold FieldComparison.counts
  split_ifs <;> simp_all

theorem counts_fn {c : FieldComparison} (hread : c.Readable host reader) :
    (c.counts host reader).fn =
      if c.expected ≠ none ∧ ¬c.Matched host reader then 1 else 0 := by
  have hmatched := agrees_matched hread
  have hagrees : c.Matched host reader → c.Agrees host reader := fun h => h.2
  unfold FieldComparison.counts
  split_ifs <;> simp_all

theorem sum_extraFields (fields : List LineField) :
    (fields.map fun _ => ({ fp := 1 } : FieldCounts)).sum = { fp := fields.length } := by
  induction fields with
  | nil => rfl
  | cons field fields ih =>
    rw [List.map_cons, List.sum_cons, ih]
    ext <;> simp [Nat.add_comm]

/-- The scores of all fields. -/
theorem total_scores {label : InvoiceLabel} {extraction : Option InvoiceExtraction}
    {scores : FieldScores} (h : scoreFields host reader label extraction = .ok scores) :
    scores.total =
      ((fieldComparisons label extraction).map (FieldComparison.counts host reader)).sum +
        { fp := (extraFields label extraction).length } := by
  have hstart : FieldScores.total (fun _ => {}) = 0 := rfl
  rw [scoreFields_count h, total_addAll, hstart, zero_add, scoreEntries, List.map_append,
    List.sum_append, List.map_map, List.map_map, ← sum_extraFields]
  rfl

/-- The true positives of a field. -/
theorem scores_tp {label : InvoiceLabel} {extraction : Option InvoiceExtraction}
    {scores : FieldScores} (h : scoreFields host reader label extraction = .ok scores)
    (hread : ∀ c ∈ fieldComparisons label extraction, c.Readable host reader)
    (field : ScoredField) :
    (scores field).tp =
      (((fieldComparisons label extraction).filter fun c => c.field = field).filter
        fun c => c.Matched host reader).length := by
  have hextra : ∀ fields : List LineField, (((fields.map fun f =>
      ((.line f, { fp := 1 }) : ScoredField × FieldCounts)).filter fun e => e.1 = field).map
        Prod.snd).sum.tp = 0 := by
    intro fields
    induction fields with
    | nil => rfl
    | cons f fields ih =>
      rw [List.map_cons, List.filter_cons]
      split_ifs
      · rw [List.map_cons, List.sum_cons, FieldCounts.add_tp, ih]
      · exact ih
  have hfilter : (((fieldComparisons label extraction).map fun c =>
      (c.field, c.counts host reader)).filter fun e => e.1 = field).map Prod.snd =
        ((fieldComparisons label extraction).filter fun c => c.field = field).map
          (FieldComparison.counts host reader) := by
    rw [List.filter_map, List.map_map]
    rfl
  rw [scoreFields_count h, addAll_apply, scoreEntries, List.filter_append, List.map_append,
    List.sum_append, hfilter]
  simp only [FieldCounts.add_tp, hextra, add_zero, zero_add]
  exact sum_counts rfl (fun _ _ => rfl) fun c hc => counts_tp (hread c (List.mem_of_mem_filter hc))

/-- An extraction has few values. -/
theorem lineComparisons_observed (lines : List LineLabel) (observed : List InvoiceLineItem) :
    ∀ k : ℕ, (((lines.zipIdx k).flatMap fun (line, index) => lineFields.map fun field =>
      (⟨.line field, line.get field, observed[index]?.bind fun l => l.get field⟩ :
        FieldComparison)).filter fun c => c.observed ≠ none).length ≤
          5 * (observed.length - k) := by
  induction lines with
  | nil => exact fun _ => Nat.zero_le _
  | cons line lines ih =>
    intro k
    have hrest := ih (k + 1)
    rw [List.zipIdx_cons, List.flatMap_cons, List.filter_append, List.length_append]
    dsimp only at hrest ⊢
    by_cases hk : k < observed.length
    · have hline := List.length_filter_le (fun c : FieldComparison => decide (c.observed ≠ none))
        (lineFields.map fun field =>
          ⟨.line field, line.get field, observed[k]?.bind fun l => l.get field⟩)
      rw [List.length_map] at hline
      have hfields : lineFields.length = 5 := rfl
      omega
    · have hnone : observed[k]? = none := List.getElem?_eq_none (by omega)
      have hline : (lineFields.map fun field => (⟨.line field, line.get field,
          observed[k]?.bind fun l => l.get field⟩ : FieldComparison)).filter
            (fun c => c.observed ≠ none) = [] := by
        rw [hnone]
        rfl
      rw [hline, List.length_nil]
      omega

theorem length_observedLines (extraction : Option InvoiceExtraction) :
    (observedLines extraction).length ≤ 500 := by
  cases extraction with
  | none => exact Nat.zero_le _
  | some e => exact e.lineItems.property

theorem matched_few (label : InvoiceLabel) (extraction : Option InvoiceExtraction) :
    ((fieldComparisons label extraction).filter fun c => c.Matched host reader).length ≤ 2511 := by
  have hobserved : ((fieldComparisons label extraction).filter fun c =>
      c.Matched host reader).length ≤
        ((fieldComparisons label extraction).filter fun c => c.observed ≠ none).length := by
    rw [← List.countP_eq_length_filter, ← List.countP_eq_length_filter]
    exact List.countP_mono_left fun c _ h => by simpa using (of_decide_eq_true h).1.2
  have hheader := List.length_filter_le (fun c : FieldComparison => decide (c.observed ≠ none))
    (headerComparisons label extraction)
  have hlength : (headerComparisons label extraction).length = 11 := rfl
  have hlines := lineComparisons_observed label.lineItems (observedLines extraction) 0
  have hfew := length_observedLines extraction
  refine hobserved.trans ?_
  rw [fieldComparisons, List.filter_append, List.length_append, lineComparisons]
  omega

end

theorem observed_unread {label : InvoiceLabel} {c : FieldComparison}
    (hc : c ∈ fieldComparisons label none) : c.observed = none := by
  rcases List.mem_append.mp hc with hc | hc
  · obtain ⟨field, -, rfl⟩ := List.mem_map.mp hc
    rfl
  · obtain ⟨line, -, hfield⟩ := List.mem_flatMap.mp hc
    obtain ⟨field, -, rfl⟩ := List.mem_map.mp hfield
    rfl

variable (host reader) in
/-- Each labelled value has a normal form : the numbers are numbers, and do not overflow. -/
structure InvoiceLabel.Readable (label : InvoiceLabel) : Prop where
  header : ∀ field value, label.get field = some value →
    ∃ text, normalized host reader (.header field) (some value) = .ok (some text)
  lines : ∀ line ∈ label.lineItems, ∀ field value, line.get field = some value →
    ∃ text, normalized host reader (.line field) (some value) = .ok (some text)

theorem InvoiceLabel.Readable.comparisons {label : InvoiceLabel} (h : label.Readable host reader)
    (extraction : Option InvoiceExtraction) :
    ∀ c ∈ fieldComparisons label extraction, c.Readable host reader := by
  intro c hc value hvalue
  rcases List.mem_append.mp hc with hc | hc
  · obtain ⟨field, -, rfl⟩ := List.mem_map.mp hc
    exact h.header field value hvalue
  · obtain ⟨line, hline, hfield⟩ := List.mem_flatMap.mp hc
    obtain ⟨field, -, rfl⟩ := List.mem_map.mp hfield
    exact h.lines line.1 (List.fst_mem_of_mem_zipIdx hline) field value hvalue

end

theorem f1_eq_one_iff {host : Host} {reader : DecimalReader} {label : InvoiceLabel}
    {extraction : Option InvoiceExtraction} {scores : FieldScores}
    (h : scoreFields host reader label extraction = .ok scores)
    (hread : ∀ c ∈ fieldComparisons label extraction, c.Readable host reader) :
    (∃ d : Decimal, scores.total.f1 = .ok (some (.finite d)) ∧ d.value = 1) ↔
      label.values ≠ [] ∧
        (∀ c ∈ fieldComparisons label extraction, c.expected ≠ none → c.Matched host reader) ∧
        extraFields label extraction = [] := by
  have hvalues := @labelled_counts host reader (fieldComparisons label extraction)
  have htps := sum_counts (p := FieldCounts.tp) rfl FieldCounts.add_tp
    fun c hc => counts_tp (hread c hc)
  have hfps := sum_counts (p := FieldCounts.fp) rfl FieldCounts.add_fp
    fun c (_ : c ∈ fieldComparisons label extraction) => @counts_fp host reader c
  have hfns := sum_counts (p := FieldCounts.fn) rfl FieldCounts.add_fn
    fun c hc => counts_fn (hread c hc)
  have hfew := @matched_few host reader label extraction
  rw [filterMap_expected, htps, hfns] at hvalues
  rw [total_scores h, FieldCounts.f1_eq_one]
  · simp only [FieldCounts.add_tp, FieldCounts.add_fn, FieldCounts.add_fp, add_zero, htps, hfps,
      hfns, Nat.add_eq_zero_iff, List.length_eq_zero_iff, List.filter_eq_nil_iff, decide_eq_true_eq]
    constructor
    · rintro ⟨hmatched, ⟨-, hextra⟩, hmissed⟩
      refine ⟨fun hnil => ?_, fun c hc hexpected => ?_, hextra⟩
      · rw [hnil, List.length_nil] at hvalues
        omega
      · exact not_not.mp fun hnot => hmissed c hc ⟨hexpected, hnot⟩
    · rintro ⟨hlabelled, hall, hextra⟩
      have hmissed : ∀ c ∈ fieldComparisons label extraction,
          ¬(c.expected ≠ none ∧ ¬c.Matched host reader) :=
        fun c hc hmissed => hmissed.2 (hall c hc hmissed.1)
      refine ⟨?_, ⟨fun c hc hdiffers => hdiffers.2 (hall c hc hdiffers.1.1).2, hextra⟩, hmissed⟩
      have hnone : (fieldComparisons label extraction).filter
          (fun c => c.expected ≠ none ∧ ¬c.Matched host reader) = [] :=
        List.filter_eq_nil_iff.mpr fun c hc hmiss => hmissed c hc (of_decide_eq_true hmiss)
      rw [hnone, List.length_nil, Nat.add_zero] at hvalues
      rw [hvalues]
      exact List.length_pos_iff.mpr hlabelled
  · rw [FieldCounts.add_tp, htps]
    exact lt_of_le_of_lt (Nat.add_le_add_right hfew 0) (by norm_num)

/-- The scores of a document add up to what is labelled and to what is wrong. Where the labels are
readable there are scores, only an extracted value is a true positive, and the F1 score is one just
when something is labelled, all of it is matched and there is nothing more. -/
theorem field_scoring_sound (host : Host) (reader : DecimalReader) (label : InvoiceLabel)
    (extraction : Option InvoiceExtraction) :
    (∀ scores, scoreFields host reader label extraction = .ok scores →
      scores.total.tp + scores.total.fn = label.values.length ∧
        scores.total.fp =
          ((fieldComparisons label extraction).filter fun c => c.Differs host reader).length +
            (extraFields label extraction).length) ∧
    (label.Readable host reader →
      ∃ scores, scoreFields host reader label extraction = .ok scores ∧
        (∀ field, (scores field).tp =
          (((fieldComparisons label extraction).filter fun c => c.field = field).filter
            fun c => c.Matched host reader).length) ∧
        (extraction = none → ∀ field, (scores field).tp = 0) ∧
        ((∃ d : Decimal, scores.total.f1 = .ok (some (.finite d)) ∧ d.value = 1) ↔
          label.values ≠ [] ∧
            (∀ c ∈ fieldComparisons label extraction, c.expected ≠ none → c.Matched host reader) ∧
            extraFields label extraction = [])) := by
  constructor
  · intro scores h
    have hfp := sum_counts (p := FieldCounts.fp) rfl FieldCounts.add_fp
      fun c (_ : c ∈ fieldComparisons label extraction) => @counts_fp host reader c
    rw [total_scores h, ← filterMap_expected label extraction]
    simp only [FieldCounts.add_tp, FieldCounts.add_fn, FieldCounts.add_fp, add_zero]
    exact ⟨labelled_counts _, by rw [hfp]⟩
  · intro hlabel
    have hread := hlabel.comparisons extraction
    obtain ⟨scores, h⟩ := scoreFields_ok hread
    have htp := scores_tp h hread
    refine ⟨scores, h, htp, fun hnone field => ?_, ?_⟩
    · subst hnone
      have hnil : ((fieldComparisons label none).filter fun c => c.field = field).filter
          (fun c => c.Matched host reader) = [] := by
        refine List.filter_eq_nil_iff.mpr fun c hc hmatched => ?_
        exact (of_decide_eq_true hmatched).1.2 (observed_unread (List.mem_of_mem_filter hc))
      exact (htp field).trans (congrArg List.length hnil)
    · exact f1_eq_one_iff h hread

/-- A labelled text that is not a number is matched by nothing at all, one that overflows is raised,
and a document without labels has no F1 score. -/
theorem field_scoring_unreadable :
    (scoreFields Host.sample .sample { subtotal := some "n/a" } none).map
      (fun scores => (scores (.header .subtotal)).tp) = .ok 1 ∧
    (scoreFields Host.sample .sample { subtotal := some "1e1000000" } none).map
      (fun scores => scores.total) = .error .overflow ∧
    (scoreFields Host.sample .sample {} none).map (fun scores => scores.total.f1) =
      .ok (.ok none) ∧
    InvoiceLabel.values {} = [] ∧ (∀ c ∈ fieldComparisons {} none, c.expected = none) ∧
    extraFields {} none = [] := by
  refine ⟨by decide +kernel, by decide +kernel, by decide +kernel, rfl, ?_, rfl⟩
  simp [fieldComparisons, headerComparisons, lineComparisons, headerFields, InvoiceLabel.get]

end InvoiceOps
