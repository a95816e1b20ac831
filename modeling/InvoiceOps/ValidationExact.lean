import InvoiceOps.Validation
import Mathlib.Tactic.NormNum

/-!
# Validation is exact

What each control of `validateInvoice` finds, on the rationals and in the order of the checks
(`findings`), and what an accepted invoice is (`Accepted`). An arithmetic control has something to
compare only if all its operands are there and allowed.

Extracted numbers have at most eighteen digits and an invoice at most five hundred lines, so that
every intermediate result is exact in the context of the checks (`Operand`, `exact_of_grid`).
-/

open Decimal (Context Grid roundHalfUp)

namespace InvoiceOps

/-! ## What the controls find -/

/-- An issue on the rationals. -/
structure Finding where
  code : IssueCode
  field : String
  lineNumber : Option ℕ := none
  expected : Option ℚ := none
  actual : Option ℚ := none
  difference : Option ℚ := none
  tolerance : Option ℚ := none

/-- An issue, with its numbers by value. -/
def ValidationIssue.finding (issue : ValidationIssue) : Finding where
  code := issue.val.code
  field := issue.val.field
  lineNumber := issue.val.lineNumber
  expected := issue.val.expected.map Decimal.value
  actual := issue.val.actual.map Decimal.value
  difference := issue.val.difference.map Decimal.value
  tolerance := issue.val.tolerance.map Decimal.value

namespace Control

/-- The number of an observed decimal. -/
def number? {p : Decimal → Prop} (field : ExtractedField { d // p d }) : Option ℚ :=
  field.value.map fun d => d.val.value

/-- The number, if it is there and allowed. -/
def allowed (bad : ℚ → Prop) [DecidablePred bad] (value : Option ℚ) : Option ℚ :=
  value.filter fun x => ¬bad x

/-- A missing field is a finding. -/
def missing (lineNumber : Option ℕ) (field : String × Bool) : Option Finding :=
  if field.2 then some { code := .requiredField, field := field.1, lineNumber := lineNumber }
  else none

/-- A number that is not allowed is a finding. -/
def invalid (code : IssueCode) (field : String) (bad : ℚ → Prop) [DecidablePred bad]
    (value : Option ℚ) (lineNumber : Option ℕ) : Option Finding :=
  (value.filter fun x => bad x).map fun x =>
    { code := code, field := field, lineNumber := lineNumber, actual := some x }

/-- Two numbers that are both there and too far apart are a finding. -/
def mismatch (code : IssueCode) (field : String) (expected actual : Option ℚ) (tolerance : ℚ)
    (lineNumber : Option ℕ) : Option Finding :=
  expected.bind fun x => actual.bind fun y =>
    if tolerance < |y - x| then
      some ⟨code, field, lineNumber, some x, some y, some (y - x), some tolerance⟩
    else none

/-- The product of two numbers that are both there, rounded to the currency's decimals. -/
def roundedProduct (rule : CurrencyRule) (x y : Option ℚ) : Option ℚ :=
  x.bind fun x => y.map fun y => roundHalfUp (x * y) (-rule.decimalPlaces.val)

/-- The sum of numbers that are all there, and of at least one. -/
def sumAll (values : List (Option ℚ)) : Option ℚ :=
  if values = [] ∨ values.any Option.isNone then none else some (values.filterMap id).sum

/-- The price of a line, unless it is negative. -/
def price? (line : InvoiceLineItem) : Option ℚ :=
  allowed (· < 0) (number? line.unitPrice)

/-- The net amount of a line, unless it is negative. -/
def net? (line : InvoiceLineItem) : Option ℚ :=
  allowed (· < 0) (number? line.lineTotal)

/-- The quantity of a line, if it is positive. -/
def quantity? (line : InvoiceLineItem) : Option ℚ :=
  allowed (· ≤ 0) (number? line.quantity)

/-- The tax rate of a line, if it is between zero and one. -/
def rate? (line : InvoiceLineItem) : Option ℚ :=
  allowed (fun r => ¬(0 ≤ r ∧ r ≤ 1)) (number? line.taxRate)

/-- What the net amount of a line should be. -/
def lineExpected (rule : CurrencyRule) (line : InvoiceLineItem) : Option ℚ :=
  roundedProduct rule (quantity? line) (price? line)

/-- The tax of a line. -/
def lineTax (rule : CurrencyRule) (line : InvoiceLineItem) : Option ℚ :=
  roundedProduct rule (net? line) (rate? line)

/-- The findings of a line. -/
def lineFindings (rule : Option CurrencyRule) (line : InvoiceLineItem) (number : ℕ) :
    List Finding :=
  (Validate.lineFields line).filterMap (missing (some number)) ++
  (invalid .negativeValue "unit_price" (· < 0) (number? line.unitPrice) (some number)).toList ++
  (invalid .negativeValue "line_total" (· < 0) (number? line.lineTotal) (some number)).toList ++
  (invalid .nonpositiveQuantity "quantity" (· ≤ 0) (number? line.quantity) (some number)).toList ++
  (invalid .taxRateOutOfRange "tax_rate" (fun r => ¬(0 ≤ r ∧ r ≤ 1)) (number? line.taxRate)
    (some number)).toList ++
  (rule.bind fun rule => mismatch .lineMathMismatch "line_total" (lineExpected rule line)
    (net? line) rule.absoluteTolerance.val.value (some number)).toList

variable (extraction : InvoiceExtraction)

/-- The subtotal, unless it is negative. -/
def subtotal? : Option ℚ :=
  allowed (· < 0) (number? extraction.subtotal)

/-- The tax, unless it is negative. -/
def tax? : Option ℚ :=
  allowed (· < 0) (number? extraction.taxAmount)

/-- The total, unless it is negative. -/
def total? : Option ℚ :=
  allowed (· < 0) (number? extraction.totalAmount)

/-- The findings about the totals. -/
def totalFindings (rule : CurrencyRule) : List Finding :=
  (mismatch .subtotalMismatch "subtotal" (sumAll (extraction.lineItems.val.map net?))
    (subtotal? extraction) rule.absoluteTolerance.val.value none).toList ++
  (mismatch .taxMismatch "tax_amount" (sumAll (extraction.lineItems.val.map (lineTax rule)))
    (tax? extraction) rule.absoluteTolerance.val.value none).toList ++
  (mismatch .totalMismatch "total_amount"
    ((subtotal? extraction).bind fun s => (tax? extraction).map fun t => s + t)
    (total? extraction) rule.absoluteTolerance.val.value none).toList

/-- All the findings, in the order of the checks. -/
def findings (config : ValidationConfig) : List Finding :=
  let rule := Validate.rule? extraction config
  (Validate.invoiceFields extraction).filterMap (missing none) ++
  (if extraction.lineItems.val = [] then [{ code := .emptyLines, field := "line_items" }]
    else []) ++
  (if extraction.currency.value ≠ none ∧ rule = none then
    [{ code := .unsupportedCurrency, field := "currency" }] else []) ++
  (invalid .negativeValue "subtotal" (· < 0) (number? extraction.subtotal) none).toList ++
  (invalid .negativeValue "tax_amount" (· < 0) (number? extraction.taxAmount) none).toList ++
  (invalid .negativeValue "total_amount" (· < 0) (number? extraction.totalAmount) none).toList ++
  (extraction.lineItems.val.zipIdx 1).flatMap (fun line => lineFindings rule line.1 line.2) ++
  rule.elim [] (totalFindings extraction)

end Control

/-! ## Exactness -/

theorem exact_of_grid {x : ℚ} {n : ℕ} (h : Grid n x) (hn : n ≤ 18) (hx : |x| ≤ 10 ^ 41) :
    exactContext.Exact x := by
  have hctx : exactContext.etiny ≤ -n ∧ -n ≤ exactContext.etop := by
    constructor
    · change (-999999 - 60 + 1 : ℤ) ≤ -n
      omega
    · change (-n : ℤ) ≤ 999999 - 60 + 1
      omega
  refine h.exact hctx.1 hctx.2 ?_
  have hpow : (10 : ℚ) ^ n ≤ 10 ^ 18 := pow_le_pow_right₀ (by norm_num) hn
  have hprec : (10 : ℚ) ^ exactContext.prec = 10 ^ 60 := rfl
  rw [hprec]
  calc |x| * 10 ^ n ≤ 10 ^ 41 * 10 ^ 18 := mul_le_mul hx hpow (by positivity) (by positivity)
    _ < 10 ^ 60 := by norm_num

/-- An operand of the checks. -/
structure Operand (d : Decimal) : Prop where
  grid : Grid 6 d.value
  nonneg : 0 ≤ d.value
  le : d.value ≤ 10 ^ 14

/-- An intermediate amount of the checks. -/
structure Result (d : Decimal) : Prop where
  grid : Grid 6 d.value
  nonneg : 0 ≤ d.value
  le : d.value ≤ 10 ^ 40

theorem Operand.result {d : Decimal} (h : Operand d) : Result d :=
  ⟨h.grid, h.nonneg, h.le.trans (by norm_num)⟩

theorem operand_of_fits {d : Decimal} {maxDigits places : ℕ} (h : d.fits maxDigits places)
    (hplaces : places ≤ 6) (hwhole : maxDigits ≤ 14 + places) (hnonneg : 0 ≤ d.value) :
    Operand d := by
  obtain ⟨hgrid, hlt⟩ := Decimal.fits_bound h
  refine ⟨hgrid.mono hplaces, hnonneg, ?_⟩
  have hpow : (10 : ℚ) ^ maxDigits ≤ 10 ^ 14 * 10 ^ places := by
    rw [← pow_add]
    exact pow_le_pow_right₀ (by norm_num) hwhole
  have hle : (10 : ℚ) ^ maxDigits / 10 ^ places ≤ 10 ^ 14 := by
    rw [div_le_iff₀ (by positivity)]
    exact hpow
  exact (le_abs_self _).trans (hlt.le.trans hle)

/-- The product of two operands, rounded to a currency's decimals. -/
theorem quantize_product {x y : Decimal} (hx : Operand x) (hy : Operand y) (rule : CurrencyRule) :
    ∃ p q : Decimal, (exactContext.mul x y : Except Exn Decimal) = .ok p ∧
      p.value = x.value * y.value ∧
      (exactContext.quantize p (-rule.decimalPlaces.val) : Except Exn Decimal) = .ok q ∧
      q.value = roundHalfUp (x.value * y.value) (-rule.decimalPlaces.val) ∧
      Grid 6 q.value ∧ 0 ≤ q.value ∧ q.value ≤ 10 ^ 28 + 1 := by
  have hnonneg : 0 ≤ x.value * y.value := mul_nonneg hx.nonneg hy.nonneg
  have hle : x.value * y.value ≤ 10 ^ 28 := by
    calc x.value * y.value ≤ 10 ^ 14 * 10 ^ 14 :=
          mul_le_mul hx.le hy.le hy.nonneg (by positivity)
      _ = 10 ^ 28 := by norm_num
  have habs : |x.value * y.value| ≤ 10 ^ 41 := by
    rw [abs_of_nonneg hnonneg]
    exact hle.trans (by norm_num)
  obtain ⟨p, hp, hpv⟩ := Context.mul_exact (ε := Exn)
    (exact_of_grid (hx.grid.mul hy.grid) (by norm_num) habs)
  have hplaces := rule.decimalPlaces.property
  have hquantum : (10 : ℚ) ^ 55 ≤ 10 ^ ((60 : ℤ) - 1 + -rule.decimalPlaces.val) := by
    have h55 : (10 : ℚ) ^ 55 = 10 ^ (55 : ℤ) := by norm_cast
    rw [h55]
    exact zpow_le_zpow_right₀ (by norm_num) (by omega)
  have hlt : |p.value| < 10 ^ ((exactContext.prec : ℤ) - 1 + -rule.decimalPlaces.val) := by
    rw [hpv, abs_of_nonneg hnonneg]
    exact hle.trans_lt ((by norm_num : (10 : ℚ) ^ 28 < 10 ^ 55).trans_le hquantum)
  have hetiny : exactContext.etiny ≤ -rule.decimalPlaces.val := by
    change (-999999 - 60 + 1 : ℤ) ≤ _
    omega
  have hetop : -rule.decimalPlaces.val ≤ exactContext.etop := by
    change _ ≤ (999999 - 60 + 1 : ℤ)
    omega
  obtain ⟨q, hq, hqv⟩ := Context.quantize_eq (ε := Exn) rfl (by decide) hetiny hetop hlt
  rw [hpv] at hqv
  refine ⟨p, q, hp, hpv, hq, hqv, ?_, ?_, ?_⟩
  · rw [hqv]
    exact (Grid.roundHalfUp _ _).mono (by omega)
  · rw [hqv]
    exact Decimal.roundHalfUp_nonneg hnonneg _
  · rw [hqv]
    have hhalf : (10 : ℚ) ^ (-(rule.decimalPlaces.val : ℤ)) ≤ 1 :=
      zpow_le_one_of_nonpos₀ (by norm_num) (by omega)
    have := Decimal.roundHalfUp_le hnonneg (-rule.decimalPlaces.val)
    linarith

/-- A part of a sum of at most five hundred amounts. -/
theorem prefix_amounts {ds l : List Decimal} {n : ℕ} {bound : ℚ} (hbound : 500 * bound ≤ 10 ^ 40)
    (hlen : ds.length ≤ 500) (h : ∀ d ∈ ds, Grid n d.value ∧ 0 ≤ d.value ∧ d.value ≤ bound)
    (hl : l <+: ds) : Grid n (l.map Decimal.value).sum ∧ 0 ≤ (l.map Decimal.value).sum ∧
      (l.map Decimal.value).sum ≤ 10 ^ 40 := by
  refine ⟨Grid.sum fun x hx => ?_, List.sum_nonneg fun x hx => ?_, ?_⟩
  · obtain ⟨d, hd, rfl⟩ := List.mem_map.mp hx
    exact (h d (hl.subset hd)).1
  · obtain ⟨d, hd, rfl⟩ := List.mem_map.mp hx
    exact (h d (hl.subset hd)).2.1
  · have hle := List.sum_le_card_nsmul (l.map Decimal.value) bound fun x hx => by
      obtain ⟨d, hd, rfl⟩ := List.mem_map.mp hx
      exact (h d (hl.subset hd)).2.2
    rw [List.length_map, nsmul_eq_mul] at hle
    have hlength : (l.length : ℚ) ≤ 500 := by exact_mod_cast hl.length_le.trans hlen
    rcases le_total 0 bound with hpos | hneg
    · exact hle.trans ((mul_le_mul_of_nonneg_right hlength hpos).trans hbound)
    · exact hle.trans ((mul_nonpos_of_nonneg_of_nonpos (by positivity) hneg).trans (by norm_num))

theorem prefix_exact {ds l : List Decimal} {n : ℕ} {bound : ℚ} (hn : n ≤ 18)
    (hbound : 500 * bound ≤ 10 ^ 40) (hlen : ds.length ≤ 500)
    (h : ∀ d ∈ ds, Grid n d.value ∧ 0 ≤ d.value ∧ d.value ≤ bound) (hl : l <+: ds) :
    exactContext.Exact (Decimal.zero.value + (l.map Decimal.value).sum) := by
  obtain ⟨hgrid, hnonneg, hle⟩ := prefix_amounts hbound hlen h hl
  rw [Decimal.value_zero, zero_add]
  refine exact_of_grid hgrid hn ?_
  rw [abs_of_nonneg hnonneg]
  exact hle.trans (by norm_num)

/-- A sum of at most five hundred amounts. -/
theorem sum_amounts {ds : List Decimal} {n : ℕ} {bound : ℚ} (hn : n ≤ 18)
    (hbound : 500 * bound ≤ 10 ^ 40) (hlen : ds.length ≤ 500)
    (h : ∀ d ∈ ds, Grid n d.value ∧ 0 ≤ d.value ∧ d.value ≤ bound) :
    ∃ sum : Decimal, (exactContext.sum ds .zero : Except Exn Decimal) = .ok sum ∧
      sum.value = (ds.map Decimal.value).sum ∧ Grid n sum.value ∧ 0 ≤ sum.value ∧
      sum.value ≤ 10 ^ 40 := by
  obtain ⟨sum, hsum, hvalue⟩ := Context.sum_exact (ε := Exn) fun l hl =>
    prefix_exact hn hbound hlen h hl
  rw [Decimal.value_zero, zero_add] at hvalue
  obtain ⟨hgrid, hnonneg, hle⟩ := prefix_amounts hbound hlen h (List.prefix_refl ds)
  rw [← hvalue] at hgrid hnonneg hle
  exact ⟨sum, hsum, hvalue, hgrid, hnonneg, hle⟩

/-! ## Lists of results -/

/-- A function that is defined on all of a list. -/
theorem mapM_forall₂ {α β : Type} {f : α → Except Exn β} {R : α → β → Prop} {l : List α}
    (h : ∀ a ∈ l, ∃ b, f a = .ok b ∧ R a b) :
    ∃ bs, l.mapM f = .ok bs ∧ List.Forall₂ R l bs := by
  induction l with
  | nil => exact ⟨[], rfl, .nil⟩
  | cons a l ih =>
    obtain ⟨b, hb, hR⟩ := h a List.mem_cons_self
    obtain ⟨bs, hbs, hall⟩ := ih fun x hx => h x (List.mem_cons_of_mem a hx)
    refine ⟨b :: bs, ?_, .cons hR hall⟩
    rw [List.mapM_cons, hb, ok_bind, hbs]
    rfl

theorem forall₂_of_mapM {α β : Type} {f : α → Except Exn β} : ∀ {l : List α} {bs : List β},
    l.mapM f = .ok bs → List.Forall₂ (fun a b => f a = .ok b) l bs
  | [], bs, h => by
    rw [List.mapM_nil] at h
    cases h
    exact .nil
  | a :: l, bs, h => by
    rw [List.mapM_cons] at h
    obtain ⟨b, hb, h⟩ := bind_eq_ok.mp h
    obtain ⟨bs', hbs, h⟩ := bind_eq_ok.mp h
    cases h
    exact .cons hb (forall₂_of_mapM hbs)

theorem map_of_forall₂ {α β γ : Type} {R : α → β → Prop} {f : α → γ} {g : β → γ} {as : List α}
    {bs : List β} (h : List.Forall₂ R as bs) (hR : ∀ a b, R a b → g b = f a) :
    bs.map g = as.map f := by
  induction h with
  | nil => rfl
  | cons hab _ ih => rw [List.map_cons, List.map_cons, hR _ _ hab, ih]

theorem zipIdx_filter_nodup {α : Type} (items : List α) (p : α × ℕ → Bool) :
    ((items.zipIdx.filter p).map Prod.snd).Nodup := by
  have hsub := (List.filter_sublist (l := items.zipIdx) (p := p)).map Prod.snd
  rw [List.zipIdx_map_snd] at hsub
  exact List.Nodup.sublist hsub List.nodup_range'

theorem forall_of_forall₂ {α β : Type} {R : α → β → Prop} {P : β → Prop} {as : List α}
    {bs : List β} (h : List.Forall₂ R as bs) (hR : ∀ a ∈ as, ∀ b, R a b → P b) :
    ∀ b ∈ bs, P b := by
  induction h with
  | nil => simp
  | cons hab _ ih =>
    rw [List.forall_mem_cons] at hR
    exact List.forall_mem_cons.mpr ⟨hR.1 _ hab, ih hR.2⟩

namespace Validate

open Control

/-! ## What each check finds -/

/-- The issues of a check are these findings. -/
def Finds (issues : Except Exn (List ValidationIssue)) (found : List Finding) : Prop :=
  ∃ list, issues = .ok list ∧ list.map ValidationIssue.finding = found

/-- A computed operand is this number. -/
def Yields (operand : Except Exn (Option Decimal)) (number : Option ℚ) : Prop :=
  ∃ d, operand = .ok d ∧ d.map Decimal.value = number ∧ ∀ x ∈ d, Result x

/-- A line number. -/
def IsLine (lineNumber : Option ℕ) : Prop :=
  ∀ n ∈ lineNumber, 1 ≤ n ∧ n ≤ 500

theorem newIssue_eq {issue : IssueData} (h : issue.Valid) : newIssue issue = .ok ⟨issue, h⟩ :=
  construct_eq h

/-- The difference of two amounts. -/
theorem difference_exact {expected actual : Decimal} (hexpected : Result expected)
    (hactual : Operand actual) :
    ∃ d s : Decimal, (exactContext.sub actual expected : Except Exn Decimal) = .ok d ∧
      d.value = actual.value - expected.value ∧
      (exactContext.abs d : Except Exn Decimal) = .ok s ∧ s.value = |d.value| := by
  have hle : |actual.value - expected.value| ≤ 10 ^ 41 := by
    have h₁ := hexpected.nonneg
    have h₂ := hexpected.le
    have h₃ := hactual.nonneg
    have h₄ := hactual.le
    rw [abs_le]
    constructor <;> linarith
  obtain ⟨d, hd, hdv⟩ := Context.sub_exact (ε := Exn)
    (exact_of_grid (hactual.grid.sub hexpected.grid) (by norm_num) hle)
  have habs : |(|d.value|)| ≤ 10 ^ 41 := by rwa [abs_abs, hdv]
  have hgrid : Grid 6 |d.value| := by
    rw [hdv]
    exact (hactual.grid.sub hexpected.grid).abs
  obtain ⟨s, hs, hsv⟩ := Context.abs_exact (ε := Exn) (exact_of_grid hgrid (by norm_num) habs)
  exact ⟨d, s, hd, hdv, hs, hsv⟩

theorem compare_finds (code : IssueCode) (field : String) {expected actual tolerance : Decimal}
    {lineNumber : Option ℕ} (hfield : isIssueField field) (hline : IsLine lineNumber)
    (hexpected : Result expected) (hactual : Operand actual) (htolerance : 0 ≤ tolerance.value) :
    Finds (compare code field expected actual tolerance lineNumber)
      (mismatch code field (some expected.value) (some actual.value) tolerance.value
        lineNumber).toList := by
  obtain ⟨d, s, hd, hdv, hs, hsv⟩ := difference_exact hexpected hactual
  unfold compare
  rw [exact_sub, hd, ok_bind, exact_abs, hs, ok_bind, hsv, hdv]
  have hmismatch : mismatch code field (some expected.value) (some actual.value) tolerance.value
      lineNumber = if tolerance.value < |actual.value - expected.value| then
        some ⟨code, field, lineNumber, some expected.value, some actual.value,
          some (actual.value - expected.value), some tolerance.value⟩ else none := rfl
  rw [hmismatch]
  split_ifs with hlt
  · have hvalid : IssueData.Valid ⟨code, field, lineNumber, some expected, some actual, some d,
        some tolerance⟩ := by
      refine ⟨hfield, hline, fun t ht => ?_⟩
      rw [← Option.some.inj ht]
      exact htolerance
    rw [newIssue_eq hvalid]
    refine ⟨_, rfl, ?_⟩
    rw [List.map_singleton, ValidationIssue.finding]
    simp [hdv]
  · exact ⟨[], rfl, rfl⟩

theorem required_finds {fields : List (String × Bool)} {lineNumber : Option ℕ}
    (hfields : ∀ f ∈ fields, isIssueField f.1) (hline : IsLine lineNumber) :
    Finds (required fields lineNumber) (fields.filterMap (missing lineNumber)) := by
  induction fields with
  | nil => exact ⟨[], rfl, rfl⟩
  | cons f fs ih =>
    obtain ⟨list, hlist, hfound⟩ := ih fun g hg => hfields g (List.mem_cons_of_mem f hg)
    unfold required at hlist ⊢
    cases hf : f.2 with
    | false =>
      have hnone : missing lineNumber f = none := by simp [missing, hf]
      rw [List.filter_cons_of_neg (by simp [hf]), List.filterMap_cons_none hnone]
      exact ⟨list, hlist, hfound⟩
    | true =>
      have hsome : missing lineNumber f =
          some { code := .requiredField, field := f.1, lineNumber := lineNumber } := by
        simp [missing, hf]
      have hvalid : IssueData.Valid
          { code := .requiredField, field := f.1, lineNumber := lineNumber } :=
        ⟨hfields f List.mem_cons_self, hline, by simp⟩
      rw [List.filter_cons_of_pos hf, List.filterMap_cons_some hsome, List.mapM_cons,
        newIssue_eq hvalid, ok_bind, hlist]
      refine ⟨_, rfl, ?_⟩
      rw [List.map_cons, hfound]
      rfl

/-- A number is an issue, or an operand. -/
theorem operand_finds (code : IssueCode) (field : String) (bad : ℚ → Prop) [DecidablePred bad]
    (value : Option Decimal) {lineNumber : Option ℕ} (hfield : isIssueField field)
    (hline : IsLine lineNumber) (hvalue : ∀ d ∈ value, ¬bad d.value → Operand d) :
    ∃ list d, operand code field bad value lineNumber = .ok (list, d) ∧
      list.map ValidationIssue.finding =
        (invalid code field bad (value.map Decimal.value) lineNumber).toList ∧
      d.map Decimal.value = allowed bad (value.map Decimal.value) ∧ ∀ x ∈ d, Operand x := by
  cases value with
  | none => exact ⟨[], none, rfl, rfl, rfl, by simp⟩
  | some d =>
    unfold operand
    dsimp only
    by_cases hbad : bad d.value
    · have hvalid : IssueData.Valid
          { code := code, field := field, lineNumber := lineNumber, actual := some d } :=
        ⟨hfield, hline, by simp⟩
      rw [if_pos hbad, newIssue_eq hvalid]
      refine ⟨_, none, rfl, ?_, ?_, by simp⟩
      · simp [invalid, Option.filter, hbad, ValidationIssue.finding]
      · simp [allowed, Option.filter, hbad]
    · rw [if_neg hbad]
      refine ⟨[], some d, rfl, ?_, ?_, ?_⟩
      · simp [invalid, Option.filter, hbad]
      · simp [allowed, Option.filter, hbad]
      · intro x hx
        rw [← Option.some.inj hx]
        exact hvalue d rfl hbad

theorem lineMath_finds (rule : CurrencyRule) {quantity price net : Option Decimal} {number : ℕ}
    (hline : IsLine (some number)) (hquantity : ∀ d ∈ quantity, Operand d)
    (hprice : ∀ d ∈ price, Operand d) (hnet : ∀ d ∈ net, Operand d) :
    Finds (lineMath rule quantity price net number)
      (mismatch .lineMathMismatch "line_total"
        (roundedProduct rule (quantity.map Decimal.value) (price.map Decimal.value))
        (net.map Decimal.value) rule.absoluteTolerance.val.value (some number)).toList := by
  cases quantity with
  | none => exact ⟨[], rfl, rfl⟩
  | some q =>
    cases price with
    | none => exact ⟨[], rfl, rfl⟩
    | some p =>
      cases net with
      | none => exact ⟨[], rfl, rfl⟩
      | some n =>
        obtain ⟨product, expected, hproduct, -, hexpected, hvalue, hgrid, hnonneg, hle⟩ :=
          quantize_product (hquantity q rfl) (hprice p rfl) rule
        have hresult : Result expected := ⟨hgrid, hnonneg, hle.trans (by norm_num)⟩
        unfold lineMath
        dsimp only
        rw [exact_mul, hproduct, ok_bind, exact_quantize, hexpected, ok_bind]
        have hfinds := compare_finds .lineMathMismatch "line_total" (by decide) hline
          hresult (hnet n rfl) rule.absoluteTolerance.property.1.1
        rw [hvalue] at hfinds
        exact hfinds

theorem lineTax_yields (rule : CurrencyRule) {net rate : Option Decimal}
    (hnet : ∀ d ∈ net, Operand d) (hrate : ∀ d ∈ rate, Operand d) :
    ∃ d, lineTax rule net rate = .ok d ∧
      d.map Decimal.value =
        roundedProduct rule (net.map Decimal.value) (rate.map Decimal.value) ∧
      ∀ x ∈ d, Grid 6 x.value ∧ 0 ≤ x.value ∧ x.value ≤ 10 ^ 28 + 1 := by
  cases net with
  | none => exact ⟨none, rfl, rfl, by simp⟩
  | some n =>
    cases rate with
    | none => exact ⟨none, rfl, rfl, by simp⟩
    | some r =>
      obtain ⟨product, tax, hproduct, -, htax, hvalue, hbounds⟩ :=
        quantize_product (hnet n rfl) (hrate r rfl) rule
      unfold lineTax
      dsimp only
      rw [exact_mul, hproduct, ok_bind, exact_quantize, htax, ok_bind]
      refine ⟨some tax, rfl, ?_, fun x hx => ?_⟩
      · rw [Option.map_some, hvalue]
        rfl
      · rw [← Option.some.inj hx]
        exact hbounds

/-- What is found on a line, with the amounts it adds. -/
structure LineFinds (rule : Option CurrencyRule) (line : InvoiceLineItem × ℕ)
    (result : List ValidationIssue × Option Decimal × Option Decimal) : Prop where
  issues : result.1.map ValidationIssue.finding = lineFindings rule line.1 line.2
  net : result.2.1.map Decimal.value = net? line.1
  tax : ∀ r ∈ rule, result.2.2.map Decimal.value = Control.lineTax r line.1
  netBound : ∀ x ∈ result.2.1, Grid 6 x.value ∧ 0 ≤ x.value ∧ x.value ≤ 10 ^ 28 + 1
  taxBound : ∀ x ∈ result.2.2, Grid 6 x.value ∧ 0 ≤ x.value ∧ x.value ≤ 10 ^ 28 + 1

theorem map_decimal? {p : Decimal → Prop} (field : ExtractedField { d // p d }) :
    (decimal? field).map Decimal.value = number? field := by
  rw [decimal?, number?, Option.map_map]
  rfl

theorem operand_of_decimal? {maxDigits places : ℕ} (hplaces : places ≤ 6)
    (hwhole : maxDigits ≤ 14 + places) {field : ExtractedField (Digits maxDigits places)}
    {d : Decimal} (hd : d ∈ decimal? field) (h : 0 ≤ d.value) : Operand d := by
  obtain ⟨x, -, rfl⟩ := Option.map_eq_some_iff.mp hd
  exact operand_of_fits x.property hplaces hwhole h

theorem lineFields_valid (line : InvoiceLineItem) : ∀ f ∈ lineFields line, isIssueField f.1 := by
  simp only [lineFields, List.forall_mem_cons, List.not_mem_nil, false_imp_iff, implies_true,
    and_true]
  decide

theorem lineValues_finds (rule : Option CurrencyRule) (line : InvoiceLineItem) {number : ℕ}
    (hline : IsLine (some number)) :
    ∃ result, lineValues rule line number = .ok result ∧
      LineFinds rule (line, number) result := by
  obtain ⟨missing, hmissing, hmissingFound⟩ := required_finds (lineFields_valid line) hline
  obtain ⟨badPrice, price, hprice, hpriceFound, hpriceValue, hpriceOp⟩ :=
    operand_finds .negativeValue "unit_price" (· < 0) (decimal? line.unitPrice) (by decide) hline
      fun d hd h => operand_of_decimal? (by norm_num) (by norm_num) hd (not_lt.mp h)
  obtain ⟨badNet, net, hnet, hnetFound, hnetValue, hnetOp⟩ :=
    operand_finds .negativeValue "line_total" (· < 0) (decimal? line.lineTotal) (by decide) hline
      fun d hd h => operand_of_decimal? (by norm_num) (by norm_num) hd (not_lt.mp h)
  obtain ⟨badQuantity, quantity, hquantity, hquantityFound, hquantityValue, hquantityOp⟩ :=
    operand_finds .nonpositiveQuantity "quantity" (· ≤ 0) (decimal? line.quantity) (by decide)
      hline
      fun d hd h => operand_of_decimal? (by norm_num) (by norm_num) hd (not_le.mp h).le
  obtain ⟨badRate, rate, hrate, hrateFound, hrateValue, hrateOp⟩ :=
    operand_finds .taxRateOutOfRange "tax_rate" (fun r => ¬(0 ≤ r ∧ r ≤ 1))
      (decimal? line.taxRate) (by decide) hline
      fun d hd h => operand_of_decimal? (by norm_num) (by norm_num) hd (not_not.mp h).1
  rw [map_decimal?] at hpriceFound hpriceValue hnetFound hnetValue
  rw [map_decimal?] at hquantityFound hquantityValue hrateFound hrateValue
  have hnetBound : ∀ x ∈ net, Grid 6 x.value ∧ 0 ≤ x.value ∧ x.value ≤ 10 ^ 28 + 1 :=
    fun x hx => ⟨(hnetOp x hx).grid, (hnetOp x hx).nonneg, (hnetOp x hx).le.trans (by norm_num)⟩
  unfold lineValues nonnegative
  rw [hmissing, ok_bind, hprice, ok_bind]
  dsimp only
  rw [hnet, ok_bind]
  dsimp only
  rw [hquantity, ok_bind]
  dsimp only
  rw [hrate, ok_bind]
  dsimp only
  cases rule with
  | none =>
    refine ⟨_, rfl, ?_, hnetValue, by simp, hnetBound, by simp⟩
    simp only [List.map_append, hmissingFound, hpriceFound, hnetFound, hquantityFound, hrateFound,
      lineFindings, Option.bind_none, Option.toList_none, List.append_nil]
  | some rule =>
    obtain ⟨math, hmath, hmathFound⟩ := lineMath_finds rule hline hquantityOp hpriceOp
      hnetOp
    obtain ⟨tax, htax, htaxValue, htaxBound⟩ := lineTax_yields rule hnetOp hrateOp
    rw [hquantityValue, hpriceValue, hnetValue] at hmathFound
    rw [hnetValue, hrateValue] at htaxValue
    dsimp only
    rw [hmath, ok_bind, htax, ok_bind]
    refine ⟨_, rfl, ?_, hnetValue, ?_, hnetBound, htaxBound⟩
    · simp only [List.map_append, hmissingFound, hpriceFound, hnetFound, hquantityFound,
        hrateFound, hmathFound]
      rfl
    · intro r hr
      rw [← Option.some.inj hr]
      exact htaxValue

/-- A sum of at most five hundred amounts that are all there. -/
theorem completeSum_yields {values : List (Option Decimal)} (hlen : values.length ≤ 500)
    (h : ∀ v ∈ values, ∀ x ∈ v, Grid 6 x.value ∧ 0 ≤ x.value ∧ x.value ≤ 10 ^ 28 + 1) :
    Yields (completeSum values) (sumAll (values.map (Option.map Decimal.value))) := by
  have hany : (values.map (Option.map Decimal.value)).any Option.isNone =
      values.any Option.isNone := by
    rw [List.any_map]
    exact congrArg (values.any ·) (funext fun v => Option.isNone_map)
  have hcond : (values.map (Option.map Decimal.value) = [] ∨
      (values.map (Option.map Decimal.value)).any Option.isNone = true) ↔
      (values = [] ∨ values.any Option.isNone = true) := by
    rw [hany, List.map_eq_nil_iff]
  have hfilter : (values.map (Option.map Decimal.value)).filterMap id =
      (values.filterMap id).map Decimal.value := by
    rw [List.filterMap_map, List.map_filterMap]
    rfl
  unfold completeSum sumAll
  simp only [hcond, hfilter]
  split_ifs with hnone
  · exact ⟨none, rfl, rfl, by simp⟩
  have hmem : ∀ d ∈ values.filterMap id,
      Grid 6 d.value ∧ 0 ≤ d.value ∧ d.value ≤ 10 ^ 28 + 1 := by
    intro d hd
    obtain ⟨v, hv, hvd⟩ := List.mem_filterMap.mp hd
    exact h v hv d hvd
  have hlength := (List.length_filterMap_le id values).trans hlen
  obtain ⟨sum, hsum, hvalue, hgrid, hnonneg, hle⟩ :=
    sum_amounts (by norm_num) (by norm_num) hlength hmem
  rw [exact_sum, hsum, ok_bind]
  refine ⟨some sum, rfl, by rw [Option.map_some, hvalue], fun x hx => ?_⟩
  rw [← Option.some.inj hx]
  exact ⟨hgrid, hnonneg, hle⟩

theorem compareSome_finds (code : IssueCode) (field : String) {expected actual : Option Decimal}
    {tolerance : Decimal} (hfield : isIssueField field) (hexpected : ∀ d ∈ expected, Result d)
    (hactual : ∀ d ∈ actual, Operand d) (htolerance : 0 ≤ tolerance.value) :
    Finds (compareSome code field expected actual tolerance)
      (mismatch code field (expected.map Decimal.value) (actual.map Decimal.value) tolerance.value
        none).toList := by
  cases expected with
  | none => exact ⟨[], rfl, rfl⟩
  | some x =>
    cases actual with
    | none => exact ⟨[], rfl, rfl⟩
    | some y =>
      exact compare_finds code field hfield (fun _ => nofun) (hexpected x rfl) (hactual y rfl)
        htolerance

theorem add_operands {s t : Decimal} (hs : Operand s) (ht : Operand t) :
    ∃ sum : Decimal, (exactContext.add s t : Except Exn Decimal) = .ok sum ∧
      sum.value = s.value + t.value ∧ Result sum := by
  have hnonneg : 0 ≤ s.value + t.value := add_nonneg hs.nonneg ht.nonneg
  have hle : s.value + t.value ≤ 10 ^ 40 := by
    have h₁ := hs.le
    have h₂ := ht.le
    linarith
  obtain ⟨sum, hsum, hvalue⟩ := Context.add_exact (ε := Exn)
    (exact_of_grid (hs.grid.add ht.grid) (by norm_num) (by
      rw [abs_of_nonneg hnonneg]
      exact hle.trans (by norm_num)))
  exact ⟨sum, hsum, hvalue, hvalue ▸ hs.grid.add ht.grid, hvalue ▸ hnonneg, hvalue ▸ hle⟩

theorem netPlusTax_yields {subtotal tax : Option Decimal} (hsubtotal : ∀ d ∈ subtotal, Operand d)
    (htax : ∀ d ∈ tax, Operand d) :
    Yields (netPlusTax subtotal tax)
      ((subtotal.map Decimal.value).bind fun s => (tax.map Decimal.value).map fun t => s + t) := by
  cases subtotal with
  | none => exact ⟨none, rfl, rfl, by simp⟩
  | some s =>
    cases tax with
    | none => exact ⟨none, rfl, rfl, by simp⟩
    | some t =>
      obtain ⟨sum, hsum, hvalue, hresult⟩ := add_operands (hsubtotal s rfl) (htax t rfl)
      unfold netPlusTax
      dsimp only
      rw [exact_add, hsum, ok_bind]
      refine ⟨some sum, rfl, ?_, fun x hx => ?_⟩
      · rw [Option.map_some, hvalue]
        rfl
      · rwa [← Option.some.inj hx]

theorem zipIdx_isLine {lines : List InvoiceLineItem} (hlen : lines.length ≤ 500)
    {line : InvoiceLineItem × ℕ} (h : line ∈ lines.zipIdx 1) : IsLine (some line.2) := by
  have hbound := List.mem_zipIdx h
  intro n hn
  rw [← Option.some.inj hn]
  omega

theorem lines_find (rule : Option CurrencyRule) {lines : List InvoiceLineItem}
    (hlen : lines.length ≤ 500) :
    ∃ values, (lines.zipIdx 1).mapM (fun line => lineValues rule line.1 line.2) = .ok values ∧
      List.Forall₂ (LineFinds rule) (lines.zipIdx 1) values :=
  mapM_forall₂ fun line hline => lineValues_finds rule line.1 (zipIdx_isLine hlen hline)

section

variable {rule : Option CurrencyRule} {lines : List (InvoiceLineItem × ℕ)}
  {values : List (List ValidationIssue × Option Decimal × Option Decimal)}

theorem issues_of_lines (h : List.Forall₂ (LineFinds rule) lines values) :
    (values.flatMap Prod.fst).map ValidationIssue.finding =
      lines.flatMap fun line => lineFindings rule line.1 line.2 := by
  induction h with
  | nil => rfl
  | cons hline _ ih => rw [List.flatMap_cons, List.flatMap_cons, List.map_append, hline.issues, ih]

theorem nets_of_lines (h : List.Forall₂ (LineFinds rule) lines values) :
    (values.map fun v => v.2.1).map (Option.map Decimal.value) =
      (lines.map Prod.fst).map net? := by
  rw [List.map_map, List.map_map]
  exact map_of_forall₂ h fun _ _ hline => hline.net

theorem taxes_of_lines {r : CurrencyRule} (h : List.Forall₂ (LineFinds (some r)) lines values) :
    (values.map fun v => v.2.2).map (Option.map Decimal.value) =
      (lines.map Prod.fst).map (Control.lineTax r) := by
  rw [List.map_map, List.map_map]
  exact map_of_forall₂ h fun _ _ hline => hline.tax r rfl

theorem bounds_of_lines (h : List.Forall₂ (LineFinds rule) lines values) :
    (∀ v ∈ values.map (fun v => v.2.1), ∀ x ∈ v,
      Grid 6 x.value ∧ 0 ≤ x.value ∧ x.value ≤ 10 ^ 28 + 1) ∧
    ∀ v ∈ values.map (fun v => v.2.2), ∀ x ∈ v,
      Grid 6 x.value ∧ 0 ≤ x.value ∧ x.value ≤ 10 ^ 28 + 1 := by
  rw [List.forall_mem_map, List.forall_mem_map]
  exact ⟨forall_of_forall₂ h fun _ _ _ hline => hline.netBound,
    forall_of_forall₂ h fun _ _ _ hline => hline.taxBound⟩

end

/-- The header against what the lines add up to. -/
theorem totals_finds (extraction : InvoiceExtraction) (rule : CurrencyRule)
    {nets taxes : List (Option Decimal)} {subtotal tax total : Option Decimal}
    (hnets : nets.map (Option.map Decimal.value) = extraction.lineItems.val.map net?)
    (htaxes : taxes.map (Option.map Decimal.value) =
      extraction.lineItems.val.map (Control.lineTax rule))
    (hnetBound : ∀ v ∈ nets, ∀ x ∈ v, Grid 6 x.value ∧ 0 ≤ x.value ∧ x.value ≤ 10 ^ 28 + 1)
    (htaxBound : ∀ v ∈ taxes, ∀ x ∈ v, Grid 6 x.value ∧ 0 ≤ x.value ∧ x.value ≤ 10 ^ 28 + 1)
    (hsubtotal : subtotal.map Decimal.value = subtotal? extraction)
    (htax : tax.map Decimal.value = tax? extraction)
    (htotal : total.map Decimal.value = total? extraction)
    (hsubtotalOp : ∀ x ∈ subtotal, Operand x) (htaxOp : ∀ x ∈ tax, Operand x)
    (htotalOp : ∀ x ∈ total, Operand x) :
    Finds (totals rule nets taxes subtotal tax total) (totalFindings extraction rule) := by
  have hlen : ∀ {values : List (Option Decimal)} {f : InvoiceLineItem → Option ℚ},
      values.map (Option.map Decimal.value) = extraction.lineItems.val.map f →
      values.length ≤ 500 := by
    intro values f h
    have hlength := congrArg List.length h
    rw [List.length_map, List.length_map] at hlength
    exact hlength.trans_le extraction.lineItems.property
  have htolerance : 0 ≤ rule.absoluteTolerance.val.value := rule.absoluteTolerance.property.1.1
  obtain ⟨netSum, hnetSum, hnetValue, hnetResult⟩ := completeSum_yields (hlen hnets) hnetBound
  obtain ⟨taxSum, htaxSum, htaxValue, htaxResult⟩ := completeSum_yields (hlen htaxes) htaxBound
  obtain ⟨expected, hexpected, hexpectedValue, hexpectedResult⟩ :=
    netPlusTax_yields hsubtotalOp htaxOp
  obtain ⟨badSubtotal, hbadSubtotal, hsubtotalFound⟩ :=
    compareSome_finds .subtotalMismatch "subtotal" (by decide) hnetResult hsubtotalOp htolerance
  obtain ⟨badTax, hbadTax, htaxFound⟩ :=
    compareSome_finds .taxMismatch "tax_amount" (by decide) htaxResult htaxOp htolerance
  obtain ⟨badTotal, hbadTotal, htotalFound⟩ :=
    compareSome_finds .totalMismatch "total_amount" (by decide) hexpectedResult htotalOp htolerance
  unfold totals
  rw [hnetSum, ok_bind, htaxSum, ok_bind]
  dsimp only
  rw [hbadSubtotal, ok_bind, hbadTax, ok_bind, hexpected, ok_bind, hbadTotal, ok_bind]
  refine ⟨_, rfl, ?_⟩
  rw [List.map_append, List.map_append, hsubtotalFound, htaxFound, htotalFound, hnetValue,
    htaxValue, hexpectedValue, hnets, htaxes, hsubtotal, htax, htotal]
  rfl

theorem invoiceFields_valid (extraction : InvoiceExtraction) :
    ∀ f ∈ invoiceFields extraction, isIssueField f.1 := by
  simp only [invoiceFields, List.forall_mem_cons, List.not_mem_nil, false_imp_iff, implies_true,
    and_true]
  decide

/-- The issue of a check without numbers. -/
theorem flag_finds (code : IssueCode) (field : String) (hfield : isIssueField field) (p : Prop)
    [Decidable p] :
    Finds (flag code field p) (if p then [{ code := code, field := field }] else []) := by
  unfold flag
  split_ifs
  · have hvalid : IssueData.Valid { code := code, field := field } :=
      ⟨hfield, fun _ => nofun, fun _ => nofun⟩
    rw [newIssue_eq hvalid]
    exact ⟨_, rfl, rfl⟩
  · exact ⟨[], rfl, rfl⟩

theorem validate_finds (extraction : InvoiceExtraction) (config : ValidationConfig) :
    Finds (validate extraction config) (findings extraction config) := by
  have hline : IsLine none := fun _ => nofun
  obtain ⟨missing, hmissing, hmissingFound⟩ :=
    required_finds (invoiceFields_valid extraction) hline
  obtain ⟨empty, hempty, hemptyFound⟩ :=
    flag_finds .emptyLines "line_items" (by decide) (extraction.lineItems.val = [])
  obtain ⟨unsupported, hunsupported, hunsupportedFound⟩ :=
    flag_finds .unsupportedCurrency "currency" (by decide)
      (extraction.currency.value ≠ none ∧ rule? extraction config = none)
  obtain ⟨badSubtotal, subtotal, hsubtotal, hsubtotalFound, hsubtotalValue, hsubtotalOp⟩ :=
    operand_finds .negativeValue "subtotal" (· < 0) (decimal? extraction.subtotal) (by decide)
      hline fun d hd h => operand_of_decimal? (by norm_num) (by norm_num) hd (not_lt.mp h)
  obtain ⟨badTax, tax, htax, htaxFound, htaxValue, htaxOp⟩ :=
    operand_finds .negativeValue "tax_amount" (· < 0) (decimal? extraction.taxAmount) (by decide)
      hline fun d hd h => operand_of_decimal? (by norm_num) (by norm_num) hd (not_lt.mp h)
  obtain ⟨badTotal, total, htotal, htotalFound, htotalValue, htotalOp⟩ :=
    operand_finds .negativeValue "total_amount" (· < 0) (decimal? extraction.totalAmount)
      (by decide) hline
      fun d hd h => operand_of_decimal? (by norm_num) (by norm_num) hd (not_lt.mp h)
  rw [map_decimal?] at hsubtotalFound hsubtotalValue htaxFound htaxValue htotalFound htotalValue
  obtain ⟨values, hvalues, hlines⟩ :=
    lines_find (rule? extraction config) extraction.lineItems.property
  unfold validate nonnegative
  rw [hmissing, ok_bind, hempty, ok_bind]
  dsimp only
  rw [hunsupported, ok_bind, hsubtotal, ok_bind]
  dsimp only
  rw [htax, ok_bind]
  dsimp only
  rw [htotal, ok_bind]
  dsimp only
  rw [hvalues, ok_bind]
  have hissues : (missing ++ empty ++ unsupported ++ badSubtotal ++ badTax ++ badTotal ++
      values.flatMap Prod.fst).map ValidationIssue.finding ++
        (rule? extraction config).elim [] (totalFindings extraction) =
      findings extraction config := by
    simp only [List.map_append, hmissingFound, hemptyFound, hunsupportedFound, hsubtotalFound,
      htaxFound, htotalFound, issues_of_lines hlines]
    rfl
  cases hrule : rule? extraction config with
  | none =>
    rw [hrule, Option.elim_none, List.append_nil] at hissues
    exact ⟨_, rfl, hissues⟩
  | some rule =>
    rw [hrule] at hlines hissues
    have hnets := nets_of_lines hlines
    have htaxes := taxes_of_lines hlines
    rw [List.zipIdx_map_fst] at hnets htaxes
    have hbounds := bounds_of_lines hlines
    obtain ⟨mismatches, hmismatches, hfound⟩ := totals_finds extraction rule hnets htaxes
      hbounds.1 hbounds.2 hsubtotalValue htaxValue htotalValue hsubtotalOp htaxOp htotalOp
    dsimp only
    rw [hmismatches, ok_bind]
    refine ⟨_, rfl, ?_⟩
    rw [List.map_append, hfound]
    exact hissues

end Validate

/-! ## Accepted invoices -/

/-- A number, where it is there. -/
def ExtractedField.amount {p : Decimal → Prop} (field : ExtractedField { d // p d }) : ℚ :=
  (Control.number? field).getD 0

/-- What a line has if it is accepted. -/
structure LineAccepted (rule : CurrencyRule) (line : InvoiceLineItem) : Prop where
  description : ∃ s ∈ line.description.value, isBlank s.val = false
  quantity : ∃ q ∈ Control.number? line.quantity, 0 < q
  unitPrice : ∃ p ∈ Control.number? line.unitPrice, 0 ≤ p
  lineTotal : ∃ n ∈ Control.number? line.lineTotal, 0 ≤ n
  taxRate : ∃ r ∈ Control.number? line.taxRate, 0 ≤ r ∧ r ≤ 1
  net : |line.lineTotal.amount -
    roundHalfUp (line.quantity.amount * line.unitPrice.amount) (-rule.decimalPlaces.val)| ≤
      rule.absoluteTolerance.val.value

/-- What an invoice has if it is accepted under a currency's rule. -/
structure Accepted (extraction : InvoiceExtraction) (rule : CurrencyRule) : Prop where
  vendorName : ∃ s ∈ extraction.vendorName.value, isBlank s.val = false
  invoiceNumber : ∃ s ∈ extraction.invoiceNumber.value, isBlank s.val = false
  currency : extraction.currency.value = some rule.currency
  invoiceDate : ∃ d, extraction.invoiceDate.value = some d
  subtotal : ∃ s ∈ Control.number? extraction.subtotal, 0 ≤ s
  taxAmount : ∃ t ∈ Control.number? extraction.taxAmount, 0 ≤ t
  totalAmount : ∃ a ∈ Control.number? extraction.totalAmount, 0 ≤ a
  nonempty : extraction.lineItems.val ≠ []
  lines : ∀ line ∈ extraction.lineItems.val, LineAccepted rule line
  nets : |extraction.subtotal.amount -
    (extraction.lineItems.val.map fun line => line.lineTotal.amount).sum| ≤
      rule.absoluteTolerance.val.value
  taxes : |extraction.taxAmount.amount - (extraction.lineItems.val.map fun line =>
    roundHalfUp (line.lineTotal.amount * line.taxRate.amount) (-rule.decimalPlaces.val)).sum| ≤
      rule.absoluteTolerance.val.value
  total : |extraction.totalAmount.amount -
    (extraction.subtotal.amount + extraction.taxAmount.amount)| ≤
      rule.absoluteTolerance.val.value

namespace Control

theorem missing_eq_nil {lineNumber : Option ℕ} {fields : List (String × Bool)} :
    fields.filterMap (missing lineNumber) = [] ↔ ∀ f ∈ fields, f.2 = false := by
  rw [List.filterMap_eq_nil_iff]
  simp [missing]

theorem invalid_eq_nil {code : IssueCode} {field : String} {bad : ℚ → Prop} [DecidablePred bad]
    {value : Option ℚ} {lineNumber : Option ℕ} :
    (invalid code field bad value lineNumber).toList = [] ↔ ∀ x ∈ value, ¬bad x := by
  cases value with
  | none => simp [invalid]
  | some x => by_cases h : bad x <;> simp [invalid, Option.filter, h]

/-- A number that is there and not invalid. -/
theorem number_of_valid {p : Decimal → Prop} {field : ExtractedField { d // p d }} {bad : ℚ → Prop}
    [DecidablePred bad] :
    (field.value.isNone = false ∧ ∀ x ∈ number? field, ¬bad x) ↔ ∃ x ∈ number? field, ¬bad x := by
  cases h : field.value with
  | none => simp [number?, h]
  | some d => simp [number?, h]

theorem allowed_eq {p : Decimal → Prop} {field : ExtractedField { d // p d }} {bad : ℚ → Prop}
    [DecidablePred bad] (h : ∃ x ∈ number? field, ¬bad x) :
    allowed bad (number? field) = some field.amount := by
  obtain ⟨x, hx, hbad⟩ := h
  have hnumber : number? field = some x := hx
  rw [ExtractedField.amount, hnumber]
  simp [allowed, Option.filter, hbad]

theorem mismatch_eq_nil {code : IssueCode} {field : String} {x y tolerance : ℚ}
    {lineNumber : Option ℕ} :
    (mismatch code field (some x) (some y) tolerance lineNumber).toList = [] ↔
      |y - x| ≤ tolerance := by
  have heq : mismatch code field (some x) (some y) tolerance lineNumber =
      if tolerance < |y - x| then
        some ⟨code, field, lineNumber, some x, some y, some (y - x), some tolerance⟩
      else none := rfl
  rw [heq]
  split_ifs with h
  · simp [not_le.mpr h]
  · simp [not_lt.mp h]

theorem sumAll_some {α : Type} {f : α → Option ℚ} {g : α → ℚ} {l : List α} (hl : l ≠ [])
    (h : ∀ a ∈ l, f a = some (g a)) : sumAll (l.map f) = some (l.map g).sum := by
  have hmap : l.map f = (l.map g).map some := by
    rw [List.map_map]
    exact List.map_congr_left h
  have hnone : (l.map f).any Option.isNone = false := by
    rw [hmap, List.any_map]
    simp
  have hvalues : (l.map f).filterMap id = l.map g := by
    rw [hmap, List.filterMap_map]
    exact List.filterMap_some
  unfold sumAll
  rw [hnone, hvalues, if_neg]
  simpa using hl

/-- A text that is there and not blank. -/
theorem text_present {p : String → Prop} {o : Option { s // p s }} :
    o.all (fun s => isBlank s.val) = false ↔ ∃ s ∈ o, isBlank s.val = false := by
  cases o with
  | none => simp
  | some s => simp

theorem lineFindings_eq_nil {rule : CurrencyRule} {line : InvoiceLineItem} {number : ℕ} :
    lineFindings (some rule) line number = [] ↔ LineAccepted rule line := by
  have hfields : (∀ f ∈ Validate.lineFields line, f.2 = false) ↔
      (∃ s ∈ line.description.value, isBlank s.val = false) ∧
        line.quantity.value.isNone = false ∧ line.unitPrice.value.isNone = false ∧
        line.taxRate.value.isNone = false ∧ line.lineTotal.value.isNone = false := by
    simp only [Validate.lineFields, List.forall_mem_cons, List.not_mem_nil, false_imp_iff,
      implies_true, and_true]
    rw [text_present]
  unfold lineFindings
  simp only [List.append_eq_nil_iff, Option.bind_some]
  rw [missing_eq_nil, hfields, invalid_eq_nil, invalid_eq_nil, invalid_eq_nil, invalid_eq_nil]
  constructor
  · rintro ⟨⟨⟨⟨⟨⟨hdescription, hq, hp, hr, hn⟩, hprice⟩, hnet⟩, hquantity⟩, hrate⟩, hmath⟩
    have hquantity := number_of_valid.mp ⟨hq, hquantity⟩
    have hprice := number_of_valid.mp ⟨hp, hprice⟩
    have hnet := number_of_valid.mp ⟨hn, hnet⟩
    have hrate := number_of_valid.mp ⟨hr, hrate⟩
    rw [lineExpected, quantity?, price?, net?, allowed_eq hquantity, allowed_eq hprice,
      allowed_eq hnet] at hmath
    exact
      { description := hdescription
        quantity := by simpa only [not_le] using hquantity
        unitPrice := by simpa only [not_lt] using hprice
        lineTotal := by simpa only [not_lt] using hnet
        taxRate := by simpa only [not_not] using hrate
        net := mismatch_eq_nil.mp hmath }
  · intro h
    have hquantity : ∃ q ∈ number? line.quantity, ¬q ≤ 0 := by
      simpa only [not_le] using h.quantity
    have hprice : ∃ p ∈ number? line.unitPrice, ¬p < 0 := by
      simpa only [not_lt] using h.unitPrice
    have hnet : ∃ n ∈ number? line.lineTotal, ¬n < 0 := by
      simpa only [not_lt] using h.lineTotal
    have hrate : ∃ r ∈ number? line.taxRate, ¬¬(0 ≤ r ∧ r ≤ 1) := by
      simpa only [not_not] using h.taxRate
    obtain ⟨hq, hquantityValid⟩ := number_of_valid.mpr hquantity
    obtain ⟨hp, hpriceValid⟩ := number_of_valid.mpr hprice
    obtain ⟨hn, hnetValid⟩ := number_of_valid.mpr hnet
    obtain ⟨hr, hrateValid⟩ := number_of_valid.mpr hrate
    refine ⟨⟨⟨⟨⟨⟨h.description, hq, hp, hr, hn⟩, hpriceValid⟩, hnetValid⟩, hquantityValid⟩,
      hrateValid⟩, ?_⟩
    rw [lineExpected, quantity?, price?, net?, allowed_eq hquantity, allowed_eq hprice,
      allowed_eq hnet]
    exact mismatch_eq_nil.mpr h.net

theorem linesFindings_eq_nil {rule : CurrencyRule} {lines : List InvoiceLineItem} :
    ((lines.zipIdx 1).flatMap fun line => lineFindings (some rule) line.1 line.2) = [] ↔
      ∀ line ∈ lines, LineAccepted rule line := by
  rw [List.flatMap_eq_nil_iff]
  constructor
  · intro h line hline
    obtain ⟨i, hi, rfl⟩ := List.mem_iff_getElem.mp hline
    have hmem : (lines[i], 1 + i) ∈ lines.zipIdx 1 :=
      List.mk_add_mem_zipIdx_iff_getElem?.mpr (List.getElem?_eq_getElem hi)
    exact lineFindings_eq_nil.mp (h (lines[i], 1 + i) hmem)
  · intro h line hline
    exact lineFindings_eq_nil.mpr (h line.1 (List.fst_mem_of_mem_zipIdx hline))

/-- The header against lines that are all accepted. -/
theorem totalFindings_eq_nil {extraction : InvoiceExtraction} {rule : CurrencyRule}
    (hnonempty : extraction.lineItems.val ≠ [])
    (hlines : ∀ line ∈ extraction.lineItems.val, LineAccepted rule line)
    (hsubtotal : ∃ s ∈ number? extraction.subtotal, ¬s < 0)
    (htax : ∃ t ∈ number? extraction.taxAmount, ¬t < 0)
    (htotal : ∃ a ∈ number? extraction.totalAmount, ¬a < 0) :
    totalFindings extraction rule = [] ↔
      |extraction.subtotal.amount -
        (extraction.lineItems.val.map fun line => line.lineTotal.amount).sum| ≤
          rule.absoluteTolerance.val.value ∧
      |extraction.taxAmount.amount - (extraction.lineItems.val.map fun line =>
        roundHalfUp (line.lineTotal.amount * line.taxRate.amount)
          (-rule.decimalPlaces.val)).sum| ≤ rule.absoluteTolerance.val.value ∧
      |extraction.totalAmount.amount -
        (extraction.subtotal.amount + extraction.taxAmount.amount)| ≤
          rule.absoluteTolerance.val.value := by
  have hnet : ∀ line ∈ extraction.lineItems.val, net? line = some line.lineTotal.amount := by
    intro line hline
    refine allowed_eq ?_
    simpa only [not_lt] using (hlines line hline).lineTotal
  have hlineTax : ∀ line ∈ extraction.lineItems.val, lineTax rule line =
      some (roundHalfUp (line.lineTotal.amount * line.taxRate.amount)
        (-rule.decimalPlaces.val)) := by
    intro line hline
    have hrate : rate? line = some line.taxRate.amount := by
      refine allowed_eq ?_
      simpa only [not_not] using (hlines line hline).taxRate
    rw [lineTax, hnet line hline, hrate]
    rfl
  unfold totalFindings
  simp only [List.append_eq_nil_iff]
  rw [sumAll_some hnonempty hnet, sumAll_some hnonempty hlineTax, subtotal?, tax?, total?,
    allowed_eq hsubtotal, allowed_eq htax, allowed_eq htotal, mismatch_eq_nil, mismatch_eq_nil,
    and_assoc]
  exact and_congr_right fun _ => and_congr_right fun _ => mismatch_eq_nil

theorem rule?_eq_some {extraction : InvoiceExtraction} {config : ValidationConfig}
    {rule : CurrencyRule} :
    Validate.rule? extraction config = some rule ↔
      rule ∈ config.currencies.val ∧ extraction.currency.value = some rule.currency := by
  constructor
  · intro h
    have hcurrency := List.find?_some h
    exact ⟨List.mem_of_find?_eq_some h, (of_decide_eq_true hcurrency).symm⟩
  · rintro ⟨hmem, hcurrency⟩
    cases hfound : Validate.rule? extraction config with
    | none =>
      have hno := List.find?_eq_none.mp hfound rule hmem
      simp [hcurrency] at hno
    | some other =>
      have hother := List.find?_some hfound
      have hother : some other.currency = extraction.currency.value := of_decide_eq_true hother
      have hsame : other.currency = rule.currency := Option.some.inj (hother.trans hcurrency)
      rw [List.inj_on_of_nodup_map config.currencies.property.2
        (List.mem_of_find?_eq_some hfound) hmem hsame]

theorem currency_not_blank (currency : Currency) : isBlank currency.val = false := by
  have hcurrency := currency.property
  unfold isCurrency at hcurrency
  rw [Bool.and_eq_true, decide_eq_true_eq, List.all_eq_true] at hcurrency
  obtain ⟨hlength, hletters⟩ := hcurrency
  rw [isBlank, List.all_eq_false]
  have hpos : 0 < currency.val.toList.length := by
    rw [String.length_toList, hlength]
    norm_num
  refine ⟨_, List.getElem_mem hpos, ?_⟩
  have hletter := hletters _ (List.getElem_mem hpos)
  rw [Bool.and_eq_true, decide_eq_true_eq, decide_eq_true_eq] at hletter
  have hvisible := And.intro ((by decide : '!' ≤ 'A').trans hletter.1)
    (hletter.2.trans (by decide : 'Z' ≤ '~'))
  simp [visible_not_space hvisible]

/-- Nothing is found on an accepted invoice only. -/
theorem findings_eq_nil (extraction : InvoiceExtraction) (config : ValidationConfig) :
    findings extraction config = [] ↔
      ∃ rule ∈ config.currencies.val, Accepted extraction rule := by
  have hfields : (∀ f ∈ Validate.invoiceFields extraction, f.2 = false) ↔
      (∃ s ∈ extraction.vendorName.value, isBlank s.val = false) ∧
        (∃ s ∈ extraction.invoiceNumber.value, isBlank s.val = false) ∧
        (∃ s ∈ extraction.currency.value, isBlank s.val = false) ∧
        extraction.invoiceDate.value.isNone = false ∧
        extraction.subtotal.value.isNone = false ∧ extraction.taxAmount.value.isNone = false ∧
        extraction.totalAmount.value.isNone = false := by
    simp only [Validate.invoiceFields, List.forall_mem_cons, List.not_mem_nil, false_imp_iff,
      implies_true, and_true]
    rw [text_present, text_present, text_present]
  unfold findings
  dsimp only
  simp only [List.append_eq_nil_iff]
  rw [missing_eq_nil, hfields, invalid_eq_nil, invalid_eq_nil, invalid_eq_nil]
  constructor
  · rintro ⟨⟨⟨⟨⟨⟨⟨⟨hvendor, hinvoice, hcurrency, hdate, hs, ht, ha⟩, hempty⟩, hsupported⟩,
      hsubtotal⟩, htax⟩, htotal⟩, hlines⟩, htotals⟩
    have hsubtotal := number_of_valid.mp ⟨hs, hsubtotal⟩
    have htax := number_of_valid.mp ⟨ht, htax⟩
    have htotal := number_of_valid.mp ⟨ha, htotal⟩
    have hnonempty : extraction.lineItems.val ≠ [] := by
      intro h
      rw [if_pos h] at hempty
      exact List.cons_ne_nil _ _ hempty
    obtain ⟨currency, hcurrency, -⟩ := hcurrency
    cases hrule : Validate.rule? extraction config with
    | none =>
      rw [if_pos ⟨by simp [Option.mem_def.mp hcurrency], hrule⟩] at hsupported
      exact absurd hsupported (List.cons_ne_nil _ _)
    | some rule =>
      rw [hrule] at hlines htotals
      have hlines := linesFindings_eq_nil.mp hlines
      obtain ⟨hnets, htaxes, htotalMatches⟩ :=
        (totalFindings_eq_nil hnonempty hlines hsubtotal htax htotal).mp htotals
      obtain ⟨hmem, hruleCurrency⟩ := rule?_eq_some.mp hrule
      exact ⟨rule, hmem,
        { vendorName := hvendor
          invoiceNumber := hinvoice
          currency := hruleCurrency
          invoiceDate := Option.isSome_iff_exists.mp (Option.isNone_eq_false_iff.mp hdate)
          subtotal := by simpa only [not_lt] using hsubtotal
          taxAmount := by simpa only [not_lt] using htax
          totalAmount := by simpa only [not_lt] using htotal
          nonempty := hnonempty
          lines := hlines
          nets := hnets
          taxes := htaxes
          total := htotalMatches }⟩
  · rintro ⟨rule, hmem, h⟩
    have hrule := rule?_eq_some.mpr ⟨hmem, h.currency⟩
    have hsubtotal : ∃ s ∈ number? extraction.subtotal, ¬s < 0 := by
      simpa only [not_lt] using h.subtotal
    have htax : ∃ t ∈ number? extraction.taxAmount, ¬t < 0 := by
      simpa only [not_lt] using h.taxAmount
    have htotal : ∃ a ∈ number? extraction.totalAmount, ¬a < 0 := by
      simpa only [not_lt] using h.totalAmount
    obtain ⟨hs, hsubtotalValid⟩ := number_of_valid.mpr hsubtotal
    obtain ⟨ht, htaxValid⟩ := number_of_valid.mpr htax
    obtain ⟨ha, htotalValid⟩ := number_of_valid.mpr htotal
    obtain ⟨date, hdate⟩ := h.invoiceDate
    have htotals := (totalFindings_eq_nil h.nonempty h.lines hsubtotal htax htotal).mpr
      ⟨h.nets, h.taxes, h.total⟩
    rw [hrule, if_neg h.nonempty, if_neg fun hnone => Option.some_ne_none rule hnone.2]
    refine ⟨⟨⟨⟨⟨⟨⟨⟨h.vendorName, h.invoiceNumber, ⟨rule.currency, h.currency, ?_⟩, ?_,
      hs, ht, ha⟩, rfl⟩, rfl⟩, hsubtotalValid⟩, htaxValid⟩, htotalValid⟩, ?_⟩, htotals⟩
    · exact currency_not_blank rule.currency
    · rw [hdate]
      rfl
    · exact linesFindings_eq_nil.mpr h.lines

end Control

/-- A validation always has a result. -/
theorem validateInvoice_ok (host : Host) (extraction : InvoiceExtraction)
    (config : ValidationConfig) :
    ∃ result, validateInvoice host extraction config = .ok result ∧
      result.val.inputSha256 = host.modelDigest (InvoiceExtraction.codec host) extraction ∧
      result.val.issues.map ValidationIssue.finding = Control.findings extraction config := by
  obtain ⟨issues, hissues, hfound⟩ := Validate.validate_finds extraction config
  have hvalid : ValidationResultData.Valid
      ⟨if issues = [] then .pass else .fail,
        host.modelDigest (InvoiceExtraction.codec host) extraction,
        host.modelDigest ValidationConfig.codec config, config, issues⟩ := by
    change (if issues = [] then ValidationStatus.pass else .fail) = .pass ↔ issues = []
    split_ifs with h <;> simp [h]
  unfold validateInvoice
  dsimp only [Option.getD_some]
  rw [hissues, ok_bind]
  exact ⟨_, construct_eq hvalid, rfl, hfound⟩

/-- An invoice passes if and only if it is accepted under a configured currency, and the issues are
what the controls find. -/
theorem validate_invoice_exact (host : Host) (extraction : InvoiceExtraction)
    (config : ValidationConfig) :
    ∃ result, validateInvoice host extraction config = .ok result ∧
      (result.val.status = .pass ↔ ∃ rule ∈ config.currencies.val, Accepted extraction rule) ∧
      result.val.issues.map ValidationIssue.finding = Control.findings extraction config := by
  obtain ⟨result, hresult, -, hfound⟩ := validateInvoice_ok host extraction config
  refine ⟨result, hresult, ?_, hfound⟩
  rw [← Control.findings_eq_nil, ← hfound, List.map_eq_nil_iff]
  exact result.property

end InvoiceOps
