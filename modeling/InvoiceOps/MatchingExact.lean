import InvoiceOps.Matching
import InvoiceOps.ValidationExact

/-!
# Matching is exact

Which numbers and texts `matchInvoice` compares, in the order of its checks (`comparisons`,
`identityComparisons`), and what a check of two of them has to say (`Comparison.Decides`). The
quantities received are sums over the lines of the receipts (`receivedOf`).

The differences are exact ; the tolerance is computed in the context of the checks, where a
relative tolerance of many digits is rounded.
-/

open Decimal (Arithmetic Context Grid)

namespace InvoiceOps

/-- The differences a rule allows. -/
def MatchRule.Allows (rule : MatchRule) (difference tolerance : ℚ) : Prop :=
  match rule with
  | .equal => |difference| ≤ tolerance
  | .atMost => difference ≤ tolerance

instance (rule : MatchRule) (difference tolerance : ℚ) :
    Decidable (rule.Allows difference tolerance) :=
  match rule with
  | .equal => inferInstanceAs (Decidable (|difference| ≤ tolerance))
  | .atMost => inferInstanceAs (Decidable (difference ≤ tolerance))

namespace Match

/-! ## What is compared -/

/-- Two numbers that are compared, where they are there. -/
structure Comparison where
  field : NumericField
  lineNumber : Option LineNumber
  rule : MatchRule
  expected : Option ℚ
  actual : Option ℚ
  absolute : AbsoluteTolerance
  relative : RelativeTolerance
  positive : Bool := false

/-- The check of two numbers : the tolerance is the larger of the absolute one and of the relative
one, as the context rounds it. -/
structure Comparison.Measured (c : Comparison) (check : NumericCheck) (x y : ℚ) : Prop where
  expected : check.val.expected.map Decimal.value = some x
  actual : check.val.actual.map Decimal.value = some y
  difference : check.val.difference.map Decimal.value = some (y - x)
  tolerance : ∃ size product tolerance : Decimal, size.value = |x| ∧
    (exactContext.mul size c.relative.val : Except Exn Decimal) = .ok product ∧
    check.val.tolerance = some tolerance ∧
    tolerance.value = max c.absolute.val.value product.value ∧
    (check.val.status = .match ↔
      c.rule.Allows (y - x) tolerance.value ∧ 0 ≤ y ∧ (c.positive → 0 < y))

/-- The check of a comparison. -/
structure Comparison.Decides (c : Comparison) (check : NumericCheck) : Prop where
  field : check.val.field = c.field
  lineNumber : check.val.lineNumber = c.lineNumber
  rule : check.val.rule = c.rule
  unknown : check.val.status = .unknown ↔ c.expected = none ∨ c.actual = none
  measured : ∀ x ∈ c.expected, ∀ y ∈ c.actual, c.Measured check x y

/-- Two texts that are compared. -/
structure IdentityComparison where
  field : IdentityField
  lineNumber : Option LineNumber
  expected : String
  actual : Option String

/-- The check of two texts says how they compare. -/
structure IdentityComparison.Decides (host : Host) (c : IdentityComparison)
    (check : IdentityCheck) : Prop where
  field : check.field = c.field
  lineNumber : check.lineNumber = c.lineNumber
  expected : check.expected = some c.expected
  actual : check.actual = c.actual
  unknown : check.status = .unknown ↔ ∀ s ∈ c.actual, isBlank s = true
  «match» : check.status = .match ↔
    ∃ s ∈ c.actual, isBlank s = false ∧ host.text c.expected = host.text s

/-- The quantity of a line, over some lines of receipts. -/
def sumOf (lines : List ReceiptLine) (number : LineNumber) : ℚ :=
  ((lines.filter fun line => line.lineNumber = number).map fun line =>
    line.receivedQuantity.val.value).sum

section

variable (extraction : InvoiceExtraction) (snapshot : ERPSnapshotData) (policy : MatchConfig)

/-- What was received of a line. -/
def receivedOf (number : LineNumber) : ℚ :=
  sumOf (snapshot.goodsReceipts.val.flatMap fun receipt => receipt.lines.val) number

/-- What was received, at the prices of the order. -/
def receivedValueOf : ℚ :=
  (snapshot.poLines.map fun line =>
    receivedOf snapshot line.lineNumber * line.unitPrice.val.value).sum

/-- What the header of a match compares. -/
def headerComparisons : List Comparison :=
  let absolute := policy.amountAbsoluteTolerance
  let relative := policy.amountRelativeTolerance
  let subtotal := Control.number? extraction.subtotal
  let ordered := snapshot.purchaseOrder.totalAmount.val.value
  let received := receivedValueOf snapshot
  [⟨.subtotalOrdered, none, .atMost, some ordered, subtotal, absolute, relative, false⟩,
    ⟨.subtotalReceived, none, .atMost, some received, subtotal, absolute, relative, false⟩,
    ⟨.receiptVsOrderTotal, none, .atMost, some ordered, some received, absolute, relative, false⟩]

/-- No relative tolerance. -/
def noTolerance : RelativeTolerance :=
  ⟨.zero, by decide +kernel⟩

/-- The numbers of a purchase order line and of the invoice line at its position. -/
def lineComparisons (line : PurchaseOrderLine) (invoiceLine : Option InvoiceLineItem) :
    List Comparison :=
  let number := some line.lineNumber
  let quantity := invoiceLine.bind fun l => Control.number? l.quantity
  let price := line.unitPrice.val.value
  let ordered := line.quantity.val.value
  let received := receivedOf snapshot line.lineNumber
  let absolute := policy.quantityAbsoluteTolerance
  [⟨.unitPrice, number, .equal, some price, invoiceLine.bind fun l => Control.number? l.unitPrice,
      policy.priceAbsoluteTolerance, policy.priceRelativeTolerance, false⟩,
    ⟨.quantityOrdered, number, .atMost, some ordered, quantity, absolute, noTolerance, true⟩,
    ⟨.quantityReceived, number, .atMost, some received, quantity, absolute, noTolerance, true⟩,
    ⟨.receiptVsOrder, number, .atMost, some ordered, some received, absolute, noTolerance, false⟩,
    ⟨.lineTotal, number, .equal, quantity.map fun q => q * price,
      invoiceLine.bind fun l => Control.number? l.lineTotal, policy.lineTotalAbsoluteTolerance,
      policy.lineTotalRelativeTolerance, false⟩]

/-- All the numbers that are compared. -/
def comparisons : List Comparison :=
  headerComparisons extraction snapshot policy ++
    snapshot.poLines.zipIdx.flatMap fun line =>
      lineComparisons snapshot policy line.1 extraction.lineItems.val[line.2]?

/-- All the texts that are compared. -/
def identityComparisons : List IdentityComparison :=
  [⟨.poNumber, none, snapshot.purchaseOrder.poNumber.val, text? extraction.poNumber⟩,
    ⟨.vendorName, none, snapshot.vendor.name.val, text? extraction.vendorName⟩,
    ⟨.currency, none, snapshot.purchaseOrder.currency.text, text? extraction.currency⟩,
    ⟨.lineCount, none, toString snapshot.poLines.length,
      some (toString extraction.lineItems.val.length)⟩] ++
  snapshot.poLines.zipIdx.map fun line =>
    ⟨.description, some line.1.lineNumber, line.1.description.val,
      extraction.lineItems.val[line.2]?.bind fun l => text? l.description⟩

end

/-! ## Numbers -/

/-- A number that is compared. -/
structure Measure (d : Decimal) : Prop where
  grid : Grid 12 d.value
  le : |d.value| ≤ 10 ^ 40

theorem Measure.of_fits {d : Decimal} {maxDigits places : ℕ} (h : d.fits maxDigits places)
    (hplaces : places ≤ 12) (hwhole : maxDigits ≤ 40 + places) : Measure d := by
  obtain ⟨hgrid, hlt⟩ := Decimal.fits_bound h
  refine ⟨hgrid.mono hplaces, hlt.le.trans ?_⟩
  rw [div_le_iff₀ (by positivity), ← pow_add]
  exact pow_le_pow_right₀ (by norm_num) hwhole

theorem mul_relative {size relative : Decimal} (hsize : |size.value| ≤ 10 ^ 40)
    (hrelative : 0 ≤ relative.value ∧ relative.value ≤ 1) :
    ∃ product : Decimal, (exactContext.mul size relative : Except Exn Decimal) = .ok product := by
  have hle : |size.value * relative.value| ≤ 10 ^ 40 := by
    rw [abs_mul, abs_of_nonneg hrelative.1]
    calc |size.value| * relative.value ≤ 10 ^ 40 * 1 :=
          mul_le_mul hsize hrelative.2 hrelative.1 (by positivity)
      _ = 10 ^ 40 := mul_one _
  have hemax : (10 : ℚ) ^ 40 < 10 ^ exactContext.emax := by
    have h40 : (10 : ℚ) ^ 40 = 10 ^ (40 : ℤ) := by norm_cast
    rw [h40]
    exact zpow_lt_zpow_right₀ (by norm_num) (by decide)
  have hctx : exactContext.emin < exactContext.emax := by decide
  obtain ⟨product, hproduct, -⟩ := Context.mul_ok (ε := Exn) hctx (hle.trans_lt hemax)
  exact ⟨product, hproduct⟩

/-- The relative tolerance of a number, where it needs no rounding. -/
theorem relative_exact {size relative : Decimal} (hgrid : Grid 12 size.value)
    (hsize : |size.value| ≤ 10 ^ 40) (hrelative : 0 ≤ relative.value ∧ relative.value ≤ 1)
    (hplaces : Grid 6 relative.value) :
    ∃ product : Decimal, (exactContext.mul size relative : Except Exn Decimal) = .ok product ∧
      product.value = size.value * relative.value ∧ |product.value| ≤ 10 ^ 40 := by
  have hle : |size.value * relative.value| ≤ 10 ^ 40 := by
    rw [abs_mul, abs_of_nonneg hrelative.1]
    calc |size.value| * relative.value ≤ 10 ^ 40 * 1 :=
          mul_le_mul hsize hrelative.2 hrelative.1 (by positivity)
      _ = 10 ^ 40 := mul_one _
  obtain ⟨product, hproduct, hvalue⟩ := Context.mul_exact (ε := Exn)
    (exact_of_grid (hgrid.mul hplaces) le_rfl (hle.trans (by norm_num)))
  exact ⟨product, hproduct, hvalue, by rwa [hvalue]⟩

/-- A decimal with a short text. -/
structure Compact (d : Decimal) : Prop where
  coeff : d.coeff < 10 ^ 60
  exp : d.exp.natAbs ≤ 1000058
  value : |d.value| < 10 ^ 60

theorem Compact.of_fix {d r : Decimal} (h : (exactContext.fix d : Except Exn Decimal) = .ok r)
    (hvalue : |r.value| < 10 ^ 60) : Compact r := by
  obtain ⟨hcoeff, hlow, hhigh⟩ := Context.fix_bounds (by decide) (by decide) h
  refine ⟨hcoeff, ?_, hvalue⟩
  change (-999999 - 60 + 1 : ℤ) ≤ r.exp at hlow
  change r.exp ≤ 999999 at hhigh
  omega

theorem value_larger (a b : Decimal) : (larger a b).value = max a.value b.value := by
  unfold larger
  split_ifs with h
  · rw [max_eq_right h.le]
  · rw [max_eq_left (not_lt.mp h)]

theorem Compact.larger {a b : Decimal} (ha : Compact a) (hb : Compact b) :
    Compact (larger a b) := by
  unfold Match.larger
  split_ifs
  · exact hb
  · exact ha

/-- What is shown of a check : that it decides its comparison, and has short texts. -/
structure Comparison.Computed (c : Comparison) (check : NumericCheck) : Prop where
  decides : c.Decides check
  values : check.val.expected.map Decimal.value = c.expected ∧
    check.val.actual.map Decimal.value = c.actual
  missing : c.expected = none ∨ c.actual = none →
    check.val.difference = none ∧ check.val.tolerance = none
  expected : ∀ x ∈ c.expected, Grid 12 x ∧ |x| ≤ 10 ^ 40
  difference : ∀ d ∈ check.val.difference, Compact d
  tolerance : Grid 6 c.relative.val.value → Compact c.absolute.val →
    ∀ t ∈ check.val.tolerance, Compact t

theorem newCheck_eq {check : NumericCheckData} (h : check.Valid) :
    newCheck check = .ok ⟨check, h⟩ :=
  construct_eq h

theorem within_eq {rule : MatchRule} {difference tolerance : Decimal}
    (h : exactContext.Exact |difference.value|) :
    within rule difference tolerance =
      .ok (decide (rule.Allows difference.value tolerance.value)) := by
  cases rule with
  | equal =>
    obtain ⟨size, hsize, hvalue⟩ := Context.abs_exact (ε := Exn) h
    unfold within
    dsimp only
    rw [exact_abs, hsize, ok_bind, hvalue]
    rfl
  | atMost => rfl

theorem sign_allowed (y : ℚ) (positive : Bool) :
    (!(decide (y < 0) || (positive && decide (y = 0)))) = true ↔ 0 ≤ y ∧ (positive → 0 < y) := by
  rw [Bool.not_eq_true', Bool.or_eq_false_iff, decide_eq_false_iff_not, not_lt,
    Bool.and_eq_false_iff, decide_eq_false_iff_not]
  refine and_congr_right fun hy => ?_
  cases positive with
  | false => simp
  | true => simp [hy.lt_iff_ne, eq_comm]

/-- The size of a number and its difference to another one. -/
theorem numeric_operations {expected actual : Decimal} (hexpected : Measure expected)
    (hactual : Measure actual) :
    ∃ size difference : Decimal, (exactContext.abs expected : Except Exn Decimal) = .ok size ∧
      size.value = |expected.value| ∧ Grid 12 size.value ∧ |size.value| ≤ 10 ^ 40 ∧
      (exactContext.sub actual expected : Except Exn Decimal) = .ok difference ∧
      difference.value = actual.value - expected.value ∧ |difference.value| ≤ 10 ^ 41 ∧
      exactContext.Exact |difference.value| := by
  have hsizeExact : exactContext.Exact |expected.value| :=
    exact_of_grid hexpected.grid.abs (by norm_num) ((abs_abs _).trans_le
      (hexpected.le.trans (by norm_num)))
  obtain ⟨size, hsize, hsizeValue⟩ := Context.abs_exact (ε := Exn) hsizeExact
  have hle : |actual.value - expected.value| ≤ 10 ^ 41 := by
    have htriangle := abs_sub actual.value expected.value
    have h₁ := hactual.le
    have h₂ := hexpected.le
    linarith
  have hgrid := hactual.grid.sub hexpected.grid
  obtain ⟨difference, hdifference, hvalue⟩ :=
    Context.sub_exact (ε := Exn) (exact_of_grid hgrid (by norm_num) hle)
  refine ⟨size, difference, hsize, hsizeValue, ?_, ?_, hdifference, hvalue, ?_, ?_⟩
  · rw [hsizeValue]
    exact hexpected.grid.abs
  · rw [hsizeValue, abs_abs]
    exact hexpected.le
  · rwa [hvalue]
  · rw [hvalue]
    exact exact_of_grid hgrid.abs (by norm_num) ((abs_abs _).trans_le hle)

theorem numeric_computed (field : NumericField) (lineNumber : Option LineNumber)
    (rule : MatchRule) {expected : Decimal} {actual : Option Decimal} (absolute : AbsoluteTolerance)
    (relative : RelativeTolerance) (positive : Bool) (hexpected : Measure expected)
    (hactual : ∀ d ∈ actual, Measure d) :
    ∃ check, numeric field lineNumber rule expected actual absolute.val relative.val positive =
        .ok check ∧
      Comparison.Computed ⟨field, lineNumber, rule, some expected.value,
        actual.map Decimal.value, absolute, relative, positive⟩ check := by
  have hbounds : ∀ x ∈ some expected.value, Grid 12 x ∧ |x| ≤ 10 ^ 40 := by
    intro x hx
    rw [← Option.some.inj hx]
    exact ⟨hexpected.grid, hexpected.le⟩
  cases actual with
  | none =>
    have hvalid : NumericCheckData.Valid
        ⟨field, lineNumber, rule, some expected, none, none, none, .unknown⟩ := fun _ => nofun
    exact ⟨_, newCheck_eq hvalid, ⟨rfl, rfl, rfl, by simp, by simp⟩, ⟨rfl, rfl⟩,
      fun _ => ⟨rfl, rfl⟩,
      hbounds, fun _ => nofun, fun _ _ _ => nofun⟩
  | some actual =>
    obtain ⟨size, difference, hsize, hsizeValue, hsizeGrid, hsizeLe, hdifference, hvalue, hle,
      hwithin⟩ := numeric_operations hexpected (hactual actual rfl)
    obtain ⟨product, hproduct⟩ := mul_relative hsizeLe relative.property
    have hvalid : ∀ status, NumericCheckData.Valid ⟨field, lineNumber, rule, some expected,
        some actual, some difference, some (larger absolute.val product), status⟩ := by
      intro status t ht
      rw [← Option.some.inj ht, value_larger]
      exact absolute.property.1.trans (le_max_left _ _)
    unfold numeric
    dsimp only
    rw [exact_abs, hsize, ok_bind, exact_mul, hproduct, ok_bind, exact_sub, hdifference, ok_bind,
      within_eq hwithin, ok_bind, newCheck_eq (hvalid _)]
    refine ⟨_, rfl, ⟨rfl, rfl, rfl, ?_, ?_⟩, ⟨rfl, rfl⟩, by simp, hbounds, ?_, ?_⟩
    · dsimp only
      split_ifs <;> simp
    · rintro x hx y hy
      cases hx
      cases hy
      refine ⟨rfl, rfl, by rw [Option.map_some, hvalue],
        size, product, _, hsizeValue, hproduct, rfl, value_larger _ _, ?_⟩
      dsimp only
      rw [hvalue]
      have hsign := sign_allowed actual.value positive
      split_ifs with h
      · rw [Bool.and_eq_true, decide_eq_true_eq, hsign] at h
        exact iff_of_true rfl h
      · rw [Bool.and_eq_true, decide_eq_true_eq, hsign] at h
        exact iff_of_false (by simp) h
    · rintro d hd
      rw [← Option.some.inj hd]
      exact .of_fix hdifference (hle.trans_lt (by norm_num))
    · rintro hplaces habsolute t ht
      obtain ⟨p, hp, -, hproductLe⟩ :=
        relative_exact hsizeGrid hsizeLe relative.property hplaces
      obtain rfl := Except.ok.inj (hproduct.symm.trans hp)
      rw [← Option.some.inj ht]
      exact habsolute.larger (.of_fix hproduct (hproductLe.trans_lt (by norm_num)))

/-! ## Quantities received -/

theorem sumOf_cons (line : ReceiptLine) (lines : List ReceiptLine) (number : LineNumber) :
    sumOf (line :: lines) number =
      (if line.lineNumber = number then line.receivedQuantity.val.value else 0) +
        sumOf lines number := by
  unfold sumOf
  by_cases h : line.lineNumber = number
  · rw [if_pos h, List.filter_cons_of_pos (by simpa using h), List.map_cons, List.sum_cons]
  · rw [if_neg h, List.filter_cons_of_neg (by simpa using h), zero_add]

theorem sumOf_nonneg (lines : List ReceiptLine) (number : LineNumber) :
    0 ≤ sumOf lines number := by
  induction lines with
  | nil => exact le_rfl
  | cons line lines ih =>
    rw [sumOf_cons]
    have := line.receivedQuantity.property.1
    split_ifs <;> linarith

theorem receivedQuantity_le (line : ReceiptLine) :
    line.receivedQuantity.val.value ≤ 10 ^ 14 := by
  obtain ⟨-, hlt⟩ := Decimal.fits_bound line.receivedQuantity.property.2
  have hle := (le_abs_self _).trans hlt.le
  norm_num at hle ⊢
  exact hle

theorem sumOf_le (lines : List ReceiptLine) (number : LineNumber) :
    sumOf lines number ≤ lines.length * 10 ^ 14 := by
  induction lines with
  | nil => simp [sumOf]
  | cons line lines ih =>
    have hline := receivedQuantity_le line
    have hsplit : sumOf (line :: lines) number ≤ 10 ^ 14 + sumOf lines number := by
      rw [sumOf_cons]
      split_ifs <;> linarith
    rw [List.length_cons]
    push_cast
    linarith

/-- A total of received quantities. -/
structure Total (d : Decimal) (x : ℚ) : Prop where
  value : d.value = x
  grid : Grid 4 x
  nonneg : 0 ≤ x

theorem add_total {line : ReceiptLine} {d : Decimal} {x : ℚ} (htotal : Total d x)
    (hle : x + line.receivedQuantity.val.value ≤ 10 ^ 40) :
    ∃ d' : Decimal, (exactContext.add d line.receivedQuantity.val : Except Exn Decimal) = .ok d' ∧
      Total d' (x + line.receivedQuantity.val.value) := by
  obtain ⟨hgrid, -⟩ := Decimal.fits_bound line.receivedQuantity.property.2
  have hnonneg := add_nonneg htotal.nonneg line.receivedQuantity.property.1
  have hsumGrid := htotal.grid.add hgrid
  have hexact : exactContext.Exact (d.value + line.receivedQuantity.val.value) := by
    rw [htotal.value]
    refine exact_of_grid hsumGrid (by norm_num) ?_
    rw [abs_of_nonneg hnonneg]
    exact hle.trans (by norm_num)
  obtain ⟨d', hadd, hvalue⟩ := Context.add_exact (ε := Exn) hexact
  rw [htotal.value] at hvalue
  exact ⟨d', hadd, hvalue, hsumGrid, hnonneg⟩

theorem addLine_eq {totals : LineNumber → Option Decimal} {line : ReceiptLine} {d d' : Decimal}
    [Arithmetic Exn] (hd : totals line.lineNumber = some d)
    (hadd : Arithmetic.add d line.receivedQuantity.val = (.ok d' : Except Exn Decimal)) :
    addLine totals line = .ok (Function.update totals line.lineNumber (some d')) := by
  have hget : total totals line.lineNumber = .ok d := by rw [total, hd]
  rw [addLine, hget, ok_bind, hadd]
  rfl

/-- The totals after some lines of receipts, with the lines that are left. -/
structure Totals (numbers : List LineNumber) (lines : List ReceiptLine)
    (totals : LineNumber → Option Decimal) (sums : LineNumber → ℚ) : Prop where
  mem : ∀ line ∈ lines, line.lineNumber ∈ numbers
  le : ∀ n ∈ numbers, sums n + sumOf lines n ≤ 10 ^ 40
  total : ∀ n ∈ numbers, ∃ d, totals n = some d ∧ Total d (sums n)

/-- The sums after one more line. -/
def addSum (sums : LineNumber → ℚ) (line : ReceiptLine) : LineNumber → ℚ :=
  Function.update sums line.lineNumber
    (sums line.lineNumber + line.receivedQuantity.val.value)

theorem addSum_sumOf (sums : LineNumber → ℚ) (line : ReceiptLine) (lines : List ReceiptLine)
    (n : LineNumber) : addSum sums line n + sumOf lines n = sums n + sumOf (line :: lines) n := by
  rw [sumOf_cons, addSum]
  by_cases hn : line.lineNumber = n
  · subst hn
    rw [if_pos rfl, Function.update_self]
    ring
  · rw [if_neg hn, Function.update_of_ne (Ne.symm hn)]
    ring

/-- A line is added to its total. -/
theorem Totals.step {numbers : List LineNumber} {line : ReceiptLine} {lines : List ReceiptLine}
    {totals : LineNumber → Option Decimal} {sums : LineNumber → ℚ}
    (h : Totals numbers (line :: lines) totals sums) :
    ∃ d d' : Decimal, totals line.lineNumber = some d ∧
      (exactContext.add d line.receivedQuantity.val : Except Exn Decimal) = .ok d' ∧
      d'.value = d.value + line.receivedQuantity.val.value ∧
      Totals numbers lines (Function.update totals line.lineNumber (some d'))
        (addSum sums line) := by
  have hline := h.mem line List.mem_cons_self
  obtain ⟨d, hd, htotal⟩ := h.total line.lineNumber hline
  have hbound := h.le line.lineNumber hline
  rw [sumOf_cons, if_pos rfl] at hbound
  have hrest := sumOf_nonneg lines line.lineNumber
  obtain ⟨d', hadd, hd'⟩ := add_total htotal (by linarith)
  refine ⟨d, d', hd, hadd, by rw [hd'.value, htotal.value], fun l hl =>
    h.mem l (List.mem_cons_of_mem line hl), fun n hn => (addSum_sumOf ..).trans_le (h.le n hn),
    fun n hn => ?_⟩
  by_cases hne : n = line.lineNumber
  · subst hne
    exact ⟨d', Function.update_self .., by simpa only [addSum, Function.update_self] using hd'⟩
  · obtain ⟨e, he, htotal⟩ := h.total n hn
    refine ⟨e, (Function.update_of_ne hne ..).trans he, ?_⟩
    simpa only [addSum, Function.update_of_ne hne] using htotal

/-- The totals, after the lines of some receipts. -/
theorem foldlM_addLine (numbers : List LineNumber) : ∀ {lines : List ReceiptLine}
    (totals : LineNumber → Option Decimal) (sums : LineNumber → ℚ),
    Totals numbers lines totals sums →
    ∃ totals', lines.foldlM addLine totals = .ok totals' ∧
      ∀ n ∈ numbers, ∃ d, totals' n = some d ∧ Total d (sums n + sumOf lines n) := by
  intro lines
  induction lines with
  | nil =>
    intro totals sums h
    refine ⟨totals, rfl, fun n hn => ?_⟩
    obtain ⟨d, hd, htotal⟩ := h.total n hn
    exact ⟨d, hd, by simpa [sumOf] using htotal⟩
  | cons line lines ih =>
    intro totals sums h
    obtain ⟨d, d', hd, hadd, -, hstep⟩ := h.step
    obtain ⟨totals', hfold, htotals'⟩ := ih _ _ hstep
    refine ⟨totals', ?_, fun n hn => ?_⟩
    · rw [List.foldlM_cons, addLine_eq hd hadd, ok_bind, hfold]
    · rw [← addSum_sumOf]
      exact htotals' n hn

theorem length_receiptLines (snapshot : ERPSnapshotData) :
    (snapshot.goodsReceipts.val.flatMap fun receipt => receipt.lines.val).length ≤ 50000 := by
  have hlines : ∀ n ∈ snapshot.goodsReceipts.val.map fun receipt => receipt.lines.val.length,
      n ≤ 500 := by
    intro n hn
    obtain ⟨receipt, -, rfl⟩ := List.mem_map.mp hn
    exact receipt.lines.property
  have hsum := List.sum_le_card_nsmul _ 500 hlines
  rw [List.length_map, nsmul_eq_mul, Nat.cast_id] at hsum
  have hreceipts := snapshot.goodsReceipts.property
  rw [List.length_flatMap]
  omega

theorem receivedOf_le (snapshot : ERPSnapshotData) (number : LineNumber) :
    receivedOf snapshot number ≤ 5 * 10 ^ 18 := by
  have hlength : ((snapshot.goodsReceipts.val.flatMap fun receipt =>
      receipt.lines.val).length : ℚ) ≤ 50000 := by
    exact_mod_cast length_receiptLines snapshot
  have hsum := sumOf_le (snapshot.goodsReceipts.val.flatMap fun receipt => receipt.lines.val) number
  unfold receivedOf
  linarith

/-- Every receipt line is one of the order. -/
theorem lineNumber_mem {snapshot : ERPSnapshotData} (h : snapshot.Valid) {line : ReceiptLine}
    (hline : line ∈ snapshot.goodsReceipts.val.flatMap fun receipt => receipt.lines.val) :
    line.lineNumber ∈ snapshot.poLines.map PurchaseOrderLine.lineNumber := by
  obtain ⟨receipt, hreceipt, hline⟩ := List.mem_flatMap.mp hline
  obtain ⟨l, hl, -⟩ := Option.map_eq_some_iff.mp (h.skus receipt hreceipt line hline)
  have hnumber := List.find?_some hl
  rw [← of_decide_eq_true hnumber]
  exact List.mem_map_of_mem (List.mem_of_find?_eq_some hl)

theorem totals_start {snapshot : ERPSnapshotData} (h : snapshot.Valid) :
    Totals (snapshot.poLines.map PurchaseOrderLine.lineNumber)
      (snapshot.goodsReceipts.val.flatMap fun receipt => receipt.lines.val)
      (fun number => if number ∈ snapshot.poLines.map PurchaseOrderLine.lineNumber then some .zero
        else none) fun _ => 0 := by
  refine ⟨fun line hline => lineNumber_mem h hline, fun n _ => ?_,
    fun n hn => ⟨.zero, if_pos hn, Decimal.value_zero, Grid.zero, le_rfl⟩⟩
  have hle := receivedOf_le snapshot n
  unfold receivedOf at hle
  linarith

/-- What was received of every line of the order. -/
theorem received_total {snapshot : ERPSnapshotData} (h : snapshot.Valid) :
    ∃ totals, received snapshot = .ok totals ∧ ∀ line ∈ snapshot.poLines,
      ∃ d, totals line.lineNumber = some d ∧ Total d (receivedOf snapshot line.lineNumber) := by
  obtain ⟨totals, hfold, htotals⟩ := foldlM_addLine _ _ _ (totals_start h)
  refine ⟨totals, hfold, fun line hline => ?_⟩
  obtain ⟨d, hd, htotal⟩ := htotals line.lineNumber (List.mem_map_of_mem hline)
  rw [zero_add] at htotal
  exact ⟨d, hd, htotal⟩

theorem Total.measure {snapshot : ERPSnapshotData} {number : LineNumber} {d : Decimal}
    (h : Total d (receivedOf snapshot number)) : Measure d := by
  have hle := receivedOf_le snapshot number
  refine ⟨?_, ?_⟩
  · rw [h.value]
    exact h.grid.mono (by norm_num)
  · rw [h.value, abs_of_nonneg h.nonneg]
    linarith

/-- A received quantity at the price of the order. -/
theorem price_received {snapshot : ERPSnapshotData} {line : PurchaseOrderLine} {d : Decimal}
    (h : Total d (receivedOf snapshot line.lineNumber)) :
    ∃ v : Decimal, (exactContext.mul d line.unitPrice.val : Except Exn Decimal) = .ok v ∧
      v.value = receivedOf snapshot line.lineNumber * line.unitPrice.val.value ∧
      Grid 6 v.value ∧ 0 ≤ v.value ∧ v.value ≤ 5 * 10 ^ 34 := by
  obtain ⟨hgrid, hlt⟩ := Decimal.fits_bound line.unitPrice.property.2
  have hprice := line.unitPrice.property.1
  have hpriceLe : line.unitPrice.val.value ≤ 10 ^ 16 := by
    refine (le_abs_self _).trans (hlt.le.trans ?_)
    norm_num
  have hnonneg := mul_nonneg h.nonneg hprice
  have hle : receivedOf snapshot line.lineNumber * line.unitPrice.val.value ≤ 5 * 10 ^ 34 := by
    calc receivedOf snapshot line.lineNumber * line.unitPrice.val.value
        ≤ 5 * 10 ^ 18 * 10 ^ 16 :=
          mul_le_mul (receivedOf_le snapshot _) hpriceLe hprice (by norm_num)
      _ = 5 * 10 ^ 34 := by norm_num
  have hmulGrid := h.grid.mul hgrid
  have hexact : exactContext.Exact (d.value * line.unitPrice.val.value) := by
    rw [h.value]
    refine exact_of_grid hmulGrid (by norm_num) ?_
    rw [abs_of_nonneg hnonneg]
    exact hle.trans (by norm_num)
  obtain ⟨v, hv, hvalue⟩ := Context.mul_exact (ε := Exn) hexact
  rw [h.value] at hvalue
  rw [← hvalue] at hmulGrid hnonneg hle
  exact ⟨v, hv, hvalue, hmulGrid, hnonneg, hle⟩

/-- What was received, at the prices of the order. -/
theorem prices_received {snapshot : ERPSnapshotData} {totals : LineNumber → Option Decimal}
    (h : ∀ line ∈ snapshot.poLines,
      ∃ d, totals line.lineNumber = some d ∧ Total d (receivedOf snapshot line.lineNumber)) :
    ∃ values : List Decimal, (snapshot.poLines.mapM fun line => do
      let quantity ← total totals line.lineNumber
      Arithmetic.mul quantity line.unitPrice.val) = Except.ok values ∧ values.length ≤ 500 ∧
      (∀ v ∈ values, Grid 6 v.value ∧ 0 ≤ v.value ∧ v.value ≤ 5 * 10 ^ 34) ∧
      values.map Decimal.value = snapshot.poLines.map fun line =>
        receivedOf snapshot line.lineNumber * line.unitPrice.val.value := by
  obtain ⟨values, hvalues, hall⟩ : ∃ values, (snapshot.poLines.mapM fun line => do
      let quantity ← total totals line.lineNumber
      Arithmetic.mul quantity line.unitPrice.val) = Except.ok values ∧
      List.Forall₂ (fun line (v : Decimal) =>
        v.value = receivedOf snapshot line.lineNumber * line.unitPrice.val.value ∧
          Grid 6 v.value ∧ 0 ≤ v.value ∧ v.value ≤ 5 * 10 ^ 34) snapshot.poLines values := by
    refine mapM_forall₂ fun line hline => ?_
    obtain ⟨d, hd, htotal⟩ := h line hline
    obtain ⟨v, hv, hbounds⟩ := price_received htotal
    have hget : total totals line.lineNumber = .ok d := by rw [total, hd]
    refine ⟨v, ?_, hbounds⟩
    rw [hget, ok_bind, exact_mul, hv]
  refine ⟨values, hvalues, ?_, forall_of_forall₂ hall fun _ _ _ hv => hv.2,
    map_of_forall₂ hall fun _ _ hv => hv.1⟩
  rw [← hall.length_eq]
  exact snapshot.purchaseOrder.lines.property

theorem receivedValue_eq {snapshot : ERPSnapshotData} {totals : LineNumber → Option Decimal}
    (h : ∀ line ∈ snapshot.poLines,
      ∃ d, totals line.lineNumber = some d ∧ Total d (receivedOf snapshot line.lineNumber)) :
    ∃ d : Decimal, receivedValue totals snapshot.poLines = .ok d ∧
      d.value = receivedValueOf snapshot ∧ Measure d := by
  obtain ⟨values, hvalues, hlength, hmem, hmap⟩ := prices_received h
  obtain ⟨sum, hsum, hvalue, hgrid, hnonneg, hle⟩ :=
    sum_amounts (by norm_num) (by norm_num) hlength hmem
  refine ⟨sum, ?_, hvalue.trans (congrArg List.sum hmap), hgrid.mono (by norm_num), ?_⟩
  · rw [receivedValue, hvalues, ok_bind, exact_sum, hsum]
  · rwa [abs_of_nonneg hnonneg]

/-! ## The checks -/

theorem noTolerance_val : noTolerance.val = .zero :=
  rfl

section

variable {extraction : InvoiceExtraction} {snapshot : ERPSnapshotData} (policy : MatchConfig)

theorem map_decimal? {p : Decimal → Prop} (line : Option InvoiceLineItem)
    (field : InvoiceLineItem → ExtractedField { d // p d }) :
    (line.bind fun l => decimal? (field l)).map Decimal.value =
      line.bind fun l => Control.number? (field l) := by
  cases line with
  | none => rfl
  | some l => exact Validate.map_decimal? (field l)

theorem measure_decimal? {maxDigits places : ℕ} (hplaces : places ≤ 12)
    (hwhole : maxDigits ≤ 40 + places) (line : Option InvoiceLineItem)
    (field : InvoiceLineItem → ExtractedField (Digits maxDigits places)) :
    ∀ d ∈ line.bind fun l => decimal? (field l), Measure d := by
  intro d hd
  obtain ⟨l, -, hl⟩ := Option.bind_eq_some_iff.mp hd
  obtain ⟨x, -, rfl⟩ := Option.map_eq_some_iff.mp hl
  exact .of_fits x.property hplaces hwhole

theorem headerNumbers_computed (extraction : InvoiceExtraction) {value : Decimal}
    (hvalue : value.value = receivedValueOf snapshot)
    (hmeasure : Measure value) :
    ∃ checks, headerNumbers policy snapshot.purchaseOrder (decimal? extraction.subtotal) value =
        .ok checks ∧
      List.Forall₂ Comparison.Computed (headerComparisons extraction snapshot policy) checks := by
  have htotal : Measure snapshot.purchaseOrder.totalAmount.val :=
    .of_fits snapshot.purchaseOrder.totalAmount.property.2 (by norm_num) (by norm_num)
  have hsubtotal : ∀ d ∈ decimal? extraction.subtotal, Measure d := by
    intro d hd
    obtain ⟨x, -, rfl⟩ := Option.map_eq_some_iff.mp hd
    exact .of_fits x.property (by norm_num) (by norm_num)
  have hvalueSome : ∀ d ∈ some value, Measure d := by
    intro d hd
    rwa [← Option.some.inj hd]
  obtain ⟨ordered, hordered, horderedDecides⟩ := numeric_computed .subtotalOrdered none .atMost
    policy.amountAbsoluteTolerance policy.amountRelativeTolerance false htotal hsubtotal
  obtain ⟨received, hreceived, hreceivedDecides⟩ := numeric_computed .subtotalReceived none .atMost
    policy.amountAbsoluteTolerance policy.amountRelativeTolerance false hmeasure hsubtotal
  obtain ⟨receipt, hreceipt, hreceiptDecides⟩ := numeric_computed .receiptVsOrderTotal none .atMost
    policy.amountAbsoluteTolerance policy.amountRelativeTolerance false htotal hvalueSome
  rw [Validate.map_decimal?] at horderedDecides hreceivedDecides
  rw [hvalue] at hreceivedDecides
  rw [Option.map_some, hvalue] at hreceiptDecides
  unfold headerNumbers
  dsimp only
  rw [hordered, ok_bind, hreceived, ok_bind, hreceipt, ok_bind]
  exact ⟨_, rfl, .cons horderedDecides (.cons hreceivedDecides (.cons hreceiptDecides .nil))⟩

/-- A quantity at the price of the order. -/
theorem price_quantity (line : PurchaseOrderLine) (quantity : Quantity) :
    ∃ expected : Decimal,
      (exactContext.mul quantity.val line.unitPrice.val : Except Exn Decimal) = .ok expected ∧
      expected.value = quantity.val.value * line.unitPrice.val.value ∧ Measure expected := by
  obtain ⟨hquantityGrid, hquantityLt⟩ := Decimal.fits_bound quantity.property
  obtain ⟨hpriceGrid, hpriceLt⟩ := Decimal.fits_bound line.unitPrice.property.2
  have hgrid := (hquantityGrid.mul hpriceGrid).mono (by norm_num : 6 + 2 ≤ 12)
  have hle : |quantity.val.value * line.unitPrice.val.value| ≤ 10 ^ 40 := by
    rw [abs_mul]
    calc |quantity.val.value| * |line.unitPrice.val.value|
        ≤ 10 ^ 18 / 10 ^ 6 * (10 ^ 18 / 10 ^ 2) :=
          mul_le_mul hquantityLt.le hpriceLt.le (abs_nonneg _) (by positivity)
      _ ≤ 10 ^ 40 := by norm_num
  obtain ⟨expected, hexpected, hvalue⟩ := Context.mul_exact (ε := Exn)
    (exact_of_grid hgrid (by norm_num) (hle.trans (by norm_num)))
  rw [← hvalue] at hgrid hle
  exact ⟨expected, hexpected, hvalue, hgrid, hle⟩

theorem lineTotal_computed (line : PurchaseOrderLine) (invoiceLine : Option InvoiceLineItem) :
    ∃ check, lineTotal policy line (invoiceLine.bind fun l => decimal? l.quantity)
        (invoiceLine.bind fun l => decimal? l.lineTotal) = .ok check ∧
      Comparison.Computed ⟨.lineTotal, some line.lineNumber, .equal,
        (invoiceLine.bind fun l => Control.number? l.quantity).map fun q =>
          q * line.unitPrice.val.value,
        invoiceLine.bind fun l => Control.number? l.lineTotal,
        policy.lineTotalAbsoluteTolerance, policy.lineTotalRelativeTolerance, false⟩ check := by
  have hactual := measure_decimal? (by norm_num) (by norm_num) invoiceLine
    InvoiceLineItem.lineTotal
  have hactualValue := map_decimal? invoiceLine InvoiceLineItem.lineTotal
  have hquantityValue := map_decimal? invoiceLine InvoiceLineItem.quantity
  rw [← hactualValue, ← hquantityValue]
  cases hquantity : invoiceLine.bind fun l => decimal? l.quantity with
  | none =>
    have hvalid : NumericCheckData.Valid ⟨.lineTotal, some line.lineNumber, .equal, none,
        invoiceLine.bind fun l => decimal? l.lineTotal, none, none, .unknown⟩ := fun _ => nofun
    exact ⟨_, newCheck_eq hvalid, ⟨rfl, rfl, rfl, by simp, by simp⟩, ⟨rfl, rfl⟩,
      fun _ => ⟨rfl, rfl⟩, fun _ => nofun, fun _ => nofun, fun _ _ _ => nofun⟩
  | some quantity =>
    obtain ⟨l, -, hl⟩ := Option.bind_eq_some_iff.mp hquantity
    obtain ⟨q, -, rfl⟩ := Option.map_eq_some_iff.mp hl
    obtain ⟨expected, hexpected, hvalue, hmeasure⟩ := price_quantity line q
    obtain ⟨check, hcheck, hdecides⟩ := numeric_computed .lineTotal (some line.lineNumber) .equal
      policy.lineTotalAbsoluteTolerance policy.lineTotalRelativeTolerance false hmeasure hactual
    rw [hvalue] at hdecides
    unfold lineTotal
    dsimp only
    rw [exact_mul, hexpected, ok_bind]
    exact ⟨check, hcheck, hdecides⟩

theorem lineNumbers_computed {totals : LineNumber → Option Decimal} {line : PurchaseOrderLine}
    {arrived : Decimal} (harrived : totals line.lineNumber = some arrived)
    (htotal : Total arrived (receivedOf snapshot line.lineNumber))
    (invoiceLine : Option InvoiceLineItem) :
    ∃ checks, lineNumbers policy totals line invoiceLine = .ok checks ∧
      List.Forall₂ Comparison.Computed (lineComparisons snapshot policy line invoiceLine)
        checks := by
  have hpriceMeasure : Measure line.unitPrice.val :=
    .of_fits line.unitPrice.property.2 (by norm_num) (by norm_num)
  have horderedMeasure : Measure line.quantity.val :=
    .of_fits line.quantity.property.2 (by norm_num) (by norm_num)
  have harrivedMeasure : ∀ d ∈ some arrived, Measure d := by
    intro d hd
    rw [← Option.some.inj hd]
    exact htotal.measure
  have hunitPrice := measure_decimal? (by norm_num) (by norm_num) invoiceLine
    InvoiceLineItem.unitPrice
  have hquantity := measure_decimal? (by norm_num) (by norm_num) invoiceLine
    InvoiceLineItem.quantity
  obtain ⟨price, hprice, hpriceDecides⟩ := numeric_computed .unitPrice (some line.lineNumber) .equal
    policy.priceAbsoluteTolerance policy.priceRelativeTolerance false hpriceMeasure hunitPrice
  obtain ⟨ordered, hordered, horderedDecides⟩ := numeric_computed .quantityOrdered
    (some line.lineNumber) .atMost policy.quantityAbsoluteTolerance noTolerance true
    horderedMeasure hquantity
  obtain ⟨received, hreceived, hreceivedDecides⟩ := numeric_computed .quantityReceived
    (some line.lineNumber) .atMost policy.quantityAbsoluteTolerance noTolerance true
    htotal.measure hquantity
  obtain ⟨receipt, hreceipt, hreceiptDecides⟩ := numeric_computed .receiptVsOrder
    (some line.lineNumber) .atMost policy.quantityAbsoluteTolerance noTolerance false
    horderedMeasure harrivedMeasure
  obtain ⟨total, htotalCheck, htotalDecides⟩ := lineTotal_computed policy line invoiceLine
  rw [noTolerance_val] at hordered hreceived hreceipt
  rw [map_decimal? invoiceLine InvoiceLineItem.unitPrice] at hpriceDecides
  rw [map_decimal? invoiceLine InvoiceLineItem.quantity] at horderedDecides hreceivedDecides
  rw [htotal.value] at hreceivedDecides
  rw [Option.map_some, htotal.value] at hreceiptDecides
  have hget : Match.total totals line.lineNumber = .ok arrived := by rw [Match.total, harrived]
  unfold lineNumbers
  dsimp only
  rw [hprice, ok_bind, hordered, ok_bind, hget, ok_bind, hreceived, ok_bind, hreceipt, ok_bind,
    htotalCheck, ok_bind]
  exact ⟨_, rfl, .cons hpriceDecides (.cons horderedDecides (.cons hreceivedDecides
    (.cons hreceiptDecides (.cons htotalDecides .nil))))⟩

/-- The invoice line of a purchase order line is the one at its position. -/
theorem invoiceLine_eq (h : snapshot.Valid) {line : PurchaseOrderLine × ℕ}
    (hline : line ∈ snapshot.poLines.zipIdx) :
    invoiceLine extraction line.1 = extraction.lineItems.val[line.2]? := by
  have hget := List.mem_zipIdx_iff_getElem?.mp hline
  have hnumber : line.1.lineNumber.val = 1 + line.2 := by
    have hmap : (snapshot.poLines.map fun l => l.lineNumber.val)[line.2]? =
        some line.1.lineNumber.val := by
      rw [List.getElem?_map, hget]
      rfl
    rw [h.numbers] at hmap
    obtain ⟨hlt, heq⟩ := List.getElem?_eq_some_iff.mp hmap
    rw [List.getElem_range'] at heq
    omega
  rw [invoiceLine, hnumber, Nat.add_sub_cancel_left]

theorem numericChecks_computed (extraction : InvoiceExtraction) (h : snapshot.Valid) :
    ∃ checks, numericChecks extraction snapshot policy = .ok checks ∧
      List.Forall₂ Comparison.Computed (comparisons extraction snapshot policy) checks := by
  obtain ⟨totals, htotals, hreceived⟩ := received_total h
  obtain ⟨value, hvalue, hvalueEq, hmeasure⟩ := receivedValue_eq hreceived
  obtain ⟨header, hheader, hheaderDecide⟩ :=
    headerNumbers_computed policy extraction hvalueEq hmeasure
  obtain ⟨lines, hlines, hlinesDecide⟩ : ∃ lines, (snapshot.poLines.mapM fun line =>
      lineNumbers policy totals line (invoiceLine extraction line)) = Except.ok lines ∧
      List.Forall₂ (fun line checks => List.Forall₂ Comparison.Computed
        (lineComparisons snapshot policy line (invoiceLine extraction line)) checks)
        snapshot.poLines lines := by
    refine mapM_forall₂ fun line hline => ?_
    obtain ⟨arrived, harrived, htotal⟩ := hreceived line hline
    exact lineNumbers_computed policy harrived htotal (invoiceLine extraction line)
  have hpositions : (snapshot.poLines.zipIdx.flatMap fun line =>
      lineComparisons snapshot policy line.1 extraction.lineItems.val[line.2]?) =
      snapshot.poLines.flatMap fun line =>
        lineComparisons snapshot policy line (invoiceLine extraction line) := by
    rw [List.flatMap_def, List.flatMap_def]
    congr 1
    calc snapshot.poLines.zipIdx.map (fun line =>
          lineComparisons snapshot policy line.1 extraction.lineItems.val[line.2]?)
        = snapshot.poLines.zipIdx.map fun line =>
          lineComparisons snapshot policy line.1 (invoiceLine extraction line.1) :=
          List.map_congr_left fun line hline => by rw [invoiceLine_eq h hline]
      _ = snapshot.poLines.map fun line =>
          lineComparisons snapshot policy line (invoiceLine extraction line) := by
          conv_rhs => rw [← List.zipIdx_map_fst 0 snapshot.poLines, List.map_map]
          rfl
  unfold numericChecks
  rw [htotals, ok_bind, hvalue, ok_bind, hheader, ok_bind, hlines, ok_bind]
  refine ⟨_, rfl, ?_⟩
  unfold comparisons
  rw [hpositions]
  refine List.rel_append hheaderDecide ?_
  rw [List.flatMap_def]
  refine List.rel_flatten ?_
  exact List.forall₂_map_left_iff.mpr hlinesDecide

end

/-! ## Tolerances -/

end Match

namespace MatchConfig

variable (config : MatchConfig)

/-- The absolute tolerances of a configuration. -/
def absolutes : List AbsoluteTolerance :=
  [config.priceAbsoluteTolerance, config.quantityAbsoluteTolerance,
    config.lineTotalAbsoluteTolerance, config.amountAbsoluteTolerance]

/-- The relative tolerances of a configuration. -/
def relatives : List RelativeTolerance :=
  [config.priceRelativeTolerance, config.lineTotalRelativeTolerance,
    config.amountRelativeTolerance]

/-- The tolerances have short texts. -/
structure Plain : Prop where
  absolute : ∀ t ∈ config.absolutes, Match.Compact t.val
  relative : ∀ t ∈ config.relatives, Grid 6 t.val.value

theorem plain_default : default.Plain := by
  have hcent : Match.Compact cent.val := ⟨by decide, by decide, by decide +kernel⟩
  have hzero : Match.Compact .zero := ⟨by decide, by decide, by decide +kernel⟩
  have hhalf : Grid 6 halfPercent.val.value := ⟨5000, by decide +kernel⟩
  refine ⟨?_, ?_⟩
  · simp only [absolutes, default, List.forall_mem_cons]
    exact ⟨hcent, hzero, hcent, hcent, by simp⟩
  · simp only [relatives, default, List.forall_mem_cons]
    exact ⟨hhalf, hhalf, hhalf, by simp⟩

end MatchConfig

namespace Match

theorem comparisons_tolerances {extraction : InvoiceExtraction} {snapshot : ERPSnapshotData}
    {config : MatchConfig} : ∀ c ∈ comparisons extraction snapshot config,
      c.absolute ∈ config.absolutes ∧
        (c.relative ∈ config.relatives ∨ c.relative = noTolerance) := by
  intro c hc
  rcases List.mem_append.mp hc with hc | hc
  · have hheader : ∀ c ∈ headerComparisons extraction snapshot config,
        c.absolute = config.amountAbsoluteTolerance ∧
          c.relative = config.amountRelativeTolerance := by
      simp [headerComparisons]
    obtain ⟨habsolute, hrelative⟩ := hheader c hc
    rw [habsolute, hrelative]
    exact ⟨by simp [MatchConfig.absolutes], .inl (by simp [MatchConfig.relatives])⟩
  · obtain ⟨line, -, hc⟩ := List.mem_flatMap.mp hc
    simp only [lineComparisons, List.mem_cons, List.not_mem_nil, or_false] at hc
    rcases hc with rfl | rfl | rfl | rfl | rfl <;>
      simp [MatchConfig.absolutes, MatchConfig.relatives]

/-! ## The identities -/

theorem identity_decides (host : Host) (field : IdentityField) (expected : String)
    (actual : Option String) (lineNumber : Option LineNumber) :
    IdentityComparison.Decides host ⟨field, lineNumber, expected, actual⟩
      (identity host field expected actual lineNumber) := by
  refine ⟨rfl, rfl, rfl, rfl, ?_, ?_⟩
  · cases actual with
    | none => simp [identity]
    | some s =>
      simp only [identity, Option.mem_def, Option.some.injEq, forall_eq']
      split_ifs <;> simp_all
  · cases actual with
    | none => simp [identity]
    | some s =>
      simp only [identity, Option.mem_def, Option.some.injEq, exists_eq_left']
      split_ifs <;> simp_all

theorem identities_decide (host : Host) (extraction : InvoiceExtraction)
    {snapshot : ERPSnapshotData} (h : snapshot.Valid) :
    List.Forall₂ (IdentityComparison.Decides host) (identityComparisons extraction snapshot)
      (headerIdentities host extraction snapshot ++
        snapshot.poLines.map (lineIdentity host extraction)) := by
  have hlines : snapshot.poLines.map (lineIdentity host extraction) =
      snapshot.poLines.zipIdx.map fun line => identity host .description line.1.description.val
        (extraction.lineItems.val[line.2]?.bind fun l => text? l.description)
        (some line.1.lineNumber) := by
    conv_lhs => rw [← List.zipIdx_map_fst 0 snapshot.poLines, List.map_map]
    refine List.map_congr_left fun line hline => ?_
    rw [Function.comp_apply, lineIdentity, invoiceLine_eq h hline]
  unfold identityComparisons headerIdentities
  rw [hlines]
  refine List.rel_append ?_ ?_
  · exact .cons (identity_decides ..) (.cons (identity_decides ..) (.cons (identity_decides ..)
      (.cons (identity_decides ..) .nil)))
  · rw [List.forall₂_map_left_iff, List.forall₂_map_right_iff, List.forall₂_same]
    exact fun line _ => identity_decides ..

/-! ## The number of lines -/

theorem toLower_digit {c : Char} (h : c.isDigit) : c.toLower = c := by
  have hle := (digit_bounds h).2
  have hnot : ¬('A' ≤ c ∧ c ≤ 'Z') := fun hupper =>
    absurd (hupper.1.trans hle) (by decide)
  exact dif_neg hnot

theorem toList_toString (n : ℕ) : (toString n).toList = Nat.toDigits 10 n :=
  String.toList_ofList

theorem isDigit_toString {n : ℕ} {c : Char} (h : c ∈ (toString n).toList) : c.isDigit := by
  rw [toList_toString] at h
  exact Decimal.isDigit_toDigits h

/-- The digits of a number are not changed. -/
theorem text_toString (host : Host) (n : ℕ) : host.text (toString n) = toString n := by
  have hascii : isAscii (toString n) := by
    rw [isAscii, List.all_eq_true]
    intro c hc
    have hle : c.toNat ≤ 57 := UInt32.le_iff_toNat_le.mp (digit_bounds (isDigit_toString hc)).2
    exact decide_eq_true (by omega)
  have hlower : host.casefold (toString n) = toString n := by
    have hmap : (toString n).toList.map Char.toLower = (toString n).toList :=
      (List.map_congr_left fun c hc => toLower_digit (isDigit_toString hc)).trans (List.map_id _)
    rw [host.casefold_ascii _ hascii, hmap, String.ofList_toList]
  have hspace : ∀ c ∈ (toString n).toList, isPythonSpace c = false :=
    fun c hc => digit_not_space (isDigit_toString hc)
  have hne : (toString n).toList ≠ [] := by
    rw [toList_toString]
    exact Nat.toDigits_ne_nil
  have hwords : [(toString n).toList].filter (· ≠ []) = [(toString n).toList] :=
    List.filter_cons_of_pos (decide_eq_true hne)
  unfold Host.text
  dsimp only
  rw [host.nfkc_ascii _ hascii, hlower, List.splitOnP_eq_singleton hspace, hwords,
    List.map_singleton, String.intercalate_singleton, String.ofList_toList]

theorem toString_injective {m n : ℕ} (h : toString m = toString n) : m = n := by
  have hdigits := congrArg String.toList h
  rw [toList_toString, toList_toString] at hdigits
  have hvalue := congrArg (Nat.ofDigitChars 10 · 0) hdigits
  simpa only [Nat.ofDigitChars_ten_toDigits] using hvalue

theorem text_injective (host : Host) {m n : ℕ}
    (h : host.text (toString m) = host.text (toString n)) : m = n := by
  rw [text_toString, text_toString] at h
  exact toString_injective h

theorem notBlank_toString (n : ℕ) : isBlank (toString n) = false := by
  rw [isBlank, List.all_eq_false, toList_toString]
  obtain ⟨c, hc⟩ := List.exists_mem_of_ne_nil _ (Nat.toDigits_ne_nil (n := n) (b := 10))
  refine ⟨c, hc, ?_⟩
  rw [digit_not_space (Decimal.isDigit_toDigits hc)]
  exact Bool.false_ne_true

theorem lineCount_mismatch (host : Host) {m n : ℕ} (h : m ≠ n) :
    (identity host .lineCount (toString n) (some (toString m))).status = .mismatch := by
  have hne : host.text (toString n) ≠ host.text (toString m) :=
    fun heq => h (text_injective host heq).symm
  unfold identity
  dsimp only
  rw [if_neg (by rw [notBlank_toString]; exact Bool.false_ne_true), if_neg hne]

theorem length_comparisons (extraction : InvoiceExtraction) (snapshot : ERPSnapshotData)
    (policy : MatchConfig) :
    (comparisons extraction snapshot policy).length = 3 + 5 * snapshot.poLines.length := by
  have hlines : ∀ line ∈ snapshot.poLines.zipIdx,
      (lineComparisons snapshot policy line.1 extraction.lineItems.val[line.2]?).length = 5 :=
    fun _ _ => rfl
  have hsum : (snapshot.poLines.zipIdx.flatMap fun line =>
      lineComparisons snapshot policy line.1 extraction.lineItems.val[line.2]?).length =
        snapshot.poLines.length * 5 := by
    rw [List.length_flatMap, List.map_congr_left hlines, List.map_const', List.sum_replicate,
      List.length_zipIdx, nsmul_eq_mul, Nat.cast_id]
  rw [comparisons, List.length_append, hsum, mul_comm]
  rfl

theorem length_identityComparisons (extraction : InvoiceExtraction) (snapshot : ERPSnapshotData) :
    (identityComparisons extraction snapshot).length = 4 + snapshot.poLines.length := by
  rw [identityComparisons, List.length_append, List.length_map, List.length_zipIdx]
  rfl

section

variable (host : Host) (extraction : InvoiceExtraction) (snapshot : ERPSnapshot)
  (policy : MatchConfig) (identity : List IdentityCheck) (numeric : List NumericCheck)

theorem withSnapshot_valid :
    (withSnapshot host extraction snapshot policy identity numeric).Valid := by
  refine ⟨rfl, ?_⟩
  simp only [withSnapshot, MatchResultData.statuses, Bool.true_eq_false, false_or]

/-- The status is that of the checks. -/
theorem status_withSnapshot :
    let result := withSnapshot host extraction snapshot policy identity numeric
    (result.status = .fail ↔ .mismatch ∈ result.statuses) ∧
      (result.status = .incomplete ↔
        .mismatch ∉ result.statuses ∧ .unknown ∈ result.statuses) ∧
      (result.status = .pass ↔ ∀ s ∈ result.statuses, s = .match) := by
  intro result
  have hstatus : result.status = if .mismatch ∈ result.statuses then .fail
      else if .unknown ∈ result.statuses then .incomplete else .pass := rfl
  have hall : (∀ s ∈ result.statuses, s = .match) ↔
      .mismatch ∉ result.statuses ∧ .unknown ∉ result.statuses := by
    constructor
    · intro h
      exact ⟨fun hmem => absurd (h _ hmem) (by decide), fun hmem => absurd (h _ hmem) (by decide)⟩
    · rintro ⟨hmismatch, hunknown⟩ s hs
      cases s with
      | «match» => rfl
      | mismatch => exact absurd hs hmismatch
      | unknown => exact absurd hs hunknown
  rw [hall, hstatus]
  split_ifs with hmismatch hunknown <;> simp_all

end

end Match

theorem matchInvoice_none (host : Host) {request : MatchRequest} (config : Option MatchConfig)
    (h : request.snapshot = none) :
    ∃ hvalid, matchInvoice host request config =
      .ok ⟨Match.withoutSnapshot host request.extraction (config.getD .default), hvalid⟩ := by
  have hvalid : (Match.withoutSnapshot host request.extraction (config.getD .default)).Valid :=
    ⟨rfl, rfl⟩
  unfold matchInvoice
  rw [h]
  exact ⟨hvalid, construct_eq hvalid⟩

/-- A request with a snapshot has the checks of its comparisons. -/
theorem matchInvoice_some (host : Host) {request : MatchRequest} {snapshot : ERPSnapshot}
    (config : Option MatchConfig) (h : request.snapshot = some snapshot) :
    ∃ numeric hvalid,
      Match.numericChecks request.extraction snapshot.val (config.getD .default) = .ok numeric ∧
      List.Forall₂ Match.Comparison.Computed
        (Match.comparisons request.extraction snapshot.val (config.getD .default)) numeric ∧
      matchInvoice host request config = .ok ⟨Match.withSnapshot host request.extraction snapshot
        (config.getD .default) (Match.headerIdentities host request.extraction snapshot.val ++
          snapshot.val.poLines.map (Match.lineIdentity host request.extraction)) numeric,
        hvalid⟩ := by
  obtain ⟨numeric, hnumeric, hdecide⟩ :=
    Match.numericChecks_computed (config.getD .default) request.extraction snapshot.property
  refine ⟨numeric, Match.withSnapshot_valid .., hnumeric, hdecide, ?_⟩
  unfold matchInvoice
  rw [h]
  dsimp only
  rw [hnumeric, ok_bind]
  exact construct_eq (Match.withSnapshot_valid ..)

/-- A request is always answered. Without a snapshot there is nothing to compare ; with one, every
check is that of its comparison, in order, and the status is that of the checks. -/
theorem match_invoice_exact (host : Host) (request : MatchRequest) (config : Option MatchConfig) :
    ∃ result, matchInvoice host request config = .ok result ∧
      (request.snapshot = none →
        result.val.status = .incomplete ∧ result.val.identityChecks = [] ∧
          result.val.numericChecks = []) ∧
      ∀ snapshot, request.snapshot = some snapshot →
        let lines := snapshot.val.poLines
        result.val.identityChecks.length = 4 + lines.length ∧
        result.val.numericChecks.length = 3 + 5 * lines.length ∧
        List.Forall₂ (Match.IdentityComparison.Decides host)
          (Match.identityComparisons request.extraction snapshot.val) result.val.identityChecks ∧
        List.Forall₂ Match.Comparison.Decides
          (Match.comparisons request.extraction snapshot.val (config.getD .default))
          result.val.numericChecks ∧
        (result.val.status = .fail ↔ .mismatch ∈ result.val.statuses) ∧
        (result.val.status = .incomplete ↔
          .mismatch ∉ result.val.statuses ∧ .unknown ∈ result.val.statuses) ∧
        (result.val.status = .pass ↔ ∀ s ∈ result.val.statuses, s = .match) ∧
        (request.extraction.lineItems.val.length ≠ lines.length → result.val.status ≠ .pass) := by
  cases hrequest : request.snapshot with
  | none =>
    obtain ⟨hvalid, hresult⟩ := matchInvoice_none host config hrequest
    exact ⟨_, hresult, fun _ => ⟨rfl, rfl, rfl⟩, by simp⟩
  | some snapshot =>
    obtain ⟨numeric, hvalid, hnumeric, hdecide, hresult⟩ :=
      matchInvoice_some host config hrequest
    have hidentities := Match.identities_decide host request.extraction snapshot.property
    refine ⟨_, hresult, by simp, fun s hs => ?_⟩
    obtain rfl := Option.some.inj hs
    obtain ⟨hfail, hincomplete, hpass⟩ := Match.status_withSnapshot host request.extraction
      snapshot (config.getD .default) (Match.headerIdentities host request.extraction
        snapshot.val ++
        snapshot.val.poLines.map (Match.lineIdentity host request.extraction)) numeric
    refine ⟨?_, ?_, hidentities, hdecide.imp fun _ _ h => h.decides, hfail, hincomplete, hpass,
      fun hlength hstatus => ?_⟩
    · exact hidentities.length_eq.symm.trans (Match.length_identityComparisons ..)
    · exact hdecide.length_eq.symm.trans (Match.length_comparisons ..)
    · have hmismatch := Match.lineCount_mismatch host hlength
      have hmem := hpass.mp hstatus _ (List.mem_append_left _ (List.mem_map_of_mem
        (List.mem_append_left _ (List.mem_cons_of_mem _ (List.mem_cons_of_mem _
          (List.mem_cons_of_mem _ List.mem_cons_self))))))
      rw [hmismatch] at hmem
      exact absurd hmem (by decide)

end InvoiceOps
