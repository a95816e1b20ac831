import InvoiceOps.Receipts

/-!
# Money arithmetic is exact

The bodies of `validateInvoice` and `matchInvoice` take their arithmetic as a parameter. Any
arithmetic that agrees with the exact context where it is exact gives the same results, among them
the one that refuses what is not exact (`Context.checked`) : so no operation rounds but to the
currency's decimals, and none is trapped (`money_arithmetic_exact`).

`Comparison.measurement` is a numeric check as it is on the rationals.
-/

open Decimal (Arithmetic Context Grid)

namespace InvoiceOps

theorem mapM_congr_mem {α β : Type} {f g : α → Except Exn β} {l : List α}
    (h : ∀ a ∈ l, f a = g a) : l.mapM f = l.mapM g := by
  induction l with
  | nil => rfl
  | cons a l ih =>
    rw [List.mapM_cons, List.mapM_cons, h a List.mem_cons_self,
      ih fun b hb => h b (List.mem_cons_of_mem a hb)]

section

variable {A : Arithmetic Exn}

/-! ## Validation -/

namespace Validate

theorem compare_eq (hA : A.Faithful exactContext) (code : IssueCode) (field : String)
    {expected actual : Decimal} (tolerance : Decimal) (lineNumber : Option ℕ)
    (hexpected : Result expected) (hactual : Operand actual) :
    @compare A code field expected actual tolerance lineNumber =
      @compare exactArithmetic code field expected actual tolerance lineNumber := by
  obtain ⟨d, s, hd, hdv, hs, hsv⟩ := difference_exact hexpected hactual
  unfold compare
  rw [hA.sub hd hdv, ok_bind, hA.abs hs hsv, ok_bind, exact_sub, hd, ok_bind, exact_abs, hs,
    ok_bind]

theorem lineMath_eq (hA : A.Faithful exactContext) (rule : CurrencyRule)
    {quantity price net : Option Decimal} (number : ℕ) (hquantity : ∀ d ∈ quantity, Operand d)
    (hprice : ∀ d ∈ price, Operand d) (hnet : ∀ d ∈ net, Operand d) :
    @lineMath A rule quantity price net number =
      @lineMath exactArithmetic rule quantity price net number := by
  cases quantity with
  | none => rfl
  | some q =>
    cases price with
    | none => rfl
    | some p =>
      cases net with
      | none => rfl
      | some n =>
        obtain ⟨product, expected, hproduct, hproductValue, hexpected, hvalue, hgrid,
          hnonneg, hle⟩ :=
          quantize_product (hquantity q rfl) (hprice p rfl) rule
        rw [← hproductValue] at hvalue
        have hresult : Result expected := ⟨hgrid, hnonneg, hle.trans (by norm_num)⟩
        unfold lineMath
        dsimp only
        rw [hA.mul hproduct hproductValue, ok_bind, hA.quantize hexpected hvalue, ok_bind,
          exact_mul, hproduct, ok_bind, exact_quantize, hexpected, ok_bind,
          compare_eq hA _ _ _ _ hresult (hnet n rfl)]

theorem lineTax_eq (hA : A.Faithful exactContext) (rule : CurrencyRule)
    {net rate : Option Decimal} (hnet : ∀ d ∈ net, Operand d) (hrate : ∀ d ∈ rate, Operand d) :
    @lineTax A rule net rate = @lineTax exactArithmetic rule net rate := by
  cases net with
  | none => rfl
  | some n =>
    cases rate with
    | none => rfl
    | some r =>
      obtain ⟨product, tax, hproduct, hproductValue, htax, hvalue, -⟩ :=
        quantize_product (hnet n rfl) (hrate r rfl) rule
      rw [← hproductValue] at hvalue
      unfold lineTax
      dsimp only
      rw [hA.mul hproduct hproductValue, ok_bind, hA.quantize htax hvalue, ok_bind, exact_mul,
        hproduct, ok_bind, exact_quantize, htax, ok_bind]

theorem lineValues_eq (hA : A.Faithful exactContext) (rule : Option CurrencyRule)
    (line : InvoiceLineItem) {number : ℕ} (hline : IsLine (some number)) :
    @lineValues A rule line number = @lineValues exactArithmetic rule line number := by
  cases rule with
  | none => rfl
  | some rule =>
    obtain ⟨badPrice, price, hprice, -, -, hpriceOp⟩ :=
      operand_finds .negativeValue "unit_price" (· < 0) (decimal? line.unitPrice) (by decide) hline
        fun d hd h => operand_of_decimal? (by norm_num) (by norm_num) hd (not_lt.mp h)
    obtain ⟨badNet, net, hnet, -, -, hnetOp⟩ :=
      operand_finds .negativeValue "line_total" (· < 0) (decimal? line.lineTotal) (by decide) hline
        fun d hd h => operand_of_decimal? (by norm_num) (by norm_num) hd (not_lt.mp h)
    obtain ⟨badQuantity, quantity, hquantity, -, -, hquantityOp⟩ :=
      operand_finds .nonpositiveQuantity "quantity" (· ≤ 0) (decimal? line.quantity) (by decide)
        hline
        fun d hd h => operand_of_decimal? (by norm_num) (by norm_num) hd (not_le.mp h).le
    obtain ⟨badRate, rate, hrate, -, -, hrateOp⟩ :=
      operand_finds .taxRateOutOfRange "tax_rate" (fun r => ¬(0 ≤ r ∧ r ≤ 1))
        (decimal? line.taxRate) (by decide) hline
        fun d hd h => operand_of_decimal? (by norm_num) (by norm_num) hd (not_not.mp h).1
    unfold lineValues nonnegative
    simp only [hprice, hnet, hquantity, hrate, ok_bind,
      lineMath_eq hA rule number hquantityOp hpriceOp hnetOp, lineTax_eq hA rule hnetOp hrateOp]

theorem completeSum_eq (hA : A.Faithful exactContext) {values : List (Option Decimal)}
    (hlen : values.length ≤ 500)
    (h : ∀ v ∈ values, ∀ x ∈ v, Grid 6 x.value ∧ 0 ≤ x.value ∧ x.value ≤ 10 ^ 28 + 1) :
    @completeSum A values = @completeSum exactArithmetic values := by
  have hmem : ∀ d ∈ values.filterMap id,
      Grid 6 d.value ∧ 0 ≤ d.value ∧ d.value ≤ 10 ^ 28 + 1 := by
    intro d hd
    obtain ⟨v, hv, hvd⟩ := List.mem_filterMap.mp hd
    exact h v hv d hvd
  have hlength := (List.length_filterMap_le id values).trans hlen
  obtain ⟨sum, hsum, -⟩ := sum_amounts (by norm_num) (by norm_num) hlength hmem
  have hexact := hA.sum (fun l hl => prefix_exact (by norm_num) (by norm_num) hlength hmem hl) hsum
  unfold completeSum
  split_ifs
  · rfl
  · rw [hexact, exact_sum, hsum]

theorem compareSome_eq (hA : A.Faithful exactContext) (code : IssueCode) (field : String)
    {expected actual : Option Decimal} (tolerance : Decimal)
    (hexpected : ∀ d ∈ expected, Result d) (hactual : ∀ d ∈ actual, Operand d) :
    @compareSome A code field expected actual tolerance =
      @compareSome exactArithmetic code field expected actual tolerance := by
  cases expected with
  | none => rfl
  | some x =>
    cases actual with
    | none => rfl
    | some y => exact compare_eq hA code field tolerance none (hexpected x rfl) (hactual y rfl)

theorem netPlusTax_eq (hA : A.Faithful exactContext) {subtotal tax : Option Decimal}
    (hsubtotal : ∀ d ∈ subtotal, Operand d) (htax : ∀ d ∈ tax, Operand d) :
    @netPlusTax A subtotal tax = @netPlusTax exactArithmetic subtotal tax := by
  cases subtotal with
  | none => rfl
  | some s =>
    cases tax with
    | none => rfl
    | some t =>
      obtain ⟨sum, hsum, hvalue, -⟩ := add_operands (hsubtotal s rfl) (htax t rfl)
      unfold netPlusTax
      dsimp only
      rw [hA.add hsum hvalue, ok_bind, exact_add, hsum, ok_bind]

theorem totals_eq (hA : A.Faithful exactContext) (rule : CurrencyRule)
    {nets taxes : List (Option Decimal)} {subtotal tax total : Option Decimal}
    (hnetsLen : nets.length ≤ 500) (htaxesLen : taxes.length ≤ 500)
    (hnets : ∀ v ∈ nets, ∀ x ∈ v, Grid 6 x.value ∧ 0 ≤ x.value ∧ x.value ≤ 10 ^ 28 + 1)
    (htaxes : ∀ v ∈ taxes, ∀ x ∈ v, Grid 6 x.value ∧ 0 ≤ x.value ∧ x.value ≤ 10 ^ 28 + 1)
    (hsubtotal : ∀ x ∈ subtotal, Operand x) (htax : ∀ x ∈ tax, Operand x)
    (htotal : ∀ x ∈ total, Operand x) :
    @totals A rule nets taxes subtotal tax total =
      @totals exactArithmetic rule nets taxes subtotal tax total := by
  obtain ⟨netSum, hnetSum, -, hnetResult⟩ := completeSum_yields hnetsLen hnets
  obtain ⟨taxSum, htaxSum, -, htaxResult⟩ := completeSum_yields htaxesLen htaxes
  obtain ⟨expected, hexpected, -, hexpectedResult⟩ := netPlusTax_yields hsubtotal htax
  unfold totals
  simp only [completeSum_eq hA hnetsLen hnets, completeSum_eq hA htaxesLen htaxes,
    netPlusTax_eq hA hsubtotal htax, hnetSum, htaxSum, hexpected, ok_bind,
    compareSome_eq hA _ _ _ hnetResult hsubtotal, compareSome_eq hA _ _ _ htaxResult htax,
    compareSome_eq hA _ _ _ hexpectedResult htotal]

/-- Validation is the same under any arithmetic that is exact where the context is. -/
theorem validate_eq (hA : A.Faithful exactContext) (extraction : InvoiceExtraction)
    (config : ValidationConfig) :
    @validate A extraction config = @validate exactArithmetic extraction config := by
  have hline : IsLine none := fun _ => nofun
  obtain ⟨badSubtotal, subtotal, hsubtotal, -, -, hsubtotalOp⟩ :=
    operand_finds .negativeValue "subtotal" (· < 0) (decimal? extraction.subtotal) (by decide)
      hline fun d hd h => operand_of_decimal? (by norm_num) (by norm_num) hd (not_lt.mp h)
  obtain ⟨badTax, tax, htax, -, -, htaxOp⟩ :=
    operand_finds .negativeValue "tax_amount" (· < 0) (decimal? extraction.taxAmount) (by decide)
      hline fun d hd h => operand_of_decimal? (by norm_num) (by norm_num) hd (not_lt.mp h)
  obtain ⟨badTotal, total, htotal, -, -, htotalOp⟩ :=
    operand_finds .negativeValue "total_amount" (· < 0) (decimal? extraction.totalAmount)
      (by decide) hline
      fun d hd h => operand_of_decimal? (by norm_num) (by norm_num) hd (not_lt.mp h)
  obtain ⟨values, hvalues, hlines⟩ :=
    lines_find (rule? extraction config) extraction.lineItems.property
  have hbounds := bounds_of_lines hlines
  have hlength : values.length ≤ 500 := by
    rw [← hlines.length_eq, List.length_zipIdx]
    exact extraction.lineItems.property
  have hmapM : (extraction.lineItems.val.zipIdx 1).mapM (fun line =>
      @lineValues A (rule? extraction config) line.1 line.2) = .ok values := by
    rw [← hvalues]
    exact mapM_congr_mem fun line hmem =>
      lineValues_eq hA _ _ (zipIdx_isLine extraction.lineItems.property hmem)
  unfold validate nonnegative
  simp only [hsubtotal, htax, htotal, hmapM, hvalues, ok_bind]
  cases rule? extraction config with
  | none => rfl
  | some rule =>
    simp only [totals_eq hA rule ((List.length_map _).trans_le hlength)
      ((List.length_map _).trans_le hlength) hbounds.1 hbounds.2 hsubtotalOp htaxOp htotalOp]

end Validate

/-! ## Matching -/

namespace Match

theorem within_faithful (hA : A.Faithful exactContext) {rule : MatchRule}
    {difference : Decimal} (tolerance : Decimal) (h : exactContext.Exact |difference.value|) :
    @within A rule difference tolerance = @within exactArithmetic rule difference tolerance := by
  cases rule with
  | equal =>
    obtain ⟨size, hsize, hvalue⟩ := Context.abs_exact (ε := Exn) h
    unfold within
    dsimp only
    rw [hA.abs hsize hvalue, exact_abs, hsize]
  | atMost => rfl

theorem numeric_eq (hA : A.Faithful exactContext) (field : NumericField)
    (lineNumber : Option LineNumber) (rule : MatchRule) {expected : Decimal}
    {actual : Option Decimal} (absolute : Decimal) {relative : RelativeTolerance} (positive : Bool)
    (hexpected : Measure expected) (hactual : ∀ d ∈ actual, Measure d)
    (hplaces : Grid 6 relative.val.value) :
    @numeric A field lineNumber rule expected actual absolute relative.val positive =
      @numeric exactArithmetic field lineNumber rule expected actual absolute relative.val
        positive := by
  cases actual with
  | none => rfl
  | some actual =>
    obtain ⟨size, difference, hsize, hsizeValue, hsizeGrid, hsizeLe, hdifference, hvalue, -,
      hwithin⟩ := numeric_operations hexpected (hactual actual rfl)
    obtain ⟨product, hproduct, hproductValue, -⟩ :=
      relative_exact hsizeGrid hsizeLe relative.property hplaces
    unfold numeric
    dsimp only
    rw [hA.abs hsize hsizeValue, ok_bind, hA.mul hproduct hproductValue, ok_bind,
      hA.sub hdifference hvalue, ok_bind, within_faithful hA _ hwithin, exact_abs, hsize, ok_bind,
      exact_mul, hproduct, ok_bind, exact_sub, hdifference, ok_bind]

theorem foldlM_addLine_eq (hA : A.Faithful exactContext) (numbers : List LineNumber) :
    ∀ {lines : List ReceiptLine} (totals : LineNumber → Option Decimal) (sums : LineNumber → ℚ),
    Totals numbers lines totals sums →
    lines.foldlM (@addLine A) totals = lines.foldlM (@addLine exactArithmetic) totals := by
  intro lines
  induction lines with
  | nil => exact fun _ _ _ => rfl
  | cons line lines ih =>
    intro totals sums h
    obtain ⟨d, d', hd, hadd, hvalue, hstep⟩ := h.step
    rw [List.foldlM_cons, List.foldlM_cons, @addLine_eq _ _ _ _ A hd (hA.add hadd hvalue), ok_bind,
      @addLine_eq _ _ _ _ exactArithmetic hd hadd, ok_bind, ih _ _ hstep]

theorem received_eq (hA : A.Faithful exactContext) {snapshot : ERPSnapshotData}
    (h : snapshot.Valid) : @received A snapshot = @received exactArithmetic snapshot :=
  foldlM_addLine_eq hA _ _ _ (totals_start h)

/-- What was received of a line, at its price. -/
theorem price_eq (hA : A.Faithful exactContext) {snapshot : ERPSnapshotData}
    {totals : LineNumber → Option Decimal} {line : PurchaseOrderLine}
    (h : ∃ d, totals line.lineNumber = some d ∧ Total d (receivedOf snapshot line.lineNumber)) :
    (do
      let quantity ← total totals line.lineNumber
      A.mul quantity line.unitPrice.val) =
      (do
        let quantity ← total totals line.lineNumber
        exactArithmetic.mul quantity line.unitPrice.val) := by
  obtain ⟨d, hd, htotal⟩ := h
  obtain ⟨v, hv, hvalue, -⟩ := price_received htotal
  have hget : total totals line.lineNumber = .ok d := by rw [total, hd]
  rw [← htotal.value] at hvalue
  rw [hget, ok_bind, ok_bind, hA.mul hv hvalue, exact_mul, hv]

theorem receivedValue_faithful (hA : A.Faithful exactContext) {snapshot : ERPSnapshotData}
    {totals : LineNumber → Option Decimal} (h : ∀ line ∈ snapshot.poLines,
      ∃ d, totals line.lineNumber = some d ∧ Total d (receivedOf snapshot line.lineNumber)) :
    @receivedValue A totals snapshot.poLines =
      @receivedValue exactArithmetic totals snapshot.poLines := by
  obtain ⟨values, hvalues, hlength, hmem, -⟩ := @prices_received snapshot totals h
  obtain ⟨sum, hsum, -⟩ := sum_amounts (by norm_num) (by norm_num) hlength hmem
  have hexact := hA.sum (fun l hl => prefix_exact (by norm_num) (by norm_num) hlength hmem hl) hsum
  have hsame := (mapM_congr_mem fun line hline => price_eq hA (h line hline)).trans hvalues
  unfold receivedValue
  rw [hsame, hvalues, ok_bind, ok_bind, hexact, exact_sum, hsum]

section

variable {policy : MatchConfig} (hpolicy : policy.Plain)

include hpolicy

theorem headerNumbers_eq (hA : A.Faithful exactContext) (extraction : InvoiceExtraction)
    (order : PurchaseOrder) {value : Decimal} (hvalue : Measure value) :
    @headerNumbers A policy order (decimal? extraction.subtotal) value =
      @headerNumbers exactArithmetic policy order (decimal? extraction.subtotal) value := by
  have htotal : Measure order.totalAmount.val :=
    .of_fits order.totalAmount.property.2 (by norm_num) (by norm_num)
  have hsubtotal : ∀ d ∈ decimal? extraction.subtotal, Measure d := by
    intro d hd
    obtain ⟨x, -, rfl⟩ := Option.map_eq_some_iff.mp hd
    exact .of_fits x.property (by norm_num) (by norm_num)
  have hvalueSome : ∀ d ∈ some value, Measure d := by
    intro d hd
    rwa [← Option.some.inj hd]
  have hplaces : Grid 6 policy.amountRelativeTolerance.val.value :=
    hpolicy.relative _ (by simp [MatchConfig.relatives])
  unfold headerNumbers
  dsimp only
  rw [numeric_eq hA _ _ _ _ _ htotal hsubtotal hplaces,
    numeric_eq hA _ _ _ _ _ hvalue hsubtotal hplaces,
    numeric_eq hA _ _ _ _ _ htotal hvalueSome hplaces]

theorem lineTotal_eq (hA : A.Faithful exactContext) (line : PurchaseOrderLine)
    (invoiceLine : Option InvoiceLineItem) :
    @lineTotal A policy line (invoiceLine.bind fun l => decimal? l.quantity)
        (invoiceLine.bind fun l => decimal? l.lineTotal) =
      @lineTotal exactArithmetic policy line (invoiceLine.bind fun l => decimal? l.quantity)
        (invoiceLine.bind fun l => decimal? l.lineTotal) := by
  have hactual := measure_decimal? (by norm_num) (by norm_num) invoiceLine
    InvoiceLineItem.lineTotal
  have hplaces : Grid 6 policy.lineTotalRelativeTolerance.val.value :=
    hpolicy.relative _ (by simp [MatchConfig.relatives])
  cases hquantity : invoiceLine.bind fun l => decimal? l.quantity with
  | none => rfl
  | some quantity =>
    obtain ⟨l, -, hl⟩ := Option.bind_eq_some_iff.mp hquantity
    obtain ⟨q, -, rfl⟩ := Option.map_eq_some_iff.mp hl
    obtain ⟨expected, hexpected, hvalue, hmeasure⟩ := price_quantity line q
    unfold lineTotal
    dsimp only
    rw [hA.mul hexpected hvalue, ok_bind, exact_mul, hexpected, ok_bind,
      numeric_eq hA _ _ _ _ _ hmeasure hactual hplaces]

theorem lineNumbers_eq (hA : A.Faithful exactContext) {snapshot : ERPSnapshotData}
    {totals : LineNumber → Option Decimal} {line : PurchaseOrderLine}
    (h : ∃ d, totals line.lineNumber = some d ∧ Total d (receivedOf snapshot line.lineNumber))
    (invoiceLine : Option InvoiceLineItem) :
    @lineNumbers A policy totals line invoiceLine =
      @lineNumbers exactArithmetic policy totals line invoiceLine := by
  obtain ⟨arrived, harrived, htotal⟩ := h
  have hprice : Measure line.unitPrice.val :=
    .of_fits line.unitPrice.property.2 (by norm_num) (by norm_num)
  have hordered : Measure line.quantity.val :=
    .of_fits line.quantity.property.2 (by norm_num) (by norm_num)
  have harrivedSome : ∀ d ∈ some arrived, Measure d := by
    intro d hd
    rw [← Option.some.inj hd]
    exact htotal.measure
  have hunitPrice := measure_decimal? (by norm_num) (by norm_num) invoiceLine
    InvoiceLineItem.unitPrice
  have hquantity := measure_decimal? (by norm_num) (by norm_num) invoiceLine
    InvoiceLineItem.quantity
  have hpricePlaces : Grid 6 policy.priceRelativeTolerance.val.value :=
    hpolicy.relative _ (by simp [MatchConfig.relatives])
  have hplaces : Grid 6 noTolerance.val.value := by
    rw [noTolerance_val, Decimal.value_zero]
    exact Grid.zero
  have hget : total totals line.lineNumber = .ok arrived := by rw [total, harrived]
  unfold lineNumbers
  dsimp only
  rw [← noTolerance_val]
  simp only [hget, ok_bind, numeric_eq hA _ _ _ _ _ hprice hunitPrice hpricePlaces,
    numeric_eq hA _ _ _ _ _ hordered hquantity hplaces,
    numeric_eq hA _ _ _ _ _ htotal.measure hquantity hplaces,
    numeric_eq hA _ _ _ _ _ hordered harrivedSome hplaces, lineTotal_eq hpolicy hA]

/-- The checks are the same under any arithmetic that is exact where the context is. -/
theorem numericChecks_eq (hA : A.Faithful exactContext) (extraction : InvoiceExtraction)
    {snapshot : ERPSnapshotData} (h : snapshot.Valid) :
    @numericChecks A extraction snapshot policy =
      @numericChecks exactArithmetic extraction snapshot policy := by
  obtain ⟨totals, htotals, hreceived⟩ := received_total h
  obtain ⟨value, hvalue, -, hmeasure⟩ := receivedValue_eq hreceived
  unfold numericChecks
  rw [received_eq hA h, htotals, ok_bind, ok_bind, receivedValue_faithful hA hreceived, hvalue,
    ok_bind, ok_bind, headerNumbers_eq hpolicy hA extraction _ hmeasure,
    mapM_congr_mem fun line hline =>
      lineNumbers_eq hpolicy hA (hreceived line hline) (invoiceLine extraction line)]

omit hpolicy

/-- A check, on the rationals. -/
def Comparison.measurement (c : Comparison) : Measurement where
  field := c.field
  lineNumber := c.lineNumber
  rule := c.rule
  expected := c.expected
  actual := c.actual
  difference := do return (← c.actual) - (← c.expected)
  tolerance := do
    let _ ← c.actual
    return max c.absolute.val.value (|← c.expected| * c.relative.val.value)
  status :=
    match c.expected, c.actual with
    | some x, some y =>
      if c.rule.Allows (y - x) (max c.absolute.val.value (|x| * c.relative.val.value)) ∧ 0 ≤ y ∧
        (c.positive → 0 < y) then .match else .mismatch
    | _, _ => .unknown

theorem Comparison.Computed.measurement_eq {c : Comparison} {check : NumericCheck}
    (h : c.Computed check) (hplaces : Grid 6 c.relative.val.value) :
    check.measurement = c.measurement := by
  obtain ⟨hexpected, hactual⟩ := h.values
  obtain ⟨hfield, hlineNumber, hrule, hunknown, hmeasured⟩ := h.decides
  have hmissing := h.missing
  have hbounds := h.expected
  obtain ⟨field, lineNumber, rule, expected, actual, absolute, relative, positive⟩ := c
  unfold NumericCheck.measurement Comparison.measurement
  rw [hfield, hlineNumber, hrule, hexpected, hactual]
  cases expected with
  | none =>
    obtain ⟨hdifference, htolerance⟩ := hmissing (.inl rfl)
    rw [hdifference, htolerance, hunknown.mpr (.inl rfl)]
    cases actual <;> rfl
  | some x =>
    cases actual with
    | none =>
      obtain ⟨hdifference, htolerance⟩ := hmissing (.inr rfl)
      rw [hdifference, htolerance, hunknown.mpr (.inr rfl)]
      rfl
    | some y =>
      obtain ⟨-, -, hdifference, size, product, tolerance, hsize, hproduct, htolerance, hvalue,
        hmatch⟩ := hmeasured x rfl y rfl
      obtain ⟨hgrid, hle⟩ := hbounds x rfl
      obtain ⟨p, hp, hexact, -⟩ := @relative_exact size relative.val
        (by rw [hsize]; exact hgrid.abs) (by rwa [hsize, abs_abs]) relative.property hplaces
      obtain rfl := Except.ok.inj (hp.symm.trans hproduct)
      rw [hexact, hsize] at hvalue
      rw [hvalue] at hmatch
      rw [hdifference, htolerance, Option.map_some, hvalue]
      dsimp only at hmatch ⊢
      split_ifs with hallowed
      · rw [hmatch.mpr hallowed]
        rfl
      · have hnotMatch : check.val.status ≠ .match := fun h => hallowed (hmatch.mp h)
        have hnotUnknown : check.val.status ≠ .unknown := by
          rw [Ne, hunknown]
          simp
        cases hstatus : check.val.status with
        | «match» => exact absurd hstatus hnotMatch
        | unknown => exact absurd hstatus hnotUnknown
        | mismatch => rfl

theorem comparisons_places {extraction : InvoiceExtraction} {snapshot : ERPSnapshotData}
    {policy : MatchConfig} (hpolicy : policy.Plain) :
    ∀ c ∈ comparisons extraction snapshot policy, Grid 6 c.relative.val.value := by
  intro c hc
  rcases (comparisons_tolerances c hc).2 with hmem | hnone
  · exact hpolicy.relative _ hmem
  · rw [hnone, noTolerance_val, Decimal.value_zero]
    exact Grid.zero

end

end Match

end

theorem validateInvoice_issues {host : Host} {extraction : InvoiceExtraction}
    {config : Option ValidationConfig} {result : ValidationResult}
    (h : validateInvoice host extraction config = .ok result) :
    Validate.validate extraction (config.getD .default) = .ok result.val.issues := by
  obtain ⟨issues, hissues, h⟩ := bind_eq_ok.mp h
  unfold construct at h
  split_ifs at h <;> rw [hissues, ← Except.ok.inj h]

/-- Validation and matching are as on the rationals, and the same under any arithmetic that agrees
with the exact context where it is exact : so no operation rounds, but to the currency's
decimals. -/
theorem money_arithmetic_exact (host : Host) (extraction : InvoiceExtraction)
    (config : Option ValidationConfig) (request : MatchRequest) :
    (∃ result, validateInvoice host extraction config = .ok result ∧
      result.val.issues.map ValidationIssue.finding =
        Control.findings extraction (config.getD .default) ∧
      (∀ refused, @Validate.validate (exactContext.checked refused) extraction
        (config.getD .default) = .ok result.val.issues) ∧
      ∀ A : Arithmetic Exn, A.Faithful exactContext →
        @Validate.validate A extraction (config.getD .default) = .ok result.val.issues) ∧
    ∃ result, matchInvoice host request = .ok result ∧
      ∀ snapshot, request.snapshot = some snapshot →
        result.val.numericChecks.map NumericCheck.measurement =
          (Match.comparisons request.extraction snapshot.val .default).map
            Match.Comparison.measurement ∧
        (∀ refused, @Match.numericChecks (exactContext.checked refused) request.extraction
          snapshot.val .default = .ok result.val.numericChecks) ∧
        ∀ A : Arithmetic Exn, A.Faithful exactContext →
          @Match.numericChecks A request.extraction snapshot.val .default =
            .ok result.val.numericChecks := by
  constructor
  · obtain ⟨result, hresult, -, hfindings⟩ :=
      validateInvoice_ok host extraction (config.getD .default)
    have hvalidate := validateInvoice_issues hresult
    have hall : ∀ A : Arithmetic Exn, A.Faithful exactContext →
        @Validate.validate A extraction (config.getD .default) = .ok result.val.issues :=
      fun A hA => (Validate.validate_eq hA extraction _).trans hvalidate
    refine ⟨result, ?_, hfindings,
      fun refused => hall _ (exactContext.checked_faithful refused), hall⟩
    cases config <;> exact hresult
  · cases hrequest : request.snapshot with
    | none =>
      obtain ⟨hvalid, hresult⟩ := matchInvoice_none host none hrequest
      exact ⟨_, hresult, fun _ => nofun⟩
    | some snapshot =>
      obtain ⟨numeric, hvalid, hnumeric, hcomputed, hresult⟩ := matchInvoice_some host none hrequest
      refine ⟨_, hresult, ?_⟩
      rintro s hs
      obtain rfl := Option.some.inj hs
      have hall : ∀ A : Arithmetic Exn, A.Faithful exactContext →
          @Match.numericChecks A request.extraction snapshot.val .default = .ok numeric :=
        fun A hA => (Match.numericChecks_eq MatchConfig.plain_default hA request.extraction
          snapshot.property).trans hnumeric
      refine ⟨?_, fun refused => hall _ (exactContext.checked_faithful refused), hall⟩
      exact map_of_forall₂ ((List.forall₂_and_left _ _).mpr
        ⟨Match.comparisons_places MatchConfig.plain_default, hcomputed⟩)
        fun _ _ h => h.2.measurement_eq h.1

end InvoiceOps
