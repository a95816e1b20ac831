import InvoiceOps.Extraction

/-!
# Deterministic validation

`validateInvoice` checks an extraction against a configuration, in decimal arithmetic of sixty
digits. An operand that is missing or invalid is replaced by `none` and switches off the checks
that need it.

`Control.findings` says what each control finds, on the rationals, and `Accepted` what an accepted
invoice is. The issues of a result are the findings of the controls, in order
(`validate_invoice_exact`) : no intermediate result has more digits than the context.
-/

open Decimal (Arithmetic Context OfSignal Grid roundHalfUp)

namespace InvoiceOps

instance : OfSignal Exn where
  ofSignal
    | .invalidOperation => .new (.other "InvalidOperation") ""
    | .overflow => .new (.other "Overflow") ""

/-- `exact_context`. -/
def exactContext : Context :=
  ⟨60, .halfUp, -999999, 999999⟩

/-- `with localcontext(exact_context())`. -/
instance exactArithmetic : Arithmetic Exn :=
  exactContext.arithmetic Exn

section

variable (a b : Decimal)

/-- Where nothing may be rounded, `abs` is that of the exact context. -/
theorem exact_abs : (Arithmetic.abs a : Except Exn Decimal) = exactContext.abs a :=
  rfl

/-- So is the sum of two decimals. -/
theorem exact_add : (Arithmetic.add a b : Except Exn Decimal) = exactContext.add a b :=
  rfl

/-- So is their difference. -/
theorem exact_sub : (Arithmetic.sub a b : Except Exn Decimal) = exactContext.sub a b :=
  rfl

/-- So is their product. -/
theorem exact_mul : (Arithmetic.mul a b : Except Exn Decimal) = exactContext.mul a b :=
  rfl

/-- So is `quantize`. -/
theorem exact_quantize (exp : ℤ) :
    (Arithmetic.quantize a exp : Except Exn Decimal) = exactContext.quantize a exp :=
  rfl

end

/-- So is the sum of a list. -/
theorem exact_sum : ∀ (ds : List Decimal) (start : Decimal),
    (Arithmetic.sum ds start : Except Exn Decimal) = exactContext.sum ds start
  | [], _ => rfl
  | d :: ds, start =>
    congrArg (exactContext.add start d >>= ·) (funext fun next => exact_sum ds next)

/-- A model built from its fields : they are checked. -/
def construct {α : Type} (model : String) (p : α → Prop) [DecidablePred p] (x : α) :
    Except Exn { x // p x } :=
  if h : p x then .ok ⟨x, h⟩ else .error (.new .validationError model)

/-- A model whose fields are valid is built. -/
theorem construct_eq {α : Type} {model : String} {p : α → Prop} [DecidablePred p] {x : α}
    (h : p x) : construct model p x = .ok ⟨x, h⟩ :=
  dif_pos h

theorem ok_bind {ε α β : Type} (a : α) (f : α → Except ε β) :
    (Except.ok a >>= f) = f a :=
  rfl

/-! ## Configuration -/

/-- How the amounts of a currency are rounded and compared. -/
structure CurrencyRule where
  currency : Currency
  decimalPlaces : { n : ℕ // n ≤ 4 }
  absoluteTolerance : { d : Decimal // (0 ≤ d.value ∧ d.value ≤ 100) ∧ d.fits 9 4 }
  deriving DecidableEq

/-- The rounding of a configuration. -/
inductive RoundingMode where
  | roundHalfUp
  deriving DecidableEq, Repr

/-- How the tax of an invoice is summed. -/
inductive TaxMethod where
  | sumRoundedLineTaxes
  deriving DecidableEq, Repr

/-- `ValidationConfig`. -/
structure ValidationConfig where
  version : ConfigVersion
  rounding : RoundingMode
  taxMethod : TaxMethod
  currencies : { rules : List CurrencyRule //
    (rules ≠ [] ∧ rules.length ≤ 200) ∧ (rules.map CurrencyRule.currency).Nodup }
  deriving DecidableEq

/-- The example policy. -/
def ValidationConfig.default : ValidationConfig where
  version := ⟨"invoice-validation@v1", by decide⟩
  rounding := .roundHalfUp
  taxMethod := .sumRoundedLineTaxes
  currencies := ⟨[
    ⟨.eur, ⟨2, by decide⟩, ⟨⟨false, 1, -2⟩, by decide +kernel⟩⟩,
    ⟨.gbp, ⟨2, by decide⟩, ⟨⟨false, 1, -2⟩, by decide +kernel⟩⟩,
    ⟨.jpy, ⟨0, by decide⟩, ⟨⟨false, 1, 0⟩, by decide +kernel⟩⟩,
    ⟨.kwd, ⟨3, by decide⟩, ⟨⟨false, 1, -3⟩, by decide +kernel⟩⟩,
    ⟨.pln, ⟨2, by decide⟩, ⟨⟨false, 1, -2⟩, by decide +kernel⟩⟩,
    ⟨.usd, ⟨2, by decide⟩, ⟨⟨false, 1, -2⟩, by decide +kernel⟩⟩], by decide⟩

/-! ## Results -/

/-- What can be wrong with an invoice. -/
inductive IssueCode where
  | requiredField | emptyLines | negativeValue | nonpositiveQuantity | taxRateOutOfRange
  | unsupportedCurrency | lineMathMismatch | subtotalMismatch | taxMismatch | totalMismatch
  deriving DecidableEq, Repr

/-- `^[a-z_]+(?:\.[a-z_]+)?$`. -/
def isIssueField (s : String) : Bool :=
  let p := fun c => ('a' ≤ c && c ≤ 'z') || c = '_'
  s.toList.takeWhile p ≠ [] &&
    match s.toList.dropWhile p with
    | [] => true
    | c :: rest => c = '.' && rest ≠ [] && rest.all p

/-- `ValidationIssue`, before its field and its numbers are checked. -/
structure IssueData where
  code : IssueCode
  field : String
  lineNumber : Option ℕ := none
  expected : Option Decimal := none
  actual : Option Decimal := none
  difference : Option Decimal := none
  tolerance : Option Decimal := none
  deriving DecidableEq

/-- The field has its form, lines are counted from one, and a tolerance is not negative. -/
def IssueData.Valid (issue : IssueData) : Prop :=
  isIssueField issue.field ∧ (∀ n ∈ issue.lineNumber, 1 ≤ n ∧ n ≤ 500) ∧
    ∀ t ∈ issue.tolerance, 0 ≤ t.value

instance : DecidablePred IssueData.Valid :=
  fun _ => inferInstanceAs (Decidable (_ ∧ _ ∧ _))

/-- An issue that `ValidationIssue` accepts. -/
abbrev ValidationIssue := { issue : IssueData // issue.Valid }

/-- Whether a validation found anything. -/
inductive ValidationStatus where
  | pass | fail
  deriving DecidableEq, Repr

/-- `ValidationResult`, before its status is checked. -/
structure ValidationResultData where
  status : ValidationStatus
  inputSha256 : Sha256
  configSha256 : Sha256
  config : ValidationConfig
  issues : List ValidationIssue
  deriving DecidableEq

/-- `consistent_decision`. -/
def ValidationResultData.Valid (result : ValidationResultData) : Prop :=
  result.status = .pass ↔ result.issues = []

instance : DecidablePred ValidationResultData.Valid :=
  fun _ => inferInstanceAs (Decidable (_ ↔ _))

/-- A result whose status follows from its issues. -/
abbrev ValidationResult := { result : ValidationResultData // result.Valid }

/-! ## As JSON -/

/-- A rule as JSON. -/
def CurrencyRule.codec : Codec CurrencyRule :=
  (Codec.record ((Fields.required "currency" Currency.codec).and <|
      (Fields.required "decimal_places" (Codec.nat.check _ fun _ h => h)).and <|
      .required "absolute_tolerance" (exactWhere _ fun d h => by
        rw [Decimal.value_canonical]
        exact ⟨h.1, fits_canonical d h.2⟩)) (by simp)).map
    (fun (currency, decimalPlaces, absoluteTolerance) =>
      ⟨currency, decimalPlaces, absoluteTolerance⟩)
    (fun rule => (rule.currency, rule.decimalPlaces, rule.absoluteTolerance)) fun _ => rfl

/-- The rounding as JSON. -/
def RoundingMode.codec : Codec RoundingMode :=
  .literal (fun _ => "ROUND_HALF_UP") [.roundHalfUp] fun x => by cases x; rfl

/-- The method as JSON. -/
def TaxMethod.codec : Codec TaxMethod :=
  .literal (fun _ => "sum-rounded-line-taxes") [.sumRoundedLineTaxes] fun x => by cases x; rfl

/-- A configuration as JSON ; what it leaves out is as in the example policy. -/
def ValidationConfig.codec : Codec ValidationConfig :=
  (Codec.record
    ((Fields.default "version" ConfigVersion.codec ValidationConfig.default.version).and <|
      (Fields.default "rounding" RoundingMode.codec .roundHalfUp).and <|
      (Fields.default "tax_method" TaxMethod.codec .sumRoundedLineTaxes).and <|
      .default "currencies" (CurrencyRule.codec.list.check
        (fun rules => (rules ≠ [] ∧ rules.length ≤ 200) ∧ (rules.map CurrencyRule.currency).Nodup)
        fun rules h => by
          refine ⟨⟨fun hnil => h.1.1 (List.map_eq_nil_iff.mp hnil),
            (List.length_map _).trans_le h.1.2⟩, ?_⟩
          have hmap : (CurrencyRule.codec.list.canon rules).map CurrencyRule.currency =
              rules.map CurrencyRule.currency := by
            rw [Codec.list, List.map_map]
            rfl
          rw [hmap]
          exact h.2)
        ValidationConfig.default.currencies) (by simp)).map
    (fun (version, rounding, taxMethod, currencies) => ⟨version, rounding, taxMethod, currencies⟩)
    (fun config => (config.version, config.rounding, config.taxMethod, config.currencies))
    fun _ => rfl

namespace IssueCode

/-- The value of a code. -/
def text : IssueCode → String
  | requiredField => "REQUIRED_FIELD"
  | emptyLines => "EMPTY_LINES"
  | negativeValue => "NEGATIVE_VALUE"
  | nonpositiveQuantity => "NONPOSITIVE_QUANTITY"
  | taxRateOutOfRange => "TAX_RATE_OUT_OF_RANGE"
  | unsupportedCurrency => "UNSUPPORTED_CURRENCY"
  | lineMathMismatch => "LINE_MATH_MISMATCH"
  | subtotalMismatch => "SUBTOTAL_MISMATCH"
  | taxMismatch => "TAX_MISMATCH"
  | totalMismatch => "TOTAL_MISMATCH"

/-- A code is read back by its value. -/
def codec : Codec IssueCode :=
  .literal text [requiredField, emptyLines, negativeValue, nonpositiveQuantity,
    taxRateOutOfRange, unsupportedCurrency, lineMathMismatch, subtotalMismatch, taxMismatch,
    totalMismatch] fun x => by cases x <;> rfl

end IssueCode

/-- A decimal of an issue or a check, or `null`. -/
def nullableDecimal : Codec (Option Decimal) :=
  exactDecimal.nullable fun _ => nofun

/-- An issue as JSON ; it is checked as it is read. -/
def ValidationIssue.codec : Codec ValidationIssue :=
  ((Codec.record ((Fields.required "code" IssueCode.codec).and <|
      (Fields.required "field" Codec.string).and <|
      (Fields.default "line_number" (Codec.nat.nullable Codec.nat_ne_null) none).and <|
      (Fields.default "expected" nullableDecimal none).and <|
      (Fields.default "actual" nullableDecimal none).and <|
      (Fields.default "difference" nullableDecimal none).and <|
      .default "tolerance" nullableDecimal none) (by simp)).map
    (fun (code, field, lineNumber, expected, actual, difference, tolerance) =>
      (⟨code, field, lineNumber, expected, actual, difference, tolerance⟩ : IssueData))
    (fun issue => (issue.code, issue.field, issue.lineNumber, issue.expected, issue.actual,
      issue.difference, issue.tolerance)) fun _ => rfl).check IssueData.Valid fun issue h => by
    refine ⟨h.1, fun n hn => h.2.1 n ?_, fun t ht => ?_⟩
    · obtain ⟨m, hm, rfl⟩ := Option.map_eq_some_iff.mp hn
      exact hm
    · obtain ⟨s, hs, rfl⟩ := Option.map_eq_some_iff.mp ht
      exact (h.2.2 s hs).trans_eq (Decimal.value_canonical s).symm

/-- The value of a status. -/
def ValidationStatus.text : ValidationStatus → String
  | pass => "PASS"
  | fail => "FAIL"

/-- A status is read back by its value. -/
def ValidationStatus.codec : Codec ValidationStatus :=
  .literal text [pass, fail] fun x => by cases x <;> rfl

/-- A result as JSON ; it is checked as it is read. -/
def ValidationResult.codec : Codec ValidationResult :=
  ((Codec.record ((Fields.required "status" ValidationStatus.codec).and <|
      (Fields.required "input_sha256" Sha256.codec).and <|
      (Fields.required "config_sha256" Sha256.codec).and <|
      (Fields.required "config" ValidationConfig.codec).and <|
      .required "issues" ValidationIssue.codec.list) (by simp)).map
    (fun (status, inputSha256, configSha256, config, issues) =>
      (⟨status, inputSha256, configSha256, config, issues⟩ : ValidationResultData))
    (fun result => (result.status, result.inputSha256, result.configSha256, result.config,
      result.issues)) fun _ => rfl).check ValidationResultData.Valid fun result h => by
    have hnil : (ValidationIssue.codec.list.canon result.issues = []) ↔ result.issues = [] :=
      List.map_eq_nil_iff
    exact h.trans hnil.symm

/-! ## The checks -/

/-- The number of an observed decimal. -/
def decimal? {p : Decimal → Prop} (field : ExtractedField { d // p d }) : Option Decimal :=
  field.value.map Subtype.val

namespace Validate

/-- `ValidationIssue(...)`. -/
def newIssue (issue : IssueData) : Except Exn ValidationIssue :=
  construct "ValidationIssue" IssueData.Valid issue

/-- The issues `_compare` adds. -/
def compare [Arithmetic Exn] (code : IssueCode) (field : String)
    (expected actual tolerance : Decimal) (lineNumber : Option ℕ := none) :
    Except Exn (List ValidationIssue) := do
  let difference ← Arithmetic.sub actual expected
  let size ← Arithmetic.abs difference
  if tolerance.value < size.value then
    let issue ← newIssue
      ⟨code, field, lineNumber, some expected, some actual, some difference, some tolerance⟩
    return [issue]
  else return []

/-- The issues `_required` adds, on whether each field is missing or blank. -/
def required (fields : List (String × Bool)) (lineNumber : Option ℕ := none) :
    Except Exn (List ValidationIssue) :=
  (fields.filter Prod.snd).mapM fun field =>
    newIssue { code := .requiredField, field := field.1, lineNumber := lineNumber }

/-- A value that is not allowed is an issue, and no operand. -/
def operand (code : IssueCode) (field : String) (bad : ℚ → Prop) [DecidablePred bad]
    (value : Option Decimal) (lineNumber : Option ℕ := none) :
    Except Exn (List ValidationIssue × Option Decimal) :=
  match value with
  | none => .ok ([], none)
  | some value =>
    if bad value.value then do
      let issue ← newIssue
        { code := code, field := field, lineNumber := lineNumber, actual := some value }
      return ([issue], none)
    else .ok ([], some value)

/-- `_nonnegative`. -/
def nonnegative (field : String) (value : Option Decimal) (lineNumber : Option ℕ := none) :
    Except Exn (List ValidationIssue × Option Decimal) :=
  operand .negativeValue field (· < 0) value lineNumber

/-- What a line has to have. -/
def lineFields (line : InvoiceLineItem) : List (String × Bool) :=
  [("description", line.description.value.all fun s => isBlank s.val),
    ("quantity", line.quantity.value.isNone), ("unit_price", line.unitPrice.value.isNone),
    ("tax_rate", line.taxRate.value.isNone), ("line_total", line.lineTotal.value.isNone)]

/-- The check of a line's net amount. -/
def lineMath [Arithmetic Exn] (rule : CurrencyRule) (quantity price net : Option Decimal)
    (number : ℕ) : Except Exn (List ValidationIssue) :=
  match quantity, price, net with
  | some quantity, some price, some net => do
    let product ← Arithmetic.mul quantity price
    let expected ← Arithmetic.quantize product (-rule.decimalPlaces.val)
    compare .lineMathMismatch "line_total" expected net rule.absoluteTolerance.val (some number)
  | _, _, _ => .ok []

/-- The rounded tax of a line. -/
def lineTax [Arithmetic Exn] (rule : CurrencyRule) (net rate : Option Decimal) :
    Except Exn (Option Decimal) :=
  match net, rate with
  | some net, some rate => do
    let product ← Arithmetic.mul net rate
    let tax ← Arithmetic.quantize product (-rule.decimalPlaces.val)
    return some tax
  | _, _ => .ok none

/-- `_line_values` : the line's issues, its net amount and its tax. -/
def lineValues [Arithmetic Exn] (rule : Option CurrencyRule) (line : InvoiceLineItem)
    (number : ℕ) : Except Exn (List ValidationIssue × Option Decimal × Option Decimal) := do
  let missing ← required (lineFields line) (some number)
  let (badPrice, price) ← nonnegative "unit_price" (decimal? line.unitPrice) (some number)
  let (badNet, net) ← nonnegative "line_total" (decimal? line.lineTotal) (some number)
  let (badQuantity, quantity) ←
    operand .nonpositiveQuantity "quantity" (· ≤ 0) (decimal? line.quantity) (some number)
  let (badRate, rate) ← operand .taxRateOutOfRange "tax_rate" (fun r => ¬(0 ≤ r ∧ r ≤ 1))
    (decimal? line.taxRate) (some number)
  let issues := missing ++ badPrice ++ badNet ++ badQuantity ++ badRate
  match rule with
  | none => return (issues, net, none)
  | some rule =>
    let math ← lineMath rule quantity price net number
    let tax ← lineTax rule net rate
    return (issues ++ math, net, tax)

/-- `_complete_sum`. -/
def completeSum [Arithmetic Exn] (values : List (Option Decimal)) : Except Exn (Option Decimal) :=
  if values = [] ∨ values.any Option.isNone then .ok none
  else do
    let sum ← Arithmetic.sum (values.filterMap id) .zero
    return some sum

/-- The comparison of two amounts that are both there. -/
def compareSome [Arithmetic Exn] (code : IssueCode) (field : String)
    (expected actual : Option Decimal) (tolerance : Decimal) : Except Exn (List ValidationIssue) :=
  match expected, actual with
  | some expected, some actual => compare code field expected actual tolerance
  | _, _ => .ok []

/-- `subtotal + tax`. -/
def netPlusTax [Arithmetic Exn] (subtotal tax : Option Decimal) : Except Exn (Option Decimal) :=
  match subtotal, tax with
  | some subtotal, some tax => do
    let sum ← Arithmetic.add subtotal tax
    return some sum
  | _, _ => .ok none

/-- What an invoice has to have. -/
def invoiceFields (extraction : InvoiceExtraction) : List (String × Bool) :=
  [("vendor_name", extraction.vendorName.value.all fun s => isBlank s.val),
    ("invoice_number", extraction.invoiceNumber.value.all fun s => isBlank s.val),
    ("currency", extraction.currency.value.all fun s => isBlank s.val),
    ("invoice_date", extraction.invoiceDate.value.isNone),
    ("subtotal", extraction.subtotal.value.isNone),
    ("tax_amount", extraction.taxAmount.value.isNone),
    ("total_amount", extraction.totalAmount.value.isNone)]

/-- The rule of the invoice's currency. -/
def rule? (extraction : InvoiceExtraction) (config : ValidationConfig) : Option CurrencyRule :=
  config.currencies.val.find? fun rule => some rule.currency = extraction.currency.value

/-- The issue of a check on no number. -/
def flag (code : IssueCode) (field : String) (p : Prop) [Decidable p] :
    Except Exn (List ValidationIssue) :=
  if p then do
    let issue ← newIssue { code := code, field := field }
    return [issue]
  else .ok []

/-- The checks of the header against the lines. -/
def totals [Arithmetic Exn] (rule : CurrencyRule) (nets taxes : List (Option Decimal))
    (subtotal tax total : Option Decimal) : Except Exn (List ValidationIssue) := do
  let lineSubtotal ← completeSum nets
  let lineTax ← completeSum taxes
  let tolerance := rule.absoluteTolerance.val
  let badSubtotal ← compareSome .subtotalMismatch "subtotal" lineSubtotal subtotal tolerance
  let badTax ← compareSome .taxMismatch "tax_amount" lineTax tax tolerance
  let expected ← netPlusTax subtotal tax
  let badTotal ← compareSome .totalMismatch "total_amount" expected total tolerance
  return badSubtotal ++ badTax ++ badTotal

/-- `_validate`. -/
def validate [Arithmetic Exn] (extraction : InvoiceExtraction) (config : ValidationConfig) :
    Except Exn (List ValidationIssue) := do
  let missing ← required (invoiceFields extraction)
  let empty ← flag .emptyLines "line_items" (extraction.lineItems.val = [])
  let rule := rule? extraction config
  let unsupported ← flag .unsupportedCurrency "currency"
    (extraction.currency.value ≠ none ∧ rule = none)
  let (badSubtotal, subtotal) ← nonnegative "subtotal" (decimal? extraction.subtotal)
  let (badTax, tax) ← nonnegative "tax_amount" (decimal? extraction.taxAmount)
  let (badTotal, total) ← nonnegative "total_amount" (decimal? extraction.totalAmount)
  let values ← (extraction.lineItems.val.zipIdx 1).mapM fun line =>
    lineValues rule line.1 line.2
  let issues := missing ++ empty ++ unsupported ++ badSubtotal ++ badTax ++ badTotal ++
    values.flatMap Prod.fst
  match rule with
  | none => return issues
  | some rule =>
    let mismatches ← totals rule (values.map fun v => v.2.1) (values.map fun v => v.2.2)
      subtotal tax total
    return issues ++ mismatches

end Validate

/-- `validate_invoice`. -/
def validateInvoice (host : Host) (extraction : InvoiceExtraction)
    (config : Option ValidationConfig := none) : Except Exn ValidationResult := do
  let policy := config.getD .default
  let issues ← Validate.validate extraction policy
  construct "ValidationResult" ValidationResultData.Valid
    { status := if issues = [] then .pass else .fail
      inputSha256 := host.modelDigest (InvoiceExtraction.codec host) extraction
      configSha256 := host.modelDigest ValidationConfig.codec policy
      config := policy
      issues := issues }

end InvoiceOps
