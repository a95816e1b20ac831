import InvoiceOps.Csv
import InvoiceOps.DecimalAmbient
import InvoiceOps.Extraction

/-!
# Identifiers read by OCR

`parseTesseractTsv` groups the words of a page in lines, and has a bank account or a PO number where
one line alone is labelled with it. `reconcileIdentifiers` takes such a text for a field that the
model has read as another one.

A field is corrected within its schema, as what was read has the shape of its kind
(`identifier_shape`), and the correction is one that a second run does not change
(`reconcileIdentifiers_holds`).
-/

namespace InvoiceOps

/-! ## Observations -/

/-- How a recognition ended. -/
inductive OCRStatus where
  | complete | skipped | unavailable
  deriving DecidableEq, Repr

/-- A confidence of the engine. -/
abbrev OCRConfidence := { d : Decimal // 0 ≤ d.value ∧ d.value ≤ 100 }

/-- An identifier the engine read. -/
structure OCRIdentifier where
  value : Text 1 128
  confidence : OCRConfidence
  deriving DecidableEq

/-- The identifiers the engine read. -/
structure OCRIdentifiers where
  status : OCRStatus
  engineVersion : Option (Text 0 80) := none
  bankAccountIban : Option OCRIdentifier := none
  poNumber : Option OCRIdentifier := none
  deriving DecidableEq

/-- What the functions of this module raise. -/
inductive OCRError where
  | value (message : String)
  | unicodeDecode
  | csv (error : Csv.Error)
  -- `None.strip()`
  | attribute
  -- `Decimal(None)`
  | type
  | validation
  deriving DecidableEq, Repr

/-! ## Words -/

/-- A word of a page. -/
structure OCRWord where
  text : String
  confidence : OCRConfidence
  deriving DecidableEq

/-- Where a line is. A column that the row is too short for is `None`. -/
structure LineKey where
  pageNum : Option String
  blockNum : Option String
  parNum : Option String
  lineNum : Option String
  deriving DecidableEq

/-- The columns of the key, where the header has them all. -/
def lineKey (row : Csv.Row) : Option LineKey := do
  let pageNum ← row.get? "page_num"
  let blockNum ← row.get? "block_num"
  let parNum ← row.get? "par_num"
  let lineNum ← row.get? "line_num"
  return ⟨pageNum, blockNum, parNum, lineNum⟩

section

variable (host : Host) (toDecimal : String → Option Decimal.Number)

/-- What a row adds to the lines. -/
def readWord (row : Csv.Row) : Except OCRError (Option (LineKey × OCRWord)) :=
  if row.get? "level" = some (some "5") then
    match row.get? "text" with
    | none => .ok none
    | some none => .error .attribute
    | some (some text) =>
      if pythonStrip text = "" then .ok none
      else
        match row.get? "conf" with
        | none => .ok none
        | some none => .error .type
        | some (some conf) =>
          match toDecimal conf with
          | none | some (.infinite _) | some .nan => .ok none
          | some (.finite d) =>
            if h : 0 ≤ d.value ∧ d.value ≤ 100 then
              .ok ((lineKey row).map fun key => (key, ⟨pythonStrip text, ⟨d, h⟩⟩))
            else .ok none
  else .ok none

/-- `lines[key].append(word)`. -/
def addWord (lines : List (LineKey × List OCRWord)) (key : LineKey) (word : OCRWord) :
    List (LineKey × List OCRWord) :=
  if key ∈ lines.map Prod.fst then
    lines.map fun line => if line.1 = key then (key, line.2 ++ [word]) else line
  else lines ++ [(key, [word])]

/-- The words of the rows by line, in the order of their first words. -/
def readLines (rows : List Csv.Row) : Except OCRError (List (LineKey × List OCRWord)) :=
  rows.foldlM (fun lines row => do
    match ← readWord toDecimal row with
    | none => return lines
    | some (key, word) => return addWord lines key word) []

/-! ## Identifiers -/

/-- The identifiers that are looked for. -/
inductive IdentifierKind where
  | bank | po
  deriving DecidableEq, Repr

/-- `value.casefold().rstrip(":")`. -/
def labelText (text : String) : String :=
  String.ofList ((host.casefold text).toList.rdropWhile (· = ':'))

/-- `[A-Z]`. -/
def isUpper (c : Char) : Bool :=
  'A' ≤ c && c ≤ 'Z'

/-- `[0-9]`. -/
def isDigit (c : Char) : Bool :=
  '0' ≤ c && c ≤ '9'

/-- `[A-Za-z0-9]`. -/
def isAlphanumeric (c : Char) : Bool :=
  isUpper c || ('a' ≤ c && c ≤ 'z') || isDigit c

/-- `IBAN_PATTERN`. -/
def isIbanShape : List Char → Bool
  | a :: b :: c :: d :: rest =>
    isUpper a && isUpper b && isDigit c && isDigit d && (11 ≤ rest.length && rest.length ≤ 30) &&
      rest.all fun c => isUpper c || isDigit c
  | _ => false

/-- `PO_PATTERN`. -/
def isPoShape : List Char → Bool
  | c :: rest =>
    isAlphanumeric c && rest.length ≤ 127 &&
      rest.all fun c => isAlphanumeric c || c ∈ ['.', '_', '/', '-']
  | [] => false

/-- The check digits of an account, where an `O` is a zero. -/
def readCheckDigits (raw : List Char) : List Char :=
  if 4 ≤ raw.length then
    raw.take 2 ++ ((raw.drop 2).take 2).map (fun c => if c = 'O' then '0' else c) ++ raw.drop 4
  else raw

/-- The words of a value, without the spaces between them. -/
def joined (words : List OCRWord) : String :=
  String.join (words.map OCRWord.text)

/-- The value of a line with the label of its kind, and the words it is read of. -/
def labelled (words : List OCRWord) : IdentifierKind → Option (List Char × OCRWord × List OCRWord)
  | .bank =>
    match words with
    | first :: second :: word :: rest =>
      if labelText host first.text = "bank" ∧ labelText host second.text = "iban" then
        let raw := readCheckDigits (host.upper (joined (word :: rest))).toList
        if isIbanShape raw ∧ raw.length ≤ 64 then some (raw, word, rest) else none
      else none
    | _ => none
  | .po =>
    match words with
    | first :: word :: rest =>
      if labelText host first.text = "po" then
        let raw := (joined (word :: rest)).toList
        if isPoShape raw then some (raw, word, rest) else none
      else none
    | _ => none

/-- `min` of the confidences. -/
def leastConfidence (word : OCRWord) (words : List OCRWord) : OCRConfidence :=
  words.foldl (fun least w => if w.confidence.val.value < least.val.value then w.confidence
    else least) word.confidence

/-- `OCRIdentifier(...)`. -/
def OCRIdentifier.build (value : String) (confidence : OCRConfidence) :
    Except OCRError OCRIdentifier :=
  if h : 1 ≤ value.length ∧ value.length ≤ 128 then .ok ⟨⟨value, h⟩, confidence⟩
  else .error .validation

/-- `_identifier`. -/
def identifier (words : List OCRWord) (kind : IdentifierKind) :
    Except OCRError (Option OCRIdentifier) :=
  match labelled host words kind with
  | none => .ok none
  | some (raw, word, rest) =>
    let confidence := leastConfidence word rest
    if 70 ≤ confidence.val.value then
      (OCRIdentifier.build (String.ofList raw) confidence).map some
    else .ok none

/-- The only one of a list. -/
def single {α : Type} : List α → Option α
  | [x] => some x
  | _ => none

/-- The dialect of `csv.DictReader(..., delimiter="\t")`. -/
def tsv : Csv.Dialect where
  delimiter := '\t'
  quotechar := '"'
  fieldLimit := 131072
  delimiter_ne_quote := by decide
  delimiter_inline := by decide
  quote_inline := by decide

/-- `MAX_OUTPUT_BYTES`. -/
def maxOutputBytes : ℕ :=
  1000000

/-- The identifiers that a single line has. -/
def identifiersOf (lines : List (LineKey × List OCRWord)) : Except OCRError OCRIdentifiers := do
  let found ← lines.mapM fun line => do
    return (← identifier host line.2 .bank, ← identifier host line.2 .po)
  return {
    status := .complete
    bankAccountIban := single (found.filterMap Prod.fst)
    poNumber := single (found.filterMap Prod.snd) }

/-- `parse_tesseract_tsv`. A reader that fails does so after the rows before. -/
def parseTesseractTsv (data : List UInt8) : Except OCRError OCRIdentifiers :=
  if maxOutputBytes < data.length then
    .error (.value "OCR output exceeds the configured bound")
  else
    match String.fromUTF8? ⟨data.toArray⟩ with
    | none => .error .unicodeDecode
    | some text => do
      let (rows, stop) := Csv.rows tsv text.toList
      let lines ← readLines toDecimal rows
      match stop with
      | some error => .error (.csv error)
      | none => identifiersOf host lines

end

/-! ## Shapes -/

/-- The shape of a kind of identifier. -/
def IdentifierKind.shape : IdentifierKind → List Char → Bool
  | .bank => isIbanShape
  | .po => isPoShape

theorem length_of_isIbanShape {raw : List Char} (h : isIbanShape raw) :
    15 ≤ raw.length ∧ raw.length ≤ 34 := by
  unfold isIbanShape at h
  split at h
  · simp only [Bool.and_eq_true, decide_eq_true_eq] at h
    simp only [List.length_cons]
    omega
  · exact absurd h (by decide)

theorem length_of_isPoShape {raw : List Char} (h : isPoShape raw) :
    1 ≤ raw.length ∧ raw.length ≤ 128 := by
  unfold isPoShape at h
  split at h
  · simp only [Bool.and_eq_true, decide_eq_true_eq] at h
    simp only [List.length_cons]
    omega
  · exact absurd h (by decide)

section

variable {host : Host} {toDecimal : String → Option Decimal.Number}

/-- What a line is labelled with has the shape of its kind. -/
theorem labelled_shape {words : List OCRWord} {kind : IdentifierKind} {raw : List Char}
    {word : OCRWord} {rest : List OCRWord} (h : labelled host words kind = some (raw, word, rest)) :
    kind.shape raw := by
  unfold labelled at h
  split at h
  · split at h
    · obtain ⟨-, hshape, hfound⟩ := by simpa only [Option.ite_none_right_eq_some] using h
      cases hfound
      exact hshape.1
    · cases h
  · split at h
    · obtain ⟨-, hshape, hfound⟩ := by simpa only [Option.ite_none_right_eq_some] using h
      cases hfound
      exact hshape
    · cases h

theorem build_of_shape {kind : IdentifierKind} {raw : List Char} (h : kind.shape raw)
    (confidence : OCRConfidence) : ∃ found, OCRIdentifier.build (String.ofList raw) confidence =
      .ok found ∧ found.value.val = String.ofList raw ∧ found.confidence = confidence := by
  have hlength : 1 ≤ (String.ofList raw).length ∧ (String.ofList raw).length ≤ 128 := by
    rw [String.length_ofList]
    cases kind with
    | bank =>
      have := length_of_isIbanShape h
      omega
    | po => exact length_of_isPoShape h
  exact ⟨⟨⟨_, hlength⟩, confidence⟩, dif_pos hlength, rfl, rfl⟩

/-- An identifier has the shape of its kind. -/
theorem identifier_shape (words : List OCRWord) (kind : IdentifierKind) :
    ∃ found, identifier host words kind = .ok found ∧
      ∀ i ∈ found, kind.shape i.value.val.toList := by
  unfold identifier
  cases hlabelled : labelled host words kind with
  | none => exact ⟨none, rfl, nofun⟩
  | some found =>
    obtain ⟨raw, word, rest⟩ := found
    have hshape := labelled_shape hlabelled
    obtain ⟨i, hbuild, hvalue, -⟩ := build_of_shape hshape (leastConfidence word rest)
    dsimp only
    split_ifs
    · refine ⟨some i, by rw [hbuild]; rfl, fun j hj => ?_⟩
      rw [Option.mem_some.mp hj |>.symm, hvalue, String.toList_ofList]
      exact hshape
    · exact ⟨none, rfl, nofun⟩

theorem mem_of_single {α : Type} {xs : List α} {x : α} (h : x ∈ single xs) : x ∈ xs := by
  unfold single at h
  split at h
  · rw [Option.mem_some.mp h]
    exact List.mem_singleton_self x
  · cases h

/-- The identifiers of any lines. -/
theorem identifiersOf_holds (lines : List (LineKey × List OCRWord)) :
    ∃ observations, identifiersOf host lines = .ok observations ∧
      observations.status = .complete ∧
      (∀ i ∈ observations.bankAccountIban, isIbanShape i.value.val.toList) ∧
      ∀ i ∈ observations.poNumber, isPoShape i.value.val.toList := by
  have hfound : ∃ found : List (Option OCRIdentifier × Option OCRIdentifier),
      (lines.mapM fun line => do
        return (← identifier host line.2 .bank, ← identifier host line.2 .po)) =
          Except.ok (ε := OCRError) found ∧
      ∀ f ∈ found, (∀ i ∈ f.1, isIbanShape i.value.val.toList) ∧
        ∀ i ∈ f.2, isPoShape i.value.val.toList := by
    induction lines with
    | nil => exact ⟨[], rfl, fun _ => nofun⟩
    | cons line lines ih =>
      obtain ⟨found, hlines, hshapes⟩ := ih
      obtain ⟨bank, hbank, hbankShape⟩ := @identifier_shape host line.2 .bank
      obtain ⟨po, hpo, hpoShape⟩ := @identifier_shape host line.2 .po
      refine ⟨(bank, po) :: found, ?_, List.forall_mem_cons.mpr ⟨⟨hbankShape, hpoShape⟩, hshapes⟩⟩
      rw [List.mapM_cons, hlines, hbank, hpo]
      rfl
  obtain ⟨found, hrun, hshapes⟩ := hfound
  refine ⟨_, by rw [identifiersOf, hrun]; rfl, rfl, fun i hi => ?_, fun i hi => ?_⟩
  · obtain ⟨f, hf, hfi⟩ := List.mem_filterMap.mp (mem_of_single hi)
    exact (hshapes f hf).1 i (Option.mem_def.mpr hfi)
  · obtain ⟨f, hf, hfi⟩ := List.mem_filterMap.mp (mem_of_single hi)
    exact (hshapes f hf).2 i (Option.mem_def.mpr hfi)

/-- What is parsed has the shapes. -/
theorem parseTesseractTsv_shapes {data : List UInt8} {observations : OCRIdentifiers}
    (h : parseTesseractTsv host toDecimal data = .ok observations) :
    (∀ i ∈ observations.bankAccountIban, isIbanShape i.value.val.toList) ∧
      ∀ i ∈ observations.poNumber, isPoShape i.value.val.toList := by
  unfold parseTesseractTsv at h
  split_ifs at h
  split at h
  · cases h
  · obtain ⟨lines, -, hlines⟩ := bind_eq_ok.mp h
    split at hlines
    · cases hlines
    · obtain ⟨parsed, hparsed, -, hshapes⟩ := @identifiersOf_holds host lines
      rw [hparsed] at hlines
      cases hlines
      exact hshapes

end

/-! ## Reconciliation -/

/-- The most confidence that a correction leaves. -/
def correctedConfidence : Confidence :=
  ⟨⟨false, 95, -2⟩, by decide +kernel⟩

theorem correctedConfidence_value : correctedConfidence.val.value = 19 / 20 := by
  decide +kernel

/-- `min(confidence, Decimal("0.95"))`. -/
def capped (confidence : Confidence) : Confidence :=
  if correctedConfidence.val.value < confidence.val.value then correctedConfidence else confidence

theorem capped_le (confidence : Confidence) :
    (capped confidence).val.value ≤ confidence.val.value ∧
      (capped confidence).val.value ≤ 19 / 20 := by
  unfold capped
  rw [← correctedConfidence_value]
  split_ifs with h
  · exact ⟨h.le, le_rfl⟩
  · exact ⟨le_rfl, not_lt.mp h⟩

/-- `ExtractedField(value=..., confidence=...)`, of a text. -/
def ExtractedField.ofText {high : ℕ} (value : String) (confidence : Confidence) :
    Except OCRError (ExtractedField (Text 1 high)) :=
  if h : 1 ≤ value.length ∧ value.length ≤ high then .ok ⟨some ⟨value, h⟩, confidence, nofun⟩
  else .error .validation

/-- What a field is updated with, if it is. -/
def reconcileField {high : ℕ} (current : ExtractedField (Text 1 high))
    (observed : Option OCRIdentifier) :
    Except OCRError (Option (ExtractedField (Text 1 high))) :=
  match observed, current.value with
  | some observed, some value =>
    if observed.value.val = value.val then .ok none
    else (ExtractedField.ofText observed.value.val (capped current.confidence)).map some
  | _, _ => .ok none

/-- `reconcile_identifiers`. -/
def reconcileIdentifiers (extraction : InvoiceExtraction) (observations : OCRIdentifiers) :
    Except OCRError (InvoiceExtraction × List String) :=
  if observations.status ≠ .complete then .ok (extraction, [])
  else do
    let bank ← reconcileField extraction.bankAccountIban observations.bankAccountIban
    let po ← reconcileField extraction.poNumber observations.poNumber
    return (
      { extraction with
        bankAccountIban := bank.getD extraction.bankAccountIban
        poNumber := po.getD extraction.poNumber },
      (if bank.isSome then ["bank_account_iban"] else []) ++
        if po.isSome then ["po_number"] else [])

/-- A field as it was corrected. -/
structure CorrectedField {high : ℕ} (current field : ExtractedField (Text 1 high)) : Prop where
  known : field.value = none ↔ current.value = none
  confidence : field.confidence.val.value ≤ current.confidence.val.value
  unchanged : field.value = current.value → field = current
  capped : field ≠ current → field.confidence.val.value ≤ 19 / 20

theorem CorrectedField.refl {high : ℕ} (current : ExtractedField (Text 1 high)) :
    CorrectedField current current :=
  ⟨Iff.rfl, le_rfl, fun _ => rfl, fun h => absurd rfl h⟩

/-- An observed text that fits corrects the field or leaves it, and then it is left again. -/
theorem reconcileField_holds {high : ℕ} (current : ExtractedField (Text 1 high))
    {observed : Option OCRIdentifier} (h : ∀ i ∈ observed, i.value.val.length ≤ high) :
    ∃ update, reconcileField current observed = .ok update ∧
      CorrectedField current (update.getD current) ∧
      (update.isSome ↔ (update.getD current).value ≠ current.value) ∧
      reconcileField (update.getD current) observed = .ok none := by
  have hleft (hleft : reconcileField current observed = .ok none) :
      ∃ update, reconcileField current observed = .ok update ∧
        CorrectedField current (update.getD current) ∧
        (update.isSome ↔ (update.getD current).value ≠ current.value) ∧
        reconcileField (update.getD current) observed = .ok none :=
    ⟨none, hleft, .refl current, by simp, hleft⟩
  cases observed with
  | none => exact hleft rfl
  | some i =>
    cases hvalue : current.value with
    | none => exact hvalue ▸ hleft (by simp [reconcileField, hvalue])
    | some value =>
      by_cases heq : i.value.val = value.val
      · exact hvalue ▸ hleft (by simp [reconcileField, hvalue, heq])
      · have hlength : 1 ≤ i.value.val.length ∧ i.value.val.length ≤ high :=
          ⟨i.value.property.1, h i rfl⟩
        have hne : (⟨i.value.val, hlength⟩ : Text 1 high) ≠ value := fun hv =>
          heq (congrArg Subtype.val hv)
        obtain ⟨hle, hcap⟩ := capped_le current.confidence
        refine ⟨some ⟨some ⟨i.value.val, hlength⟩, capped current.confidence, nofun⟩, ?_,
          ⟨?_, hle, ?_, fun _ => hcap⟩, ?_, ?_⟩
        · simp only [reconcileField, hvalue, if_neg heq, ExtractedField.ofText, dif_pos hlength]
          rfl
        · simp [hvalue]
        · rw [hvalue]
          exact fun hv => absurd (Option.some.inj hv) hne
        · simp [hne]
        · simp [reconcileField]

variable {host : Host} {toDecimal : String → Option Decimal.Number}

variable (host toDecimal) in
/-- Observations of a page that was parsed. -/
def OCRIdentifiers.Parsed (observations : OCRIdentifiers) : Prop :=
  ∃ data parsed, parseTesseractTsv host toDecimal data = .ok parsed ∧
    observations = { parsed with engineVersion := observations.engineVersion }

theorem OCRIdentifiers.Parsed.fits {observations : OCRIdentifiers}
    (h : observations.Parsed host toDecimal) :
    (∀ i ∈ observations.bankAccountIban, i.value.val.length ≤ 64) ∧
      ∀ i ∈ observations.poNumber, i.value.val.length ≤ 128 := by
  obtain ⟨data, parsed, hparsed, heq⟩ := h
  obtain ⟨hbank, -⟩ := parseTesseractTsv_shapes hparsed
  have hbank_eq : observations.bankAccountIban = parsed.bankAccountIban := by rw [heq]
  refine ⟨fun i hi => ?_, fun i _ => i.value.property.2⟩
  have hlength := length_of_isIbanShape (hbank i (hbank_eq ▸ hi))
  rw [String.length_toList] at hlength
  omega

/-- An extraction as it was reconciled with some observations. -/
structure Reconciled (host : Host) (extraction : InvoiceExtraction) (observations : OCRIdentifiers)
    (result : InvoiceExtraction) (names : List String) : Prop where
  frame : result = { extraction with
    bankAccountIban := result.bankAccountIban, poNumber := result.poNumber }
  bank : CorrectedField extraction.bankAccountIban result.bankAccountIban
  po : CorrectedField extraction.poNumber result.poNumber
  applied : names =
    (if result.bankAccountIban.value ≠ extraction.bankAccountIban.value then ["bank_account_iban"]
      else []) ++
    if result.poNumber.value ≠ extraction.poNumber.value then ["po_number"] else []
  incomplete : observations.status ≠ .complete → result = extraction ∧ names = []
  again : reconcileIdentifiers result observations = .ok (result, [])
  schema : (InvoiceExtraction.codec host).parse ((InvoiceExtraction.codec host).dump result) =
    some ((InvoiceExtraction.codec host).canon result)

/-- With what a parsed page has, only the bank account and the PO number are corrected, those that
are known to other known values, never with more confidence, and in a way that is done once. -/
theorem reconcile_identifiers_frame (extraction : InvoiceExtraction) (observations : OCRIdentifiers)
    (h : observations.status = .complete → observations.Parsed host toDecimal) :
    ∃ result applied, reconcileIdentifiers extraction observations = .ok (result, applied) ∧
      Reconciled host extraction observations result applied := by
  by_cases hstatus : observations.status = .complete
  · obtain ⟨hbankFits, hpoFits⟩ := (h hstatus).fits
    obtain ⟨bank, hbank, hbankField, hbankSome, hbankAgain⟩ :=
      reconcileField_holds extraction.bankAccountIban hbankFits
    obtain ⟨po, hpo, hpoField, hpoSome, hpoAgain⟩ :=
      reconcileField_holds extraction.poNumber hpoFits
    have hrun : reconcileIdentifiers extraction observations = .ok (
        { extraction with
          bankAccountIban := bank.getD extraction.bankAccountIban
          poNumber := po.getD extraction.poNumber },
        (if bank.isSome then ["bank_account_iban"] else []) ++
          if po.isSome then ["po_number"] else []) := by
      rw [reconcileIdentifiers, if_neg (not_not.mpr hstatus), hbank, hpo]
      rfl
    refine ⟨_, _, hrun, rfl, hbankField, hpoField, ?_, fun hne => absurd hstatus hne, ?_,
      (InvoiceExtraction.codec host).parse_dump _⟩
    · simp only [hbankSome, hpoSome]
    · rw [reconcileIdentifiers, if_neg (not_not.mpr hstatus), hbankAgain, hpoAgain]
      rfl
  · have hrun (e : InvoiceExtraction) : reconcileIdentifiers e observations = .ok (e, []) :=
      if_pos hstatus
    exact ⟨extraction, [], hrun extraction, rfl, .refl _, .refl _, by simp, fun _ => ⟨rfl, rfl⟩,
      hrun extraction, (InvoiceExtraction.codec host).parse_dump _⟩

/-- A page with a line of each kind. -/
def samplePage : String :=
  "level\tpage_num\tblock_num\tpar_num\tline_num\tconf\ttext\n" ++
    "5\t1\t1\t1\t1\t93\tBank\n5\t1\t1\t1\t1\t92\tIBAN:\n" ++
    "5\t1\t1\t1\t1\t76\tGBOOSYNTH00202608270002\n" ++
    "5\t1\t1\t1\t2\t93\tPO:\n5\t1\t1\t1\t2\t90\tSYN-1\n"

/-- The identifiers that are read from that page. -/
def sampleObservations : OCRIdentifiers where
  status := .complete
  bankAccountIban := some ⟨⟨"GB00SYNTH00202608270002", by decide +kernel⟩,
    ⟨⟨false, 76, 0⟩, by decide +kernel⟩⟩
  poNumber := some ⟨⟨"SYN-1", by decide +kernel⟩, ⟨⟨false, 90, 0⟩, by decide +kernel⟩⟩

/-- An extraction whose account lacks a digit. -/
def sampleExtraction : InvoiceExtraction :=
  { InvoiceExtraction.unread with
    bankAccountIban := ⟨some ⟨"GB00SYNTH0020260827002", by decide +kernel⟩,
      ⟨.one, by decide +kernel⟩, nofun⟩ }

theorem reconcile_identifiers_sample : ∃ result names,
    reconcileIdentifiers sampleExtraction sampleObservations = .ok (result, names) ∧
      Reconciled Host.sample sampleExtraction sampleObservations result names :=
  @reconcile_identifiers_frame Host.sample (fun s => (Decimal.parse s.toList).map .finite) _ _
    fun _ => ⟨samplePage.toUTF8.data.toList, sampleObservations, by decide +kernel, rfl⟩

end InvoiceOps
