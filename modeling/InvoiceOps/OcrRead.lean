import InvoiceOps.Documents
import InvoiceOps.Ocr

/-!
# Running OCR

`TesseractIdentifierOCR.read` runs the engine in two bounded subprocesses and is unavailable
where they fail. It catches errors of the system, timeouts and value errors, but not what the
reader of the rows raises, nor what a row that is too short for its text does. Nothing else leaves
it but a cancellation (`ocr_read_contained_iff`).
-/

namespace InvoiceOps

/-! ## The engine -/

/-- How a bounded subprocess ends. -/
inductive ProcessEnd where
  | osError
  | timeout
  | cancelled
  | exited (returncode : ℤ) (stdout : List UInt8)
  deriving DecidableEq, Repr

/-- What the reading raises. -/
inductive ReadError where
  | osError
  | timeout
  | cancelled
  | ocr (error : OCRError)
  deriving DecidableEq, Repr

/-- `except (OSError, TimeoutError, UnicodeError, ValueError)`. A validation error is a value
error. -/
def ReadError.caught : ReadError → Bool
  | osError | timeout => true
  | cancelled => false
  | ocr (.value _) | ocr .unicodeDecode | ocr .validation => true
  | ocr (.csv _) | ocr .attribute | ocr .type => false

/-- `_communicate`, with the exit code. -/
def ProcessEnd.communicate : ProcessEnd → Except ReadError (ℤ × List UInt8)
  | osError => .error .osError
  | timeout => .error .timeout
  | cancelled => .error .cancelled
  | exited returncode stdout => .ok (returncode, stdout)

/-- `stdout.splitlines()[0].decode("ascii")`, or nothing of nothing. -/
def firstLine (stdout : List UInt8) : Except ReadError String :=
  let line := stdout.takeWhile fun b => b ≠ 10 && b ≠ 13
  if line.all fun b => b < 128 then .ok (String.ofList (line.map fun b => Char.ofNat b.toNat))
  else .error (.ocr .unicodeDecode)

/-- `version[:80]`. -/
def cutVersion (version : String) : Text 0 80 :=
  ⟨String.ofList (version.toList.take 80), by
    rw [String.length_ofList]
    exact ⟨Nat.zero_le _, List.length_take_le 80 _⟩⟩

namespace TesseractIdentifierOCR

/-- `_engine_version`. -/
def engineVersion (process : ProcessEnd) : Except ReadError (Option (Text 0 80)) := do
  let (returncode, stdout) ← process.communicate
  let version ← firstLine stdout
  if returncode = 0 ∧ "tesseract ".toList.isPrefixOf version.toList then
    return some (cutVersion version)
  else return none

variable (host : Host) (toDecimal : String → Option Decimal.Number)

/-- What `read` tries. -/
def recognize (engine process : ProcessEnd) : Except ReadError OCRIdentifiers := do
  match ← engineVersion engine with
  | none => .error (.ocr (.value "OCR engine version unavailable"))
  | some version =>
    let (returncode, stdout) ← process.communicate
    if returncode ≠ 0 then .error (.ocr (.value "OCR process exited unsuccessfully"))
    else
      match parseTesseractTsv host toDecimal stdout with
      | .error e => .error (.ocr e)
      | .ok parsed => .ok { parsed with engineVersion := some version }

/-- `TesseractIdentifierOCR.read`, of a document of this type, where the subprocesses end so. -/
def read (contentType : DocumentType) (engine process : ProcessEnd) :
    Except ReadError OCRIdentifiers :=
  if contentType = .pdf then .ok { status := .skipped }
  else
    match recognize host toDecimal engine process with
    | .ok result => .ok result
    | .error e => if e.caught then .ok { status := .unavailable } else .error e

end TesseractIdentifierOCR

open TesseractIdentifierOCR

/-! ## Rows that are too short -/

/-- A level-5 row is too short for its text, or for the confidence of its text. -/
def TruncatedWord (row : Csv.Row) : Prop :=
  row.get? "level" = some (some "5") ∧
    (row.get? "text" = some none ∨ ∃ text, row.get? "text" = some (some text) ∧
      pythonStrip text ≠ "" ∧ row.get? "conf" = some none)

/-- The rows of an output are read to its end, and none is too short. Nothing is asked of an output
that is too long or no text. -/
def Tabular (stdout : List UInt8) : Prop :=
  stdout.length ≤ maxOutputBytes → ∀ text, String.fromUTF8? ⟨stdout.toArray⟩ = some text →
    (Csv.rows tsv text.toList).2 = none ∧ ∀ row ∈ (Csv.rows tsv text.toList).1, ¬TruncatedWord row

/-- The engine has a version, and it printed `stdout` and exited with success. -/
def Printed (engine process : ProcessEnd) (stdout : List UInt8) : Prop :=
  (∃ version, engineVersion engine = .ok (some version)) ∧ process = .exited 0 stdout

/-- Nothing leaves the reading but a cancellation, and observations that are not complete leave the
extraction. -/
def Contained (extraction : InvoiceExtraction) (result : Except ReadError OCRIdentifiers) : Prop :=
  result = .error .cancelled ∨ ∃ observations, result = .ok observations ∧
    (observations.status ≠ .complete →
      reconcileIdentifiers extraction observations = .ok (extraction, []))

section

variable {host : Host} {toDecimal : String → Option Decimal.Number}

/-- A word is read of a row just when it is not too short. -/
theorem readWord_cases (row : Csv.Row) :
    ¬TruncatedWord row ∧ (∃ word, readWord toDecimal row = .ok word) ∨
      TruncatedWord row ∧
        (readWord toDecimal row = .error .attribute ∨ readWord toDecimal row = .error .type) := by
  unfold readWord TruncatedWord
  by_cases hlevel : row.get? "level" = some (some "5")
  · rw [if_pos hlevel]
    rcases htext : row.get? "text" with _ | _ | text
    · simp
    · simp [hlevel]
    · by_cases hblank : pythonStrip text = ""
      · simp [hblank]
      · rcases hconf : row.get? "conf" with _ | _ | conf
        · simp [hblank]
        · simp [hlevel, hblank]
        · refine .inl ⟨by simp, ?_⟩
          dsimp only
          rw [if_neg hblank]
          split
          · exact ⟨_, rfl⟩
          · exact ⟨_, rfl⟩
          · exact ⟨_, rfl⟩
          · split_ifs <;> exact ⟨_, rfl⟩
  · simp [hlevel]

theorem foldWords_cases (rows : List Csv.Row) : ∀ lines : List (LineKey × List OCRWord),
    (∀ row ∈ rows, ¬TruncatedWord row) ∧ (∃ lines', rows.foldlM (fun lines row => do
        match ← readWord toDecimal row with
        | none => return lines
        | some (key, word) => return addWord lines key word) lines = Except.ok lines') ∨
      (∃ row ∈ rows, TruncatedWord row) ∧ ∃ e : OCRError, (e = .attribute ∨ e = .type) ∧
        rows.foldlM (fun lines row => do
          match ← readWord toDecimal row with
          | none => return lines
          | some (key, word) => return addWord lines key word) lines = .error e := by
  induction rows with
  | nil => exact fun lines => .inl ⟨fun _ => nofun, lines, rfl⟩
  | cons row rows ih =>
    intro lines
    rw [List.foldlM_cons]
    rcases @readWord_cases toDecimal row with ⟨hrow, word, hword⟩ | ⟨hrow, herror⟩
    · rw [hword]
      have hnext : ∃ lines', (do
          match ← Except.ok word with
          | none => return lines
          | some (key, word) => return addWord lines key word : Except OCRError _) =
          .ok lines' := by
        rcases word with _ | ⟨key, word⟩ <;> exact ⟨_, rfl⟩
      obtain ⟨lines', hlines⟩ := hnext
      rw [hlines]
      rcases ih lines' with ⟨hrows, hok⟩ | ⟨⟨r, hmem, hr⟩, herror⟩
      · exact .inl ⟨List.forall_mem_cons.mpr ⟨hrow, hrows⟩, hok⟩
      · exact .inr ⟨⟨r, List.mem_cons_of_mem row hmem, hr⟩, herror⟩
    · refine .inr ⟨⟨row, List.mem_cons_self, hrow⟩, ?_⟩
      rcases herror with herror | herror <;> rw [herror]
      · exact ⟨.attribute, .inl rfl, rfl⟩
      · exact ⟨.type, .inr rfl, rfl⟩

/-- The parser raises value errors alone just on tabular outputs. -/
theorem parse_caught (stdout : List UInt8) :
    (∀ e, parseTesseractTsv host toDecimal stdout = .error e → (ReadError.ocr e).caught) ↔
      Tabular stdout := by
  unfold parseTesseractTsv Tabular
  split_ifs with hlong
  · simp [ReadError.caught, not_le.mpr hlong]
  · rw [not_lt] at hlong
    cases htext : String.fromUTF8? ⟨stdout.toArray⟩ with
    | none => simp [ReadError.caught]
    | some text =>
      simp only [hlong, true_implies, Option.some.injEq, forall_eq']
      generalize Csv.rows tsv text.toList = result
      obtain ⟨rows, stop⟩ := result
      dsimp only
      rcases @foldWords_cases toDecimal rows [] with
        ⟨hrows, lines, hlines⟩ | ⟨⟨row, hmem, hrow⟩, e, he, herror⟩
      · have hlines : readLines toDecimal rows = .ok lines := hlines
        rw [hlines]
        cases stop with
        | none =>
          obtain ⟨parsed, hparsed, -⟩ := @identifiersOf_holds host lines
          have hok : (Except.ok lines >>= fun lines => identifiersOf host lines) =
            .ok parsed := hparsed
          simpa [hok] using hrows
        | some error =>
          simp [bind, Except.bind, ReadError.caught]
      · have herror : readLines toDecimal rows = .error e := herror
        rw [herror]
        have hnot : ¬∀ row ∈ rows, ¬TruncatedWord row := fun h => h row hmem hrow
        rcases he with rfl | rfl <;> simp [bind, Except.bind, ReadError.caught, hnot]

theorem communicate_error {process : ProcessEnd} {e : ReadError}
    (h : process.communicate = .error e) : e.caught ∨ e = .cancelled := by
  cases process with
  | osError | timeout =>
    cases h
    exact .inl rfl
  | cancelled =>
    cases h
    exact .inr rfl
  | exited returncode stdout => cases h

theorem engineVersion_error {engine : ProcessEnd} {e : ReadError}
    (h : engineVersion engine = .error e) : e.caught ∨ e = .cancelled := by
  unfold engineVersion at h
  cases hend : engine.communicate with
  | error e' =>
    rw [hend] at h
    cases h
    exact communicate_error hend
  | ok printed =>
    obtain ⟨returncode, stdout⟩ := printed
    rw [hend] at h
    by_cases hascii : (stdout.takeWhile fun b => b ≠ 10 && b ≠ 13).all fun b => b < 128
    · simp only [firstLine, hascii, if_true, bind, Except.bind] at h
      split_ifs at h <;> cases h
    · simp only [firstLine, hascii, bind, Except.bind] at h
      cases h
      exact .inl rfl

/-- What the reading fails with is caught, is a cancellation, or is what the parser raised. -/
theorem recognize_error {engine process : ProcessEnd} {e : ReadError}
    (h : recognize host toDecimal engine process = .error e) :
    (e.caught ∨ e = .cancelled) ∨ ∃ stdout error, Printed engine process stdout ∧
      parseTesseractTsv host toDecimal stdout = .error error ∧ e = .ocr error := by
  unfold recognize at h
  cases hengine : engineVersion engine with
  | error e' =>
    rw [hengine] at h
    cases h
    exact .inl (engineVersion_error hengine)
  | ok version =>
    rw [hengine] at h
    cases version with
    | none =>
      cases h
      exact .inl (.inl rfl)
    | some version =>
      cases hend : process.communicate with
      | error e' =>
        simp only [hend, bind, Except.bind] at h
        cases h
        exact .inl (communicate_error hend)
      | ok printed =>
        obtain ⟨returncode, stdout⟩ := printed
        simp only [hend, bind, Except.bind] at h
        split_ifs at h with hcode
        · cases h
          exact .inl (.inl rfl)
        · cases hparse : parseTesseractTsv host toDecimal stdout with
          | ok parsed => simp [hparse] at h
          | error error =>
            simp only [hparse] at h
            cases h
            refine .inr ⟨stdout, error, ⟨⟨version, hengine⟩, ?_⟩, hparse, rfl⟩
            cases process with
            | exited code out =>
              cases hend
              rw [not_not.mp hcode]
            | _ => cases hend

theorem recognize_printed {engine process : ProcessEnd} {stdout : List UInt8} {error : OCRError}
    (h : Printed engine process stdout)
    (hparse : parseTesseractTsv host toDecimal stdout = .error error) :
    recognize host toDecimal engine process = .error (.ocr error) := by
  obtain ⟨⟨version, hengine⟩, rfl⟩ := h
  simp only [recognize, hengine, ProcessEnd.communicate, bind, Except.bind, ne_eq,
    not_true_eq_false,
    if_false, hparse]

end

/-- Just where the engine prints an output that is no table does something else than a cancellation
leave the reading. -/
theorem ocr_read_contained_iff (host : Host) (toDecimal : String → Option Decimal.Number)
    (extraction : InvoiceExtraction) (contentType : DocumentType) (engine process : ProcessEnd) :
    Contained extraction (TesseractIdentifierOCR.read host toDecimal contentType engine process) ↔
      contentType = .pdf ∨ ∀ stdout, Printed engine process stdout → Tabular stdout := by
  have hkept (observations : OCRIdentifiers) : observations.status ≠ .complete →
      reconcileIdentifiers extraction observations = .ok (extraction, []) := fun h => if_pos h
  unfold TesseractIdentifierOCR.read
  split_ifs with hpdf
  · exact ⟨fun _ => .inl hpdf, fun _ => .inr ⟨_, rfl, hkept _⟩⟩
  rw [or_iff_right hpdf]
  constructor
  · intro hcontained stdout hprinted
    refine (@parse_caught host toDecimal stdout).mp fun error hparse => ?_
    rw [recognize_printed hprinted hparse] at hcontained
    by_contra huncaught
    dsimp only at hcontained
    rw [if_neg huncaught] at hcontained
    rcases hcontained with h | ⟨observations, h, -⟩ <;> cases h
  · intro htabular
    cases hrun : recognize host toDecimal engine process with
    | ok result => exact .inr ⟨result, rfl, hkept result⟩
    | error e =>
      dsimp only
      by_cases hcaught : e.caught
      · rw [if_pos hcaught]
        exact .inr ⟨_, rfl, hkept _⟩
      · rw [if_neg hcaught]
        rcases recognize_error hrun with (h | rfl) | ⟨stdout, error, hprinted, hparse, rfl⟩
        · exact absurd h hcaught
        · exact .inl rfl
        · exact absurd ((@parse_caught host toDecimal stdout).mpr (htabular stdout hprinted) error
            hparse) hcaught

/-- A row of the level alone. -/
def truncatedPage : String :=
  "level\ttext\n5\n"

/-- `None.strip()` leaves the reading. -/
theorem ocr_read_truncatedPage : ¬Contained .unread
    (TesseractIdentifierOCR.read .sample (fun _ => none) .png
      (.exited 0 "tesseract 5.3.4\n".toUTF8.toList)
      (.exited 0 truncatedPage.toUTF8.toList)) := by
  have hraised : TesseractIdentifierOCR.read .sample (fun _ => none) .png
      (.exited 0 "tesseract 5.3.4\n".toUTF8.toList) (.exited 0 truncatedPage.toUTF8.toList) =
        .error (.ocr .attribute) := by decide +kernel
  rw [hraised]
  rintro (h | ⟨observations, h, -⟩) <;> cases h

end InvoiceOps
