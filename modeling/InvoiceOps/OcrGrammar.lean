import Mathlib.Order.Bounds.Defs
import InvoiceOps.Ocr

/-!
# The grammar of OCR output

The engine prints a header and a row of its columns per line, and quotes nothing. `Page.Only` says
what identifier such a page has : what the only qualifying line of its kind says. The reader of the
parser knows quotes. It reads back the rows just of plain pages, and of plain pages the parser
returns what the grammar says (`parse_tesseract_tsv_grammar`). A quote at the start of a word takes
the rows after it in, and hides a second account (`parse_tesseract_tsv_quotedPage`).
-/

namespace InvoiceOps

/-! ## Pages -/

/-- The header of the engine. -/
def columns : List String :=
  ["level", "page_num", "block_num", "par_num", "line_num", "word_num", "left", "top", "width",
    "height", "conf", "text"]

/-- A row of a page, by column. -/
structure PageRow where
  level : String
  pageNum : String
  blockNum : String
  parNum : String
  lineNum : String
  wordNum : String
  left : String
  top : String
  width : String
  height : String
  conf : String
  text : String
  deriving DecidableEq

namespace PageRow

variable (row : PageRow)

/-- The row under the header. -/
def fields : List String :=
  [row.level, row.pageNum, row.blockNum, row.parNum, row.lineNum, row.wordNum, row.left, row.top,
    row.width, row.height, row.conf, row.text]

/-- The line of a row. -/
def key : LineKey :=
  ⟨some row.pageNum, some row.blockNum, some row.parNum, some row.lineNum⟩

/-- The word of a row of level 5 with a text and a usable confidence. -/
def word (toDecimal : String → Option Decimal.Number) : Option OCRWord :=
  if row.level = "5" ∧ pythonStrip row.text ≠ "" then
    match toDecimal row.conf with
    | some (.finite d) =>
      if h : 0 ≤ d.value ∧ d.value ≤ 100 then some ⟨pythonStrip row.text, ⟨d, h⟩⟩ else none
    | _ => none
  else none

end PageRow

/-- The rows of a page. Their fields have neither tabs nor newlines. -/
structure Page where
  rows : List PageRow
  printable : ∀ row ∈ rows, ∀ field ∈ row.fields, tsv.Field field

namespace Page

variable (page : Page)

/-- What the engine prints. -/
def printed : List (List String) :=
  columns :: page.rows.map PageRow.fields

/-- The output of the engine. -/
def bytes : List UInt8 :=
  (String.ofList (Csv.printRows tsv page.printed)).toUTF8.data.toList

/-- No field starts with a quote, has a carriage return or is too long for the reader. -/
def Plain : Prop :=
  ∀ row ∈ page.rows, ∀ field ∈ row.fields, tsv.Plain field

end Page

/-- The words that some rows have in a line. -/
def lineWords (toDecimal : String → Option Decimal.Number) (rows : List PageRow) (key : LineKey) :
    List OCRWord :=
  rows.filterMap fun row => if row.key = key then row.word toDecimal else none

/-! ## The grammar -/

/-- A line with the label of a kind, and a value of its shape in the words after the label. -/
inductive Labelled (host : Host) : IdentifierKind → List OCRWord → List Char → List OCRWord → Prop
  | bank {first second word : OCRWord} {rest : List OCRWord}
      (hbank : labelText host first.text = "bank") (hiban : labelText host second.text = "iban")
      (hshape : isIbanShape
        (readCheckDigits (host.upper (joined (word :: rest))).toList)) :
      Labelled host .bank (first :: second :: word :: rest)
        (readCheckDigits (host.upper (joined (word :: rest))).toList) (word :: rest)
  | po {first word : OCRWord} {rest : List OCRWord} (hpo : labelText host first.text = "po")
      (hshape : isPoShape (joined (word :: rest)).toList) :
      Labelled host .po (first :: word :: rest) (joined (word :: rest)).toList (word :: rest)

/-- A labelled line whose words have enough confidence. -/
def Qualifies (host : Host) (kind : IdentifierKind) (words : List OCRWord) (value : String)
    (confidence : ℚ) : Prop :=
  ∃ values, Labelled host kind words value.toList values ∧
    IsLeast {q | ∃ w ∈ values, w.confidence.val.value = q} confidence ∧ 70 ≤ confidence

/-- What the only qualifying line of a page says. -/
def Page.Only (host : Host) (toDecimal : String → Option Decimal.Number) (page : Page)
    (kind : IdentifierKind) (value : String) (confidence : ℚ) : Prop :=
  ∃ key, Qualifies host kind (lineWords toDecimal page.rows key) value confidence ∧
    ∀ key' value' confidence',
      Qualifies host kind (lineWords toDecimal page.rows key') value' confidence' → key' = key

/-- What was read of a kind. -/
def OCRIdentifiers.get (observations : OCRIdentifiers) : IdentifierKind → Option OCRIdentifier
  | .bank => observations.bankAccountIban
  | .po => observations.poNumber

/-- Two lines of a page qualify. -/
def Page.Ambiguous (host : Host) (toDecimal : String → Option Decimal.Number) (page : Page)
    (kind : IdentifierKind) : Prop :=
  ∃ key key', key ≠ key' ∧
    (∃ value confidence,
      Qualifies host kind (lineWords toDecimal page.rows key) value confidence) ∧
    ∃ value confidence,
      Qualifies host kind (lineWords toDecimal page.rows key') value confidence

/-- The parser returns what the grammar says of a page, and nothing where it is ambiguous. -/
def Page.Implemented (host : Host) (toDecimal : String → Option Decimal.Number) (page : Page) :
    Prop :=
  ∃ observations, parseTesseractTsv host toDecimal page.bytes = .ok observations ∧
    (∀ kind value confidence,
      (∃ i ∈ observations.get kind, i.value.val = value ∧ i.confidence.val.value = confidence) ↔
        page.Only host toDecimal kind value confidence) ∧
    ∀ kind, page.Ambiguous host toDecimal kind → observations.get kind = none

/-! ## Lines -/

section

variable {host : Host} {toDecimal : String → Option Decimal.Number}

theorem labelled_iff {words : List OCRWord} {kind : IdentifierKind} {raw : List Char}
    {values : List OCRWord} : Labelled host kind words raw values ↔
      ∃ word rest, values = word :: rest ∧ labelled host words kind = some (raw, word, rest) := by
  constructor
  · rintro (⟨hbank, hiban, hshape⟩ | ⟨hpo, hshape⟩)
    · have hlength := length_of_isIbanShape hshape
      refine ⟨_, _, rfl, ?_⟩
      simp only [labelled]
      rw [if_pos ⟨hbank, hiban⟩, if_pos ⟨hshape, by omega⟩]
    · refine ⟨_, _, rfl, ?_⟩
      simp only [labelled]
      rw [if_pos hpo, if_pos hshape]
  · rintro ⟨word, rest, rfl, h⟩
    unfold labelled at h
    split at h
    · split at h
      · obtain ⟨⟨hbank, hiban⟩, hshape, hfound⟩ := by
          simpa only [Option.ite_none_right_eq_some] using h
        cases hfound
        exact .bank hbank hiban hshape.1
      · cases h
    · split at h
      · obtain ⟨hpo, hshape, hfound⟩ := by simpa only [Option.ite_none_right_eq_some] using h
        cases hfound
        exact .po hpo hshape
      · cases h

/-- The fold of `min`, from the confidence of the words before. -/
theorem isLeast_foldl (words : List OCRWord) : ∀ least : OCRConfidence,
    IsLeast {q | least.val.value = q ∨ ∃ w ∈ words, w.confidence.val.value = q}
      (words.foldl (fun least w => if w.confidence.val.value < least.val.value then w.confidence
        else least) least).val.value := by
  induction words with
  | nil => simp [IsLeast]
  | cons w words ih =>
    intro least
    rw [List.foldl_cons]
    obtain ⟨hmem, hlower⟩ := ih (if w.confidence.val.value < least.val.value then w.confidence
      else least)
    have hmin : (if w.confidence.val.value < least.val.value then w.confidence
        else least).val.value ≤ least.val.value ∧ (if w.confidence.val.value < least.val.value
        then w.confidence else least).val.value ≤ w.confidence.val.value := by
      split_ifs with h
      · exact ⟨h.le, le_rfl⟩
      · exact ⟨le_rfl, not_lt.mp h⟩
    refine ⟨?_, ?_⟩
    · rcases hmem with hmem | ⟨w', hw', hq⟩
      · rw [Set.mem_ofPred_eq, ← hmem]
        split_ifs
        · exact .inr ⟨w, List.mem_cons_self, rfl⟩
        · exact .inl rfl
      · exact .inr ⟨w', List.mem_cons_of_mem w hw', hq⟩
    · rintro q (rfl | ⟨w', hw', rfl⟩)
      · exact (hlower (.inl rfl)).trans hmin.1
      · rcases List.mem_cons.mp hw' with rfl | hw'
        · exact (hlower (.inl rfl)).trans hmin.2
        · exact hlower (.inr ⟨w', hw', rfl⟩)

theorem isLeast_leastConfidence (word : OCRWord) (rest : List OCRWord) :
    IsLeast {q | ∃ w ∈ word :: rest, w.confidence.val.value = q}
      (leastConfidence word rest).val.value := by
  simpa only [leastConfidence, List.mem_cons, exists_eq_or_imp] using
    isLeast_foldl rest word.confidence

variable (host) in
/-- What `_identifier` finds in a line. It raises nothing. -/
def foundIn (kind : IdentifierKind) (words : List OCRWord) : Option OCRIdentifier :=
  match identifier host words kind with
  | .ok found => found
  | .error _ => none

theorem identifier_eq (words : List OCRWord) (kind : IdentifierKind) :
    identifier host words kind = .ok (foundIn host kind words) := by
  obtain ⟨found, hfound, -⟩ := @identifier_shape host words kind
  rw [foundIn, hfound]

/-- A line has what qualifies it. -/
theorem foundIn_iff {words : List OCRWord} {kind : IdentifierKind} {value : String}
    {confidence : ℚ} :
    (∃ i ∈ foundIn host kind words, i.value.val = value ∧ i.confidence.val.value = confidence) ↔
      Qualifies host kind words value confidence := by
  have hfound := @identifier_eq host words kind
  unfold identifier at hfound
  constructor
  · rintro ⟨i, hi, rfl, rfl⟩
    rw [Option.mem_def] at hi
    rw [hi] at hfound
    cases hlabelled : labelled host words kind with
    | none => simp [hlabelled] at hfound
    | some line =>
      obtain ⟨raw, word, rest⟩ := line
      obtain ⟨j, hbuild, hvalue, hconfidence⟩ :=
        build_of_shape (labelled_shape hlabelled) (leastConfidence word rest)
      simp only [hlabelled] at hfound
      split_ifs at hfound with henough
      · rw [hbuild] at hfound
        cases hfound
        refine ⟨word :: rest, labelled_iff.mpr ⟨word, rest, rfl, ?_⟩, ?_, ?_⟩
        · rw [hvalue, String.toList_ofList, hlabelled]
        · rw [hconfidence]
          exact isLeast_leastConfidence word rest
        · rw [hconfidence]
          exact henough
      · cases hfound
  · rintro ⟨values, hline, hleast, henough⟩
    obtain ⟨word, rest, rfl, hlabelled⟩ := labelled_iff.mp hline
    have hconfidence : (leastConfidence word rest).val.value = confidence :=
      (isLeast_leastConfidence word rest).unique hleast
    obtain ⟨i, hbuild, hvalue, hi⟩ :=
      build_of_shape (labelled_shape hlabelled) (leastConfidence word rest)
    simp only [hlabelled] at hfound
    rw [if_pos (hconfidence ▸ henough), hbuild] at hfound
    refine ⟨i, (Except.ok.inj hfound).symm, ?_, ?_⟩
    · rw [hvalue, String.ofList_toList]
    · rw [hi, hconfidence]

/-- The identifiers of a kind that some lines have. -/
theorem identifiersOf_eq (lines : List (LineKey × List OCRWord)) :
    ∃ observations, identifiersOf host lines = .ok observations ∧ ∀ kind,
      observations.get kind = single (lines.filterMap fun line => foundIn host kind line.2) := by
  have hfound : (lines.mapM fun line => do
      return (← identifier host line.2 .bank, ← identifier host line.2 .po)) =
        Except.ok (ε := OCRError)
          (lines.map fun line => (foundIn host .bank line.2, foundIn host .po line.2)) := by
    simp only [identifier_eq]
    exact List.mapM_pure
  refine ⟨_, by rw [identifiersOf, hfound]; rfl, fun kind => ?_⟩
  cases kind <;> simp [OCRIdentifiers.get, List.filterMap_map]

/-! ## Grouping -/

/-- The row that the reader makes of a row. -/
def PageRow.read (row : PageRow) : Csv.Row :=
  ⟨columns, row.fields⟩

theorem readWord_read (row : PageRow) : readWord toDecimal row.read =
    .ok ((row.word toDecimal).map fun word => (row.key, word)) := by
  have hlevel : row.read.get? "level" = some (some row.level) := by
    simp [PageRow.read, PageRow.fields, columns, Csv.Row.get?]
  have htext : row.read.get? "text" = some (some row.text) := by
    simp [PageRow.read, PageRow.fields, columns, Csv.Row.get?]
  have hconf : row.read.get? "conf" = some (some row.conf) := by
    simp [PageRow.read, PageRow.fields, columns, Csv.Row.get?]
  have hkey : lineKey row.read = some row.key := by
    simp [lineKey, PageRow.read, PageRow.fields, PageRow.key, columns, Csv.Row.get?]
  unfold readWord PageRow.word
  rw [hlevel, htext, hconf, hkey]
  by_cases h5 : row.level = "5"
  · by_cases hblank : pythonStrip row.text = ""
    · simp [h5, hblank]
    · rw [if_pos (by rw [h5]), if_pos ⟨h5, hblank⟩]
      dsimp only
      rw [if_neg hblank]
      cases toDecimal row.conf with
      | none => rfl
      | some number =>
        cases number with
        | finite d =>
          dsimp only
          split_ifs <;> rfl
        | _ => rfl
  · simp [h5]

theorem lineWords_concat (rows : List PageRow) (row : PageRow) (key : LineKey) :
    lineWords toDecimal (rows ++ [row]) key = lineWords toDecimal rows key ++
      (if row.key = key then row.word toDecimal else none).toList := by
  rw [lineWords, List.filterMap_append]
  cases h : if row.key = key then row.word toDecimal else none <;> simp [lineWords, h]

/-- Lines under their keys, each with the words that some rows have in it. -/
structure Grouped (toDecimal : String → Option Decimal.Number) (rows : List PageRow)
    (lines : List (LineKey × List OCRWord)) : Prop where
  nodup : (lines.map Prod.fst).Nodup
  words : ∀ line ∈ lines, line.2 = lineWords toDecimal rows line.1
  keys : ∀ key, lineWords toDecimal rows key ≠ [] → key ∈ lines.map Prod.fst

theorem Grouped.concat_none {rows : List PageRow} {lines : List (LineKey × List OCRWord)}
    (h : Grouped toDecimal rows lines) {row : PageRow} (hrow : row.word toDecimal = none) :
    Grouped toDecimal (rows ++ [row]) lines := by
  have hsame (key : LineKey) :
      lineWords toDecimal (rows ++ [row]) key = lineWords toDecimal rows key := by
    simp [lineWords_concat, hrow]
  exact ⟨h.nodup, fun line hline => by rw [hsame, h.words line hline], fun key hkey =>
    h.keys key (by rwa [hsame] at hkey)⟩

/-- The word of a row goes to its line. -/
theorem Grouped.concat_some {rows : List PageRow} {lines : List (LineKey × List OCRWord)}
    (h : Grouped toDecimal rows lines) {row : PageRow} {word : OCRWord}
    (hrow : row.word toDecimal = some word) :
    Grouped toDecimal (rows ++ [row]) (addWord lines row.key word) := by
  have hother {key : LineKey} (hkey : row.key ≠ key) :
      lineWords toDecimal (rows ++ [row]) key = lineWords toDecimal rows key := by
    simp [lineWords_concat, hkey]
  have hself : lineWords toDecimal (rows ++ [row]) row.key =
      lineWords toDecimal rows row.key ++ [word] := by
    simp [lineWords_concat, hrow]
  unfold addWord
  split_ifs with hmem
  · have hkeys : (lines.map fun line => if line.1 = row.key then (row.key, line.2 ++ [word])
        else line).map Prod.fst = lines.map Prod.fst := by
      rw [List.map_map]
      refine List.map_congr_left fun line _ => ?_
      rw [Function.comp_apply]
      split_ifs with heq
      · exact heq.symm
      · rfl
    refine ⟨hkeys ▸ h.nodup, fun line hline => ?_, fun key hkey => hkeys ▸ ?_⟩
    · obtain ⟨old, hold, rfl⟩ := List.mem_map.mp hline
      split_ifs with heq
      · rw [hself, h.words old hold, heq]
      · rw [hother (Ne.symm heq), h.words old hold]
    · by_cases heq : row.key = key
      · exact heq ▸ hmem
      · exact h.keys key (by rwa [hother heq] at hkey)
  · have hnone : lineWords toDecimal rows row.key = [] := by
      by_contra hwords
      exact hmem (h.keys row.key hwords)
    refine ⟨?_, fun line hline => ?_, fun key hkey => ?_⟩
    · rw [List.map_append, List.map_singleton, List.nodup_append]
      exact ⟨h.nodup, List.nodup_singleton _, fun key hkey key' hkey' heq =>
        hmem (by rwa [heq, List.mem_singleton.mp hkey'] at hkey)⟩
    · rcases List.mem_append.mp hline with hline | hline
      · have hne : row.key ≠ line.1 := fun heq =>
          hmem (heq ▸ List.mem_map_of_mem hline)
        rw [hother hne, h.words line hline]
      · rw [List.mem_singleton.mp hline, hself, hnone]
        rfl
    · rw [List.map_append, List.map_singleton, List.mem_append, List.mem_singleton]
      by_cases heq : row.key = key
      · exact .inr heq.symm
      · exact .inl (h.keys key (by rwa [hother heq] at hkey))

/-- The words of a page by line. -/
theorem readLines_grouped (rows : List PageRow) : ∃ lines,
    readLines toDecimal (rows.map PageRow.read) = .ok lines ∧ Grouped toDecimal rows lines := by
  induction rows using List.reverseRecOn with
  | nil => exact ⟨[], rfl, List.nodup_nil, by simp, fun key hkey => absurd rfl hkey⟩
  | append_singleton rows row ih =>
    obtain ⟨lines, hlines, hgrouped⟩ := ih
    rw [readLines] at hlines ⊢
    rw [List.map_append, List.foldlM_append, hlines, List.map_singleton]
    cases hrow : row.word toDecimal with
    | none =>
      refine ⟨lines, ?_, hgrouped.concat_none hrow⟩
      simp [bind, Except.bind, pure, Except.pure, readWord_read, hrow]
    | some word =>
      refine ⟨addWord lines row.key word, ?_, hgrouped.concat_some hrow⟩
      simp [bind, Except.bind, pure, Except.pure, readWord_read, hrow]

theorem single_cons {α : Type} {x y : α} {xs : List α} :
    y ∈ single (x :: xs) ↔ x = y ∧ xs = [] := by
  cases xs <;> simp [single]

/-- The only image is of the only one that has one. -/
theorem mem_single_filterMap {α β : Type} {f : α → Option β} {y : β} : ∀ {xs : List α}, xs.Nodup →
    (y ∈ single (xs.filterMap f) ↔
      ∃ x ∈ xs, f x = some y ∧ ∀ x' ∈ xs, ∀ y', f x' = some y' → x' = x)
  | [], _ => by simp [single]
  | a :: xs, h => by
    obtain ⟨ha, hxs⟩ := List.nodup_cons.mp h
    cases hfa : f a with
    | none =>
      rw [List.filterMap_cons_none hfa, mem_single_filterMap hxs]
      simp [hfa]
    | some z =>
      rw [List.filterMap_cons_some hfa, single_cons, List.filterMap_eq_nil_iff]
      constructor
      · rintro ⟨rfl, hnone⟩
        refine ⟨a, List.mem_cons_self, hfa, List.forall_mem_cons.mpr ⟨fun _ _ => rfl, ?_⟩⟩
        intro x hx y' hy'
        rw [hnone x hx] at hy'
        cases hy'
      · rintro ⟨x, hx, hfx, honly⟩
        have hax : a = x := honly a List.mem_cons_self z hfa
        rw [← hax, hfa] at hfx
        refine ⟨Option.some.inj hfx, fun x' hx' => Option.eq_none_iff_forall_ne_some.mpr ?_⟩
        intro y' hy'
        have hx'a : x' = a := (honly x' (List.mem_cons_of_mem a hx') y' hy').trans hax.symm
        exact ha (hx'a ▸ hx')

/-! ## Plain pages -/

theorem Labelled.ne_nil {kind : IdentifierKind} {words values : List OCRWord} {raw : List Char}
    (h : Labelled host kind words raw values) : words ≠ [] := by
  cases h <;> exact List.cons_ne_nil _ _

/-- The only qualifying line of a page is that of its lines. -/
theorem Grouped.only_iff {page : Page} {lines : List (LineKey × List OCRWord)}
    (h : Grouped toDecimal page.rows lines) {kind : IdentifierKind} {value : String}
    {confidence : ℚ} :
    (∃ i ∈ single (lines.filterMap fun line => foundIn host kind line.2),
      i.value.val = value ∧ i.confidence.val.value = confidence) ↔
        page.Only host toDecimal kind value confidence := by
  have hline {key : LineKey} {value : String} {confidence : ℚ}
      (hqualifies : Qualifies host kind (lineWords toDecimal page.rows key) value confidence) :
      (key, lineWords toDecimal page.rows key) ∈ lines := by
    obtain ⟨values, hlabelled, -⟩ := hqualifies
    obtain ⟨line, hmem, rfl⟩ := List.mem_map.mp (h.keys key hlabelled.ne_nil)
    rwa [← h.words line hmem]
  constructor
  · rintro ⟨i, hi, rfl, rfl⟩
    obtain ⟨line, hmem, hfound, honly⟩ := (mem_single_filterMap (.of_map _ h.nodup)).mp hi
    refine ⟨line.1, ?_, fun key value confidence hqualifies => ?_⟩
    · rw [← h.words line hmem]
      exact foundIn_iff.mp ⟨i, hfound, rfl, rfl⟩
    · obtain ⟨i', hi', -⟩ := foundIn_iff.mpr hqualifies
      exact congrArg Prod.fst (honly _ (hline hqualifies) i' hi')
  · rintro ⟨key, hqualifies, honly⟩
    obtain ⟨i, hi, hvalue, hconfidence⟩ := foundIn_iff.mpr hqualifies
    refine ⟨i, (mem_single_filterMap (.of_map _ h.nodup)).mpr
      ⟨_, hline hqualifies, hi, fun line hmem i' hi' => ?_⟩, hvalue, hconfidence⟩
    have hkey : line.1 = key := by
      refine honly line.1 i'.value.val i'.confidence.val.value ?_
      rw [← h.words line hmem]
      exact foundIn_iff.mp ⟨i', hi', rfl, rfl⟩
    exact Prod.ext hkey (by rw [h.words line hmem, hkey])

end

/-- Whether a field can be printed and read back. -/
def isPlain (field : String) : Bool :=
  field.toList.all (fun c => c ≠ '\t' && c ≠ '\n' && c ≠ '\r' && c ≠ '"') &&
    field.length ≤ tsv.fieldLimit

theorem field_of_isPlain {field : String} (h : isPlain field) :
    tsv.Field field ∧ tsv.Plain field := by
  obtain ⟨hchars, hlength⟩ := Bool.and_eq_true_iff.mp h
  have hchar {c : Char} (hc : c ∈ field.toList) : c ≠ '\t' ∧ c ≠ '\n' ∧ c ≠ '\r' ∧ c ≠ '"' := by
    simpa [and_assoc] using List.all_eq_true.mp hchars c hc
  refine ⟨⟨fun hc => (hchar hc).1 rfl, fun hc => (hchar hc).2.1 rfl⟩, fun hhead => ?_,
    fun hc => (hchar hc).2.2.1 rfl, of_decide_eq_true hlength⟩
  exact (hchar (List.mem_of_head? hhead)).2.2.2 rfl

theorem columns_plain : ∀ field ∈ columns, tsv.Field field ∧ tsv.Plain field := by
  have hall : columns.all isPlain = true := by decide +kernel
  exact fun field hfield => field_of_isPlain (List.all_eq_true.mp hall field hfield)

namespace Page

variable {page : Page}

theorem printed_printable : ∀ row ∈ page.printed, tsv.Printable row := by
  intro row hrow
  rcases List.mem_cons.mp hrow with rfl | hrow
  · exact ⟨by simp [columns], by simp [columns], fun field hfield => (columns_plain field hfield).1⟩
  · obtain ⟨r, hr, rfl⟩ := List.mem_map.mp hrow
    exact ⟨by simp [PageRow.fields], by simp [PageRow.fields], page.printable r hr⟩

theorem records_printed : Csv.records tsv .start (Csv.lines (Csv.printRows tsv page.printed)) =
    (page.printed, none) ↔ page.Plain := by
  rw [Csv.records_printRows_iff printed_printable]
  simp only [printed, List.forall_mem_cons, List.forall_mem_map]
  exact and_iff_right fun field hfield => (columns_plain field hfield).2

theorem rows_printed (h : page.Plain) :
    Csv.rows tsv (Csv.printRows tsv page.printed) = (page.rows.map PageRow.read, none) := by
  have hfull : (page.rows.map PageRow.fields).filter (fun row => row ≠ []) =
      page.rows.map PageRow.fields := by
    simp [List.filter_eq_self, PageRow.fields]
  rw [Csv.rows, records_printed.mpr h, printed]
  dsimp only
  rw [hfull, List.map_map]
  rfl

theorem fromUTF8_bytes :
    String.fromUTF8? ⟨page.bytes.toArray⟩ =
      some (String.ofList (Csv.printRows tsv page.printed)) := by
  rw [bytes, Array.toArray_toList]
  generalize String.ofList (Csv.printRows tsv page.printed) = text
  exact dif_pos text.isValidUTF8

/-- The parser reads the rows that are printed. -/
theorem parse_bytes {host : Host} {toDecimal : String → Option Decimal.Number}
    (h : page.bytes.length ≤ maxOutputBytes) {rows : List Csv.Row} {stop : Option Csv.Error}
    (hrows : Csv.rows tsv (Csv.printRows tsv page.printed) = (rows, stop)) :
    parseTesseractTsv host toDecimal page.bytes =
      readLines toDecimal rows >>= fun lines =>
        match stop with
        | some error => .error (.csv error)
        | none => identifiersOf host lines := by
  have htext : Csv.rows tsv (String.ofList (Csv.printRows tsv page.printed)).toList =
      (rows, stop) := by rw [String.toList_ofList, hrows]
  unfold parseTesseractTsv
  rw [if_neg (Nat.not_lt.mpr h), fromUTF8_bytes]
  dsimp only
  generalize Csv.rows tsv (String.ofList (Csv.printRows tsv page.printed)).toList = read at htext ⊢
  subst htext
  rfl

end Page

theorem Page.Ambiguous.not_only {host : Host} {toDecimal : String → Option Decimal.Number}
    {page : Page} {kind : IdentifierKind} (h : page.Ambiguous host toDecimal kind) (value : String)
    (confidence : ℚ) : ¬page.Only host toDecimal kind value confidence := by
  rintro ⟨key, -, honly⟩
  obtain ⟨key₁, key₂, hne, ⟨value₁, confidence₁, h₁⟩, value₂, confidence₂, h₂⟩ := h
  exact hne ((honly key₁ value₁ confidence₁ h₁).trans (honly key₂ value₂ confidence₂ h₂).symm)

/-- The rows of a page are read back just when it is plain, and then the parser returns what the
grammar says. -/
theorem parse_tesseract_tsv_grammar (host : Host) (toDecimal : String → Option Decimal.Number)
    (page : Page) :
    (Csv.records tsv .start (Csv.lines (Csv.printRows tsv page.printed)) = (page.printed, none) ↔
      page.Plain) ∧
    (page.bytes.length ≤ maxOutputBytes → page.Plain → page.Implemented host toDecimal) := by
  refine ⟨Page.records_printed, fun hlength hplain => ?_⟩
  obtain ⟨lines, hlines, hgrouped⟩ := @readLines_grouped toDecimal page.rows
  obtain ⟨observations, hobservations, hget⟩ := @identifiersOf_eq host lines
  have honly (kind : IdentifierKind) (value : String) (confidence : ℚ) :
      (∃ i ∈ observations.get kind, i.value.val = value ∧ i.confidence.val.value = confidence) ↔
        page.Only host toDecimal kind value confidence := by
    rw [hget kind]
    exact hgrouped.only_iff
  refine ⟨observations, ?_, honly, fun kind hambiguous => ?_⟩
  · rw [Page.parse_bytes hlength (Page.rows_printed hplain), hlines]
    exact hobservations
  · cases hfound : observations.get kind with
    | none => rfl
    | some i => exact absurd ((honly kind _ _).mp ⟨i, hfound, rfl, rfl⟩) (hambiguous.not_only _ _)


/-! ## A quote -/

/-- A word of a line. -/
def pageWord (line text : String) : PageRow :=
  ⟨"5", "1", "1", "1", line, "1", "", "", "", "", "90", text⟩

/-- Two orders, and a quote before the second. -/
def quotedRows : List PageRow :=
  [pageWord "1" "PO:", pageWord "1" "PO-1", pageWord "2" "\"", pageWord "3" "PO:",
    pageWord "3" "PO-2"]

theorem quotedRows_printable : ∀ row ∈ quotedRows, ∀ field ∈ row.fields, tsv.Field field := by
  have hchars : ∀ row ∈ quotedRows, ∀ field ∈ row.fields,
      '\t' ∉ field.toList ∧ '\n' ∉ field.toList := by decide +kernel
  intro row hrow field hfield
  obtain ⟨htab, hnewline⟩ := hchars row hrow field hfield
  exact ⟨htab, hnewline⟩

/-- The page of those rows. -/
def quotedPage : Page :=
  ⟨quotedRows, quotedRows_printable⟩

/-- The rows as they are read. The last is that of the quote. -/
def quotedTable : List Csv.Row :=
  [(pageWord "1" "PO:").read, (pageWord "1" "PO-1").read,
    (pageWord "2" (String.ofList ('\n' :: Csv.printRows tsv
      [(pageWord "3" "PO:").fields, (pageWord "3" "PO-2").fields]))).read]

/-- A number as Python reads it, of a plain text. -/
def sampleDecimal (text : String) : Option Decimal.Number :=
  (Decimal.parse text.toList).map .finite

/-- The second order is hidden by the quote. -/
theorem parse_tesseract_tsv_quotedPage : ¬quotedPage.Implemented Host.sample sampleDecimal := by
  rintro ⟨observations, hparse, -, hnone⟩
  have hlength : quotedPage.bytes.length ≤ maxOutputBytes := by decide +kernel
  have hrows : Csv.rows tsv (Csv.printRows tsv quotedPage.printed) = (quotedTable, none) := by
    decide +kernel
  have hfound : (readLines sampleDecimal quotedTable >>= identifiersOf Host.sample).map
      (fun observations => (observations.get .po).isSome) = .ok true := by decide +kernel
  have hqualifies (key : LineKey)
      (h : (foundIn Host.sample .po (lineWords sampleDecimal quotedRows key)).isSome) :
      ∃ value confidence,
        Qualifies Host.sample .po (lineWords sampleDecimal quotedRows key) value confidence := by
    obtain ⟨i, hi⟩ := Option.isSome_iff_exists.mp h
    exact ⟨_, _, foundIn_iff.mp ⟨i, hi, rfl, rfl⟩⟩
  have hambiguous : quotedPage.Ambiguous Host.sample sampleDecimal .po :=
    ⟨(pageWord "1" "PO:").key, (pageWord "3" "PO:").key, by decide,
      hqualifies _ (by decide +kernel), hqualifies _ (by decide +kernel)⟩
  have hrun : readLines sampleDecimal quotedTable >>= identifiersOf Host.sample =
      .ok observations := (Page.parse_bytes hlength hrows).symm.trans hparse
  rw [hrun] at hfound
  simp [Except.map, hnone .po hambiguous] at hfound

end InvoiceOps
