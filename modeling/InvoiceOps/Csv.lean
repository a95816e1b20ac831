import Mathlib.Data.List.Basic
import Mathlib.Tactic.Common

/-!
# Reading delimited text

`Csv.records` is the reader of the excel dialect under a delimiter, with a quote that is doubled
inside of quotes and a limit on the length of a field. `Csv.rows` are its records as dictionaries
under the names of the first.

Rows that are printed without quotes are read back just when no field starts with a quote, has a
carriage return or is too long (`records_printRows_iff`). One direction follows a plain row through
the reader. For the other, every character adds at most one to what was read (`process_size`), so a
row that is read back has lost none : not to a quote, and not to the end of a line.
-/

namespace Csv

/-- How a file is written : what separates fields, and what quotes them. -/
structure Dialect where
  delimiter : Char
  quotechar : Char
  fieldLimit : ℕ
  delimiter_ne_quote : delimiter ≠ quotechar
  delimiter_inline : delimiter ≠ '\n' ∧ delimiter ≠ '\r'
  quote_inline : quotechar ≠ '\n' ∧ quotechar ≠ '\r'

/-- The states of the reader of a record. -/
inductive State where
  | startRecord | startField | inField | inQuotedField | quoteInQuotedField | eatCrnl
  deriving DecidableEq, Repr

/-- What the reader raises. -/
inductive Error where
  | fieldLimit | newline
  deriving DecidableEq, Repr

/-- The fields of a record so far, and the characters of the next. -/
structure Reader where
  state : State
  field : List Char
  fields : List String
  deriving DecidableEq

namespace Reader

/-- `parse_reset`. -/
def start : Reader :=
  ⟨.startRecord, [], []⟩

/-- `parse_save_field`. -/
def save (r : Reader) (state : State) : Reader :=
  ⟨state, [], r.fields ++ [String.ofList r.field]⟩

end Reader

section

variable (d : Dialect)

/-- `parse_add_char`. -/
def addChar (r : Reader) (c : Char) (state : State) : Except Error Reader :=
  if d.fieldLimit ≤ r.field.length then .error .fieldLimit
  else .ok ⟨state, r.field ++ [c], r.fields⟩

/-- A character where a field is expected. -/
def startField (r : Reader) (c : Char) : Except Error Reader :=
  if c = '\n' ∨ c = '\r' then .ok (r.save .eatCrnl)
  else if c = d.quotechar then .ok { r with state := .inQuotedField }
  else if c = d.delimiter then .ok (r.save .startField)
  else addChar d r c .inField

/-- `parse_process_char`, of a character. -/
def process (r : Reader) (c : Char) : Except Error Reader :=
  match r.state with
  | .startRecord =>
    if c = '\n' ∨ c = '\r' then .ok { r with state := .eatCrnl } else startField d r c
  | .startField => startField d r c
  | .inField =>
    if c = '\n' ∨ c = '\r' then .ok (r.save .eatCrnl)
    else if c = d.delimiter then .ok (r.save .startField)
    else addChar d r c .inField
  | .inQuotedField =>
    if c = d.quotechar then .ok { r with state := .quoteInQuotedField }
    else addChar d r c .inQuotedField
  | .quoteInQuotedField =>
    if c = d.quotechar then addChar d r c .inQuotedField
    else if c = d.delimiter then .ok (r.save .startField)
    else if c = '\n' ∨ c = '\r' then .ok (r.save .eatCrnl)
    else addChar d r c .inField
  | .eatCrnl => if c = '\n' ∨ c = '\r' then .ok r else .error .newline

/-- `parse_process_char`, at the end of a line. -/
def endLine (r : Reader) : Reader :=
  match r.state with
  | .startRecord | .inQuotedField => r
  | .startField | .inField | .quoteInQuotedField => r.save .startRecord
  | .eatCrnl => { r with state := .startRecord }

/-- The reader after some characters. -/
def run (r : Reader) : List Char → Except Error Reader
  | [] => .ok r
  | c :: cs =>
    match process d r c with
    | .error e => .error e
    | .ok r => run r cs

/-- All of a line. -/
def readLine (r : Reader) (line : List Char) : Except Error Reader :=
  (run d r line).map endLine

/-- The records of the lines, and the error that ends them. A record in quotes goes on in the next
line. -/
def records (r : Reader) : List (List Char) → List (List String) × Option Error
  | [] =>
    (if r.field ≠ [] ∨ r.state = .inQuotedField then [r.fields ++ [String.ofList r.field]] else [],
      none)
  | line :: lines =>
    match readLine d r line with
    | .error e => ([], some e)
    | .ok r =>
      if r.state = .startRecord then
        let (rest, e) := records .start lines
        (r.fields :: rest, e)
      else records r lines

end

/-- The lines of a text, each with its newline. -/
def lines : List Char → List (List Char)
  | [] => []
  | c :: cs =>
    if c = '\n' then [c] :: lines cs
    else
      match lines cs with
      | [] => [[c]]
      | line :: rest => (c :: line) :: rest

/-! ## Rows as dictionaries -/

/-- A row under the names of its columns. -/
structure Row where
  names : List String
  values : List String
  deriving DecidableEq

/-- What a row has under a name : nothing, `None` where the row is too short, or a text. -/
def Row.get? (row : Row) (name : String) : Option (Option String) :=
  if name ∈ row.names.drop row.values.length then some none
  else ((row.names.zip row.values).reverse.find? fun p => p.1 = name).map fun p => some p.2

/-- `DictReader` : the rows of a text, and the error that ends them. -/
def rows (d : Dialect) (text : List Char) : List Row × Option Error :=
  match records d .start (lines text) with
  | ([], e) => ([], e)
  | (names :: values, e) => ((values.filter fun row => row ≠ []).map (Row.mk names), e)

/-! ## Printing -/

/-- A field that can be printed : it has neither a delimiter nor a newline. -/
structure Dialect.Field (d : Dialect) (field : String) : Prop where
  delimiter : d.delimiter ∉ field.toList
  newline : '\n' ∉ field.toList

/-- A row that can be printed. A single empty field is printed as a blank line. -/
structure Dialect.Printable (d : Dialect) (row : List String) : Prop where
  nonempty : row ≠ []
  nonblank : row ≠ [""]
  fields : ∀ field ∈ row, d.Field field

/-- A field without a quote at its start, without a carriage return and not too long. -/
structure Dialect.Plain (d : Dialect) (field : String) : Prop where
  quote : field.toList.head? ≠ some d.quotechar
  cr : '\r' ∉ field.toList
  length : field.length ≤ d.fieldLimit

instance (d : Dialect) : DecidablePred d.Plain := fun field =>
  decidable_of_iff (field.toList.head? ≠ some d.quotechar ∧ '\r' ∉ field.toList ∧
    field.length ≤ d.fieldLimit) ⟨fun ⟨h₁, h₂, h₃⟩ => ⟨h₁, h₂, h₃⟩, fun h => ⟨h.1, h.2, h.3⟩⟩

/-- A row : its fields as they are, between delimiters, and the end of the line. -/
def printRow (d : Dialect) : List String → List Char
  | [] => ['\n']
  | [field] => field.toList ++ ['\n']
  | field :: next :: rest => field.toList ++ d.delimiter :: printRow d (next :: rest)

/-- Some rows, one after another. -/
def printRows (d : Dialect) (rows : List (List String)) : List Char :=
  rows.flatMap (printRow d)

/-- The first line ends at the first newline. -/
theorem lines_append : ∀ {cs : List Char} (rest : List Char), '\n' ∉ cs →
    lines (cs ++ '\n' :: rest) = (cs ++ ['\n']) :: lines rest
  | [], rest, _ => by rw [List.nil_append, lines, if_pos rfl, List.nil_append]
  | c :: cs, rest, h => by
    have hc : c ≠ '\n' := fun hc => h (hc ▸ List.mem_cons_self)
    rw [List.cons_append, lines, if_neg hc,
      lines_append rest fun hmem => h (List.mem_cons_of_mem c hmem)]
    rfl

/-- A printed row is one line. -/
theorem printRow_line {d : Dialect} : ∀ {row : List String}, (∀ field ∈ row, d.Field field) →
    ∃ cs, '\n' ∉ cs ∧ printRow d row = cs ++ ['\n']
  | [], _ => ⟨[], List.not_mem_nil, rfl⟩
  | [field], h => ⟨field.toList, (h field List.mem_cons_self).newline, rfl⟩
  | field :: next :: rest, h => by
    obtain ⟨cs, hcs, heq⟩ := printRow_line fun f hf => h f (List.mem_cons_of_mem field hf)
    refine ⟨field.toList ++ d.delimiter :: cs, ?_, ?_⟩
    · rw [List.mem_append, List.mem_cons]
      rintro (hmem | hmem | hmem)
      · exact (h field List.mem_cons_self).newline hmem
      · exact d.delimiter_inline.1 hmem.symm
      · exact hcs hmem
    · rw [printRow, heq, List.append_assoc, List.cons_append]

/-- The lines of some rows are their texts. -/
theorem lines_printRows {d : Dialect} {rows : List (List String)}
    (h : ∀ row ∈ rows, d.Printable row) : lines (printRows d rows) = rows.map (printRow d) := by
  induction rows with
  | nil => rfl
  | cons row rows ih =>
    obtain ⟨cs, hcs, heq⟩ := printRow_line (h row List.mem_cons_self).fields
    rw [printRows, List.flatMap_cons, heq, List.append_assoc, List.singleton_append,
      lines_append _ hcs, ← heq, List.map_cons]
    exact congrArg _ (ih fun r hr => h r (List.mem_cons_of_mem row hr))

/-! ## Plain rows -/

section

variable {d : Dialect}

/-- A reader reads one text after another. -/
theorem run_append (r : Reader) : ∀ {cs cs' : List Char} {r₁ : Reader}, run d r cs = .ok r₁ →
    run d r (cs ++ cs') = run d r₁ cs'
  | [], _, _, h => by rw [← Except.ok.inj h, List.nil_append]
  | c :: cs, cs', r₁, h => by
    rw [run] at h
    rw [List.cons_append, run]
    cases hp : process d r c with
    | error e => simp [hp] at h
    | ok r₂ =>
      rw [hp] at h
      exact run_append r₂ h

/-- A plain character is added to its field. -/
theorem process_inField {r : Reader} {c : Char} (h : r.state = .inField) (hd : c ≠ d.delimiter)
    (hn : c ≠ '\n') (hr : c ≠ '\r') : process d r c = addChar d r c .inField := by
  unfold process
  rw [h]
  simp [hd, hn, hr]

/-- The characters of a field go on in it. -/
theorem run_inField : ∀ {cs : List Char} {r : Reader}, r.state = .inField →
    (∀ c ∈ cs, c ≠ d.delimiter ∧ c ≠ '\n' ∧ c ≠ '\r') →
    r.field.length + cs.length ≤ d.fieldLimit →
    run d r cs = .ok ⟨.inField, r.field ++ cs, r.fields⟩
  | [], r, hstate, _, _ => by rw [run, List.append_nil, ← hstate]
  | c :: cs, r, hstate, hcs, hlength => by
    obtain ⟨hd, hn, hr⟩ := hcs c List.mem_cons_self
    rw [List.length_cons] at hlength
    have hadd : process d r c = .ok ⟨.inField, r.field ++ [c], r.fields⟩ := by
      rw [process_inField hstate hd hn hr, addChar, if_neg (by omega)]
    rw [run, hadd]
    dsimp only
    rw [run_inField rfl (fun x hx => hcs x (List.mem_cons_of_mem c hx))
      (by rw [List.length_append, List.length_singleton]; omega), List.append_assoc]
    rfl

/-- A reader that expects a field. -/
structure Reader.Expects (r : Reader) : Prop where
  state : r.state = .startRecord ∨ r.state = .startField
  field : r.field = []

/-- A field begins with its first character. -/
theorem process_expects {r : Reader} (h : r.Expects) {c : Char} (hn : c ≠ '\n') (hr : c ≠ '\r') :
    process d r c = startField d r c := by
  unfold process
  rcases h.state with hstate | hstate <;> rw [hstate]
  · exact if_neg (by simp [hn, hr])

/-- Where a field ends after its characters. -/
def Reader.after (r : Reader) (field : String) : Reader :=
  if field.toList = [] then r else ⟨.inField, field.toList, r.fields⟩

/-- A plain field is read as it is. -/
theorem run_field {r : Reader} (h : r.Expects) {field : String} (hfield : d.Field field)
    (hplain : d.Plain field) : run d r field.toList = .ok (r.after field) := by
  unfold Reader.after
  have hlength := hplain.length
  have hquote := hplain.quote
  have hchars : ∀ c ∈ field.toList, c ≠ d.delimiter ∧ c ≠ '\n' ∧ c ≠ '\r' := by
    intro c hc
    exact ⟨fun h => hfield.delimiter (h ▸ hc), fun h => hfield.newline (h ▸ hc),
      fun h => hplain.cr (h ▸ hc)⟩
  rw [← String.length_toList] at hlength
  cases hcs : field.toList with
  | nil => rw [if_pos rfl, run]
  | cons c cs =>
    rw [hcs] at hchars hlength hquote
    obtain ⟨hd, hn, hr⟩ := hchars c List.mem_cons_self
    rw [List.length_cons] at hlength
    have hq : c ≠ d.quotechar := fun hq => hquote (congrArg some hq)
    have hstart : process d r c = .ok ⟨.inField, [c], r.fields⟩ := by
      rw [process_expects h hn hr, startField, if_neg (by simp [hn, hr]), if_neg hq, if_neg hd,
        addChar, h.field, if_neg (by rw [List.length_nil]; omega)]
      rfl
    rw [if_neg (List.cons_ne_nil c cs), run, hstart]
    dsimp only
    rw [run_inField rfl (fun x hx => hchars x (List.mem_cons_of_mem c hx))
      (by rw [List.length_singleton]; omega)]
    rfl

/-- A delimiter ends a field and begins the next. -/
theorem process_delimiter {r : Reader} (h : r.Expects) (field : String) :
    process d (r.after field) d.delimiter =
      .ok ⟨.startField, [], r.fields ++ [field]⟩ := by
  obtain ⟨hn, hr⟩ := d.delimiter_inline
  unfold Reader.after
  split_ifs with hnil
  · have hempty : field = "" := String.toList_inj.mp hnil
    rw [process_expects h hn hr, startField, if_neg (by simp [hn, hr]),
      if_neg d.delimiter_ne_quote, if_pos rfl, Reader.save, h.field, hempty]
  · unfold process
    dsimp only
    rw [if_neg (by simp [hn, hr]), if_pos rfl, Reader.save, String.ofList_toList]

/-- The end of a row that is not blank. -/
theorem process_newline {r : Reader} (h : r.Expects) {field : String}
    (hblank : r.state = .startRecord → field ≠ "") :
    process d (r.after field) '\n' = .ok ⟨.eatCrnl, [], r.fields ++ [field]⟩ := by
  unfold Reader.after
  split_ifs with hnil
  · have hempty : field = "" := String.toList_inj.mp hnil
    have hstate : r.state = .startField := h.state.resolve_left fun hs => hblank hs hempty
    unfold process
    rw [hstate]
    dsimp only
    rw [startField, if_pos (by simp), Reader.save, h.field, hempty]
  · unfold process
    dsimp only
    rw [if_pos (by simp), Reader.save, String.ofList_toList]

/-- A row of plain fields is read as it was printed. -/
theorem run_printRow : ∀ {row : List String} {r : Reader}, r.Expects → row ≠ [] →
    (r.state = .startRecord → row ≠ [""]) → (∀ field ∈ row, d.Field field) →
    (∀ field ∈ row, d.Plain field) →
    run d r (printRow d row) = .ok ⟨.eatCrnl, [], r.fields ++ row⟩
  | [], _, _, hne, _, _, _ => absurd rfl hne
  | [field], r, h, _, hblank, hfields, hplain => by
    rw [printRow, run_append r (run_field h (hfields field List.mem_cons_self)
      (hplain field List.mem_cons_self)), run,
      process_newline h fun hs hf => hblank hs (congrArg (fun f => [f]) hf)]
    rfl
  | field :: next :: rest, r, h, _, _, hfields, hplain => by
    have hrest := @run_printRow (next :: rest) ⟨.startField, [], r.fields ++ [field]⟩
      ⟨.inr rfl, rfl⟩ (List.cons_ne_nil next rest) (fun hs => by cases hs)
      (fun f hf => hfields f (List.mem_cons_of_mem field hf))
      fun f hf => hplain f (List.mem_cons_of_mem field hf)
    rw [printRow, run_append r (run_field h (hfields field List.mem_cons_self)
      (hplain field List.mem_cons_self)), run, process_delimiter h]
    dsimp only
    rw [hrest, List.append_assoc]
    rfl

/-- At first a record is expected. -/
theorem expects_start : Reader.start.Expects :=
  ⟨.inl rfl, rfl⟩

/-- A plain row is read as it is. -/
theorem readLine_printRow {row : List String} (h : d.Printable row)
    (hplain : ∀ field ∈ row, d.Plain field) :
    readLine d .start (printRow d row) = .ok ⟨.startRecord, [], row⟩ := by
  rw [readLine, run_printRow expects_start h.nonempty (fun _ => h.nonblank) h.fields hplain]
  rfl

/-- Rows of plain fields are read as they were printed. -/
theorem records_printRows {rows : List (List String)} (h : ∀ row ∈ rows, d.Printable row)
    (hplain : ∀ row ∈ rows, ∀ field ∈ row, d.Plain field) :
    records d .start (rows.map (printRow d)) = (rows, none) := by
  induction rows with
  | nil => rfl
  | cons row rows ih =>
    rw [List.map_cons, records, readLine_printRow (h row List.mem_cons_self)
      (hplain row List.mem_cons_self)]
    dsimp only
    rw [if_pos rfl, ih (fun r hr => h r (List.mem_cons_of_mem row hr))
      fun r hr => hplain r (List.mem_cons_of_mem row hr)]

/-! ## What is read back is plain -/

/-- The characters of some fields, and one for the end of each. -/
def extent : List String → ℕ
  | [] => 0
  | field :: row => field.length + 1 + extent row

/-- The extent of two rows is the sum of theirs. -/
theorem extent_append (row row' : List String) :
    extent (row ++ row') = extent row + extent row' := by
  induction row with
  | nil => exact (Nat.zero_add _).symm
  | cons field row ih =>
    rw [List.cons_append, extent, extent, ih]
    omega

/-- How much was read. -/
def Reader.size (r : Reader) : ℕ :=
  r.field.length + extent r.fields

/-- A field that is saved counts for one more. -/
theorem size_save (r : Reader) (state : State) : (r.save state).size = r.size + 1 := by
  simp only [Reader.size, Reader.save, extent_append, extent, String.length_ofList,
    List.length_nil]
  omega

/-- A character is added only up to the limit. -/
theorem addChar_ok {r r' : Reader} {c : Char} {state : State}
    (h : addChar d r c state = .ok r') :
    r.field.length < d.fieldLimit ∧ r' = ⟨state, r.field ++ [c], r.fields⟩ := by
  unfold addChar at h
  split_ifs at h with hlimit
  exact ⟨Nat.lt_of_not_le hlimit, (Except.ok.inj h).symm⟩

/-- It counts for one. -/
theorem size_addChar {r r' : Reader} {c : Char} {state : State}
    (h : addChar d r c state = .ok r') : r'.size = r.size + 1 := by
  obtain ⟨-, rfl⟩ := addChar_ok h
  simp only [Reader.size, List.length_append, List.length_singleton]
  omega

theorem size_state (r : Reader) (state : State) :
    ({ r with state := state } : Reader).size = r.size :=
  rfl

/-- What a character can do : change the state alone, end the field, or go on in it. -/
inductive Step (d : Dialect) (r : Reader) (c : Char) : Reader → Prop where
  | stay (state : State) (h : state = .inQuotedField ∨ state = .quoteInQuotedField ∨
      state = .eatCrnl ∧ (r.state = .startRecord ∨ r.state = .eatCrnl)) :
    Step d r c { r with state := state }
  | save (state : State) : Step d r c (r.save state)
  | add (state : State) {r' : Reader} (hs : state = .inField ∨ state = .inQuotedField)
      (h : addChar d r c state = .ok r') : Step d r c r'

/-- The first character of a field makes such a step. -/
theorem startField_step {r r' : Reader} {c : Char} (h : startField d r c = .ok r') :
    Step d r c r' := by
  unfold startField at h
  split_ifs at h
  · exact Except.ok.inj h ▸ .save _
  · exact Except.ok.inj h ▸ .stay _ (.inl rfl)
  · exact Except.ok.inj h ▸ .save _
  · exact .add _ (.inl rfl) h

/-- Every character makes such a step. -/
theorem process_step {r r' : Reader} {c : Char} (h : process d r c = .ok r') : Step d r c r' := by
  unfold process at h
  cases hstate : r.state with
  | startRecord =>
    simp only [hstate] at h
    split_ifs at h
    · exact Except.ok.inj h ▸ .stay _ (.inr (.inr ⟨rfl, .inl hstate⟩))
    · exact startField_step h
  | startField =>
    simp only [hstate] at h
    exact startField_step h
  | inField =>
    simp only [hstate] at h
    split_ifs at h
    · exact Except.ok.inj h ▸ .save _
    · exact Except.ok.inj h ▸ .save _
    · exact .add _ (.inl rfl) h
  | inQuotedField =>
    simp only [hstate] at h
    split_ifs at h
    · exact Except.ok.inj h ▸ .stay _ (.inr (.inl rfl))
    · exact .add _ (.inr rfl) h
  | quoteInQuotedField =>
    simp only [hstate] at h
    split_ifs at h
    · exact .add _ (.inr rfl) h
    · exact Except.ok.inj h ▸ .save _
    · exact Except.ok.inj h ▸ .save _
    · exact .add _ (.inl rfl) h
  | eatCrnl =>
    simp only [hstate] at h
    split_ifs at h
    exact Except.ok.inj h ▸ .stay r.state (.inr (.inr ⟨hstate, .inr hstate⟩))

/-- A character adds at most one. -/
theorem process_size {r r' : Reader} {c : Char} (h : process d r c = .ok r') :
    r'.size ≤ r.size + 1 := by
  cases process_step h with
  | stay state => exact Nat.le_succ r.size
  | save state => exact Nat.le_of_eq (size_save r state)
  | add state _ h => exact Nat.le_of_eq (size_addChar h)

theorem run_cons_ok {r r' : Reader} {c : Char} {cs : List Char} (h : run d r (c :: cs) = .ok r') :
    ∃ r₁, process d r c = .ok r₁ ∧ run d r₁ cs = .ok r' := by
  rw [run] at h
  cases hp : process d r c with
  | error e => simp [hp] at h
  | ok r₁ => exact ⟨r₁, rfl, by simpa [hp] using h⟩

/-- What is read is no longer than the text. -/
theorem run_size : ∀ {cs : List Char} {r r' : Reader}, run d r cs = .ok r' →
    r'.size ≤ r.size + cs.length
  | [], r, _, h => Except.ok.inj h ▸ Nat.le_refl r.size
  | c :: cs, r, r', h => by
    obtain ⟨r₁, hp, hrun⟩ := run_cons_ok h
    have h₁ := process_size hp
    have h₂ := run_size hrun
    rw [List.length_cons]
    omega

/-- A reader that reads characters without a loss. -/
structure Tight (d : Dialect) (r : Reader) (cs : List Char) (r' : Reader) : Prop where
  run : run d r cs = .ok r'
  size : r'.size = r.size + cs.length

/-- Without a loss, every character counts. -/
theorem Tight.cons {r r' : Reader} {c : Char} {cs : List Char} (h : Tight d r (c :: cs) r') :
    ∃ r₁, process d r c = .ok r₁ ∧ r₁.size = r.size + 1 ∧ Tight d r₁ cs r' := by
  obtain ⟨r₁, hp, hrun⟩ := run_cons_ok h.run
  have h₁ := process_size hp
  have h₂ := run_size hrun
  have h₃ := h.size
  rw [List.length_cons] at h₃
  exact ⟨r₁, hp, by omega, hrun, by omega⟩

/-- A text that is read without a loss has no part that is read with one. -/
theorem Tight.append {r r₁ r' : Reader} {cs cs' : List Char} (h : Tight d r (cs ++ cs') r')
    (hrun : Csv.run d r cs = .ok r₁) : Tight d r₁ cs' r' := by
  have hrest := h.run
  rw [run_append r hrun] at hrest
  have h₁ := run_size hrun
  have h₂ := run_size hrest
  have h₃ := h.size
  rw [List.length_append] at h₃
  exact ⟨hrest, by omega⟩

/-- After the end of a line nothing counts. -/
theorem not_tight_eatCrnl {r r' : Reader} {cs : List Char} (hstate : r.state = .eatCrnl)
    (hcs : cs ≠ []) : ¬Tight d r cs r' := by
  intro h
  obtain ⟨c, rest, rfl⟩ := List.exists_cons_of_ne_nil hcs
  obtain ⟨r₁, hp, hsize, -⟩ := h.cons
  unfold process at hp
  simp only [hstate] at hp
  split_ifs at hp
  rw [← Except.ok.inj hp] at hsize
  omega

/-- In a field, what is read without a loss has no carriage return and is not too long. -/
theorem Tight.inField : ∀ {cs rest : List Char} {r r' : Reader}, Tight d r (cs ++ rest) r' →
    r.state = .inField → rest ≠ [] → (∀ c ∈ cs, c ≠ d.delimiter ∧ c ≠ '\n') →
    '\r' ∉ cs ∧ (cs ≠ [] → r.field.length + cs.length ≤ d.fieldLimit)
  | [], _, _, _, _, _, _, _ => ⟨List.not_mem_nil, fun h => absurd rfl h⟩
  | c :: cs, rest, r, r', h, hstate, hrest, hcs => by
    obtain ⟨hd, hn⟩ := hcs c List.mem_cons_self
    obtain ⟨r₁, hp, -, htight⟩ := Tight.cons (by rwa [List.cons_append] at h)
    by_cases hr : c = '\r'
    · have hsave : r₁ = r.save .eatCrnl := by
        unfold process at hp
        simp only [hstate] at hp
        rw [if_pos (.inr hr)] at hp
        exact (Except.ok.inj hp).symm
      exact absurd htight (not_tight_eatCrnl (by rw [hsave]; rfl) (by simp [hrest]))
    · rw [process_inField hstate hd hn hr] at hp
      obtain ⟨hlimit, rfl⟩ := addChar_ok hp
      obtain ⟨hcr, hlength⟩ := htight.inField rfl hrest fun x hx =>
        hcs x (List.mem_cons_of_mem c hx)
      refine ⟨fun hmem => ?_, fun _ => ?_⟩
      · rcases List.mem_cons.mp hmem with hmem | hmem
        · exact hr hmem.symm
        · exact hcr hmem
      · rw [List.length_cons]
        dsimp only at hlength
        rw [List.length_append, List.length_singleton] at hlength
        by_cases hnil : cs = []
        · rw [hnil, List.length_nil]
          omega
        · have := hlength hnil
          omega

/-- A field that is read without a loss is plain. -/
theorem Tight.plain {field : String} {rest : List Char} {r r' : Reader}
    (h : Tight d r (field.toList ++ rest) r') (hexpects : r.Expects) (hrest : rest ≠ [])
    (hfield : d.Field field) : d.Plain field := by
  have hchars : ∀ c ∈ field.toList, c ≠ d.delimiter ∧ c ≠ '\n' := fun c hc =>
    ⟨fun h => hfield.delimiter (h ▸ hc), fun h => hfield.newline (h ▸ hc)⟩
  cases hcs : field.toList with
  | nil =>
    refine ⟨by simp [hcs], by simp [hcs], ?_⟩
    rw [← String.length_toList, hcs]
    exact Nat.zero_le _
  | cons c cs =>
    rw [hcs, List.cons_append] at h
    rw [hcs] at hchars
    obtain ⟨hd, hn⟩ := hchars c List.mem_cons_self
    obtain ⟨r₁, hp, hsize, htight⟩ := h.cons
    have hne : cs ++ rest ≠ [] := by simp [hrest]
    have hr : c ≠ '\r' := by
      rintro rfl
      have heat : r₁.state = .eatCrnl := by
        unfold process at hp
        rcases hexpects.state with hstate | hstate
        · simp only [hstate] at hp
          rw [if_pos (by simp)] at hp
          rw [← Except.ok.inj hp]
        · simp only [hstate] at hp
          rw [startField, if_pos (by simp)] at hp
          rw [← Except.ok.inj hp]
          rfl
      exact not_tight_eatCrnl heat hne htight
    rw [process_expects hexpects hn hr, startField, if_neg (by simp [hn, hr])] at hp
    have hq : c ≠ d.quotechar := by
      intro hq
      rw [if_pos hq] at hp
      rw [← Except.ok.inj hp, size_state] at hsize
      omega
    rw [if_neg hq, if_neg hd] at hp
    obtain ⟨hlimit, rfl⟩ := addChar_ok hp
    obtain ⟨hcr, hlength⟩ := htight.inField rfl hrest fun x hx =>
      hchars x (List.mem_cons_of_mem c hx)
    dsimp only at hlength
    rw [hexpects.field, List.nil_append, List.length_singleton] at hlength
    rw [hexpects.field, List.length_nil] at hlimit
    refine ⟨by simpa [hcs] using hq, by simp [hcs, hcr, Ne.symm hr], ?_⟩
    rw [← String.length_toList, hcs, List.length_cons]
    by_cases hnil : cs = []
    · rw [hnil, List.length_nil]
      omega
    · have := hlength hnil
      omega

/-- A row that is read without a loss has plain fields. -/
theorem Tight.row : ∀ {row : List String} {r r' : Reader}, Tight d r (printRow d row) r' →
    r.Expects → (∀ field ∈ row, d.Field field) → ∀ field ∈ row, d.Plain field
  | [], _, _, _, _, _ => nofun
  | [field], r, r', h, hexpects, hfields => by
    have hplain := h.plain hexpects (List.cons_ne_nil _ _) (hfields field List.mem_cons_self)
    simpa using hplain
  | field :: next :: rest, r, r', h, hexpects, hfields => by
    have hfield := hfields field List.mem_cons_self
    have hplain := h.plain hexpects (List.cons_ne_nil _ _) hfield
    obtain ⟨r₁, hp, -, htight⟩ := (h.append (run_field hexpects hfield hplain)).cons
    rw [process_delimiter hexpects] at hp
    obtain rfl := Except.ok.inj hp
    have hrest := htight.row ⟨.inr rfl, rfl⟩ fun f hf => hfields f (List.mem_cons_of_mem field hf)
    intro f hf
    rcases List.mem_cons.mp hf with rfl | hf
    · exact hplain
    · exact hrest f hf

/-- The text of a row is as long as its extent. -/
theorem length_printRow : ∀ {row : List String}, row ≠ [] →
    (printRow d row).length = extent row
  | [], h => absurd rfl h
  | [field], _ => by simp [printRow, extent, String.length_toList]
  | field :: next :: rest, _ => by
    have ih := length_printRow (List.cons_ne_nil next rest)
    have hextent : extent (field :: next :: rest) = field.length + 1 + extent (next :: rest) := rfl
    rw [printRow, List.length_append, List.length_cons, ih, hextent, String.length_toList]
    omega

/-! ### Records that go on in the next line -/

/-- Only within a field are there characters of it. -/
def Reader.Settled (r : Reader) : Prop :=
  r.state = .startRecord ∨ r.state = .startField ∨ r.state = .eatCrnl → r.field = []

/-- A newline was read into a field. -/
structure Reader.Torn (r : Reader) : Prop where
  settled : r.Settled
  newline : '\n' ∈ r.field ∨ ∃ field ∈ r.fields, '\n' ∈ field.toList

/-- A settled reader stays settled. -/
theorem settled_process {r r' : Reader} {c : Char} (h : process d r c = .ok r')
    (hr : r.Settled) : r'.Settled := by
  intro hstate
  cases process_step h with
  | stay state hs =>
    rcases hs with rfl | rfl | ⟨rfl, hs⟩
    · simp at hstate
    · simp at hstate
    · exact hr (hs.imp_right .inr)
  | save state => rfl
  | add state hs h =>
    obtain ⟨-, rfl⟩ := addChar_ok h
    rcases hs with rfl | rfl <;> simp at hstate

/-- And does so over a text. -/
theorem settled_run : ∀ {cs : List Char} {r r' : Reader}, run d r cs = .ok r' → r.Settled →
    r'.Settled
  | [], _, _, h, hr => Except.ok.inj h ▸ hr
  | c :: cs, r, r', h, hr => by
    obtain ⟨r₁, hp, hrun⟩ := run_cons_ok h
    exact settled_run hrun (settled_process hp hr)

/-- A torn field is not mended by its end. -/
theorem torn_save {r : Reader} (h : r.Torn) (state : State) : (r.save state).Torn := by
  refine ⟨fun _ => rfl, ?_⟩
  rcases h.newline with h | ⟨field, hmem, h⟩
  · refine .inr ⟨_, List.mem_append_right _ List.mem_cons_self, ?_⟩
    rwa [String.toList_ofList]
  · exact .inr ⟨field, List.mem_append_left _ hmem, h⟩

/-- Nor by a character. -/
theorem torn_process {r r' : Reader} {c : Char} (h : process d r c = .ok r') (ht : r.Torn) :
    r'.Torn := by
  refine ⟨settled_process h ht.settled, ?_⟩
  cases process_step h with
  | stay state hs => exact ht.newline
  | save state => exact (torn_save ht state).newline
  | add state hs h =>
    obtain ⟨-, rfl⟩ := addChar_ok h
    exact ht.newline.imp_left fun h => List.mem_append_left _ h

/-- Nor by a text. -/
theorem torn_run : ∀ {cs : List Char} {r r' : Reader}, run d r cs = .ok r' → r.Torn → r'.Torn
  | [], _, _, h, ht => Except.ok.inj h ▸ ht
  | c :: cs, r, r', h, ht => by
    obtain ⟨r₁, hp, hrun⟩ := run_cons_ok h
    exact torn_run hrun (torn_process hp ht)

/-- Nor by the end of the line. -/
theorem torn_endLine {r : Reader} (h : r.Torn) : (endLine r).Torn := by
  unfold endLine
  cases hstate : r.state with
  | startRecord | inQuotedField => exact h
  | startField | inField | quoteInQuotedField => exact torn_save h .startRecord
  | eatCrnl => exact ⟨fun _ => h.settled (.inr (.inr hstate)), h.newline⟩

/-- A line that is read is read to its end. -/
theorem readLine_ok {r r' : Reader} {line : List Char} (h : readLine d r line = .ok r') :
    ∃ r₁, run d r line = .ok r₁ ∧ r' = endLine r₁ := by
  unfold readLine at h
  cases hrun : run d r line with
  | error error =>
    rw [hrun] at h
    cases h
  | ok r₁ =>
    rw [hrun] at h
    exact ⟨r₁, rfl, (Except.ok.inj h).symm⟩

/-- A newline is read into a field, or ends the record. -/
theorem newline_cases {r r' : Reader} (h : process d r '\n' = .ok r') :
    r'.state = .eatCrnl ∨ r'.state = .inQuotedField ∧ '\n' ∈ r'.field := by
  have hq : '\n' ≠ d.quotechar := fun hq => d.quote_inline.1 hq.symm
  have hd : '\n' ≠ d.delimiter := fun hd => d.delimiter_inline.1 hd.symm
  unfold process at h
  cases hstate : r.state with
  | inQuotedField =>
    simp only [hstate] at h
    rw [if_neg hq] at h
    obtain ⟨-, rfl⟩ := addChar_ok h
    exact .inr ⟨rfl, List.mem_append_right _ List.mem_cons_self⟩
  | quoteInQuotedField =>
    simp only [hstate] at h
    rw [if_neg hq, if_neg hd, if_pos (by simp)] at h
    exact .inl (Except.ok.inj h ▸ rfl)
  | startRecord | inField | eatCrnl =>
    simp only [hstate] at h
    rw [if_pos (by simp)] at h
    refine .inl (Except.ok.inj h ▸ ?_)
    first | rfl | exact hstate
  | startField =>
    simp only [hstate] at h
    rw [startField, if_pos (by simp)] at h
    exact .inl (Except.ok.inj h ▸ rfl)

theorem run_concat {cs : List Char} {c : Char} {r r' : Reader}
    (h : run d r (cs ++ [c]) = .ok r') : ∃ r₁, run d r cs = .ok r₁ ∧ process d r₁ c = .ok r' := by
  induction cs generalizing r with
  | nil =>
    obtain ⟨r₁, hp, hrun⟩ := run_cons_ok h
    exact ⟨r, rfl, hp.trans hrun⟩
  | cons x cs ih =>
    obtain ⟨r₁, hp, hrun⟩ := run_cons_ok h
    obtain ⟨r₂, hcs, hc⟩ := ih hrun
    refine ⟨r₂, ?_, hc⟩
    rw [run, hp]
    exact hcs

/-- A record with a newline in it keeps it. -/
theorem records_torn : ∀ {lines : List (List Char)} {r : Reader} {row : List String}
    {rest : List (List String)} {e : Option Error}, r.Torn →
    records d r lines = (row :: rest, e) → ∃ field ∈ row, '\n' ∈ field.toList
  | [], r, row, rest, e, ht, h => by
    unfold records at h
    split_ifs at h with hfield
    · obtain ⟨rfl, -⟩ := List.cons.inj (congrArg Prod.fst h)
      exact (torn_save ht .startRecord).newline.resolve_left List.not_mem_nil
    · cases congrArg Prod.fst h
  | line :: lines, r, row, rest, e, ht, h => by
    rw [records] at h
    cases hline : readLine d r line with
    | error error =>
      rw [hline] at h
      cases congrArg Prod.fst h
    | ok r₁ =>
      rw [hline] at h
      dsimp only at h
      obtain ⟨r₂, hrun, rfl⟩ := readLine_ok hline
      have htorn := torn_endLine (torn_run hrun ht)
      split_ifs at h with hstate
      · obtain ⟨rfl, -⟩ := List.cons.inj (congrArg Prod.fst h)
        refine htorn.newline.resolve_left fun hmem => ?_
        rw [htorn.settled (.inl hstate)] at hmem
        exact List.not_mem_nil hmem
      · exact records_torn htorn h

/-- What is read of the first row is plain, if it is the row. -/
theorem plain_of_records {row : List String} {rows : List (List String)} {lines : List (List Char)}
    (hrow : d.Printable row)
    (h : records d .start (printRow d row :: lines) = (row :: rows, none)) :
    (∀ field ∈ row, d.Plain field) ∧ records d .start lines = (rows, none) := by
  rw [records] at h
  cases hline : readLine d .start (printRow d row) with
  | error error =>
    rw [hline] at h
    cases congrArg Prod.fst h
  | ok r₁ =>
    rw [hline] at h
    dsimp only at h
    obtain ⟨r₂, hrun, rfl⟩ := readLine_ok hline
    obtain ⟨cs, hcs, heq⟩ := printRow_line hrow.fields
    rw [heq] at hrun
    obtain ⟨r₃, hinit, hnewline⟩ := run_concat hrun
    have hsettled : r₂.Settled := settled_run hrun fun _ => rfl
    rcases newline_cases hnewline with hstate | ⟨hstate, hmem⟩
    · have hend : endLine r₂ = { r₂ with state := .startRecord } := by
        unfold endLine
        rw [hstate]
      rw [hend, if_pos rfl] at h
      obtain ⟨hfields, hrest⟩ := List.cons.inj (congrArg Prod.fst h)
      have herror : (records d .start lines).2 = none := congrArg Prod.snd h
      refine ⟨?_, Prod.ext hrest herror⟩
      have hsize : r₂.size = extent row := by
        dsimp only at hfields
        rw [Reader.size, hsettled (.inr (.inr hstate)), hfields, List.length_nil, Nat.zero_add]
      rw [← heq] at hrun
      have htight : Tight d .start (printRow d row) r₂ := by
        refine ⟨hrun, ?_⟩
        rw [hsize, length_printRow hrow.nonempty]
        exact (Nat.zero_add _).symm
      exact htight.row expects_start hrow.fields
    · have hend : endLine r₂ = r₂ := by
        unfold endLine
        rw [hstate]
      rw [hend, if_neg (by rw [hstate]; decide)] at h
      obtain ⟨field, hfield, hmem⟩ := records_torn ⟨hsettled, .inl hmem⟩ h
      exact absurd hmem (hrow.fields field hfield).newline

/-- Printed rows are read back just when their fields are plain. -/
theorem records_printRows_iff {rows : List (List String)} (h : ∀ row ∈ rows, d.Printable row) :
    records d .start (lines (printRows d rows)) = (rows, none) ↔
      ∀ row ∈ rows, ∀ field ∈ row, d.Plain field := by
  rw [lines_printRows h]
  refine ⟨fun hread => ?_, records_printRows h⟩
  induction rows with
  | nil => exact fun _ => nofun
  | cons row rows ih =>
    obtain ⟨hplain, hrest⟩ := plain_of_records (h row List.mem_cons_self) hread
    intro r hr
    rcases List.mem_cons.mp hr with rfl | hr
    · exact hplain
    · exact ih (fun r hr => h r (List.mem_cons_of_mem row hr)) hrest r hr

end

end Csv
