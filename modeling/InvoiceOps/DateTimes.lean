import InvoiceOps.DecimalText

/-!
# Aware datetimes and their text

An `AwareDatetime` is a local date and time with its offset from UTC, in microseconds. `isoformat`
writes it with the fraction and the seconds of the offset only where they are not zero, and
`readIsoformat` reads what has that form : every aware datetime is read back
(`readIsoformat_isoformat`).
-/

namespace InvoiceOps

open Decimal (lastDigits)
open Nat (ofDigitChars)

/-- The numbers a timestamp is written with. -/
structure DateTimeFields where
  year : ℕ
  month : ℕ
  day : ℕ
  hour : ℕ
  minute : ℕ
  second : ℕ
  microsecond : ℕ
  /-- Local time less UTC, in microseconds. -/
  offset : ℤ
  deriving DecidableEq, Repr

namespace DateTimeFields

/-- A leap year. -/
def isLeap (year : ℕ) : Bool :=
  year % 4 = 0 && (year % 100 ≠ 0 || year % 400 = 0)

/-- The days of a month. -/
def daysInMonth (year month : ℕ) : ℕ :=
  if month = 2 then if isLeap year then 29 else 28
  else if month ∈ [4, 6, 9, 11] then 30
  else 31

/-- The ranges of `datetime` and of the offset of a `timezone`. -/
structure Valid (d : DateTimeFields) : Prop where
  year : 1 ≤ d.year ∧ d.year ≤ 9999
  month : 1 ≤ d.month ∧ d.month ≤ 12
  day : 1 ≤ d.day ∧ d.day ≤ daysInMonth d.year d.month
  hour : d.hour < 24
  minute : d.minute < 60
  second : d.second < 60
  microsecond : d.microsecond < 1000000
  offset : d.offset.natAbs < 86400000000

instance (d : DateTimeFields) : Decidable d.Valid :=
  decidable_of_iff ((1 ≤ d.year ∧ d.year ≤ 9999) ∧ (1 ≤ d.month ∧ d.month ≤ 12) ∧
      (1 ≤ d.day ∧ d.day ≤ daysInMonth d.year d.month) ∧ d.hour < 24 ∧ d.minute < 60 ∧
      d.second < 60 ∧ d.microsecond < 1000000 ∧ d.offset.natAbs < 86400000000)
    ⟨fun ⟨hy, hm, hd, hh, hmin, hs, hus, ho⟩ => ⟨hy, hm, hd, hh, hmin, hs, hus, ho⟩,
      fun h => ⟨h.year, h.month, h.day, h.hour, h.minute, h.second, h.microsecond, h.offset⟩⟩

/-- The days before a month, from 1 March of the year 0 on. -/
def daysBefore (year month : ℕ) : ℕ :=
  let (y, m) := if 3 ≤ month then (year, month - 3) else (year - 1, month + 9)
  365 * y + y / 4 - y / 100 + y / 400 + (153 * m + 2) / 5

/-- The instant, in microseconds from 1 January 1970 on. -/
def instant (d : DateTimeFields) : ℤ :=
  let days : ℤ := daysBefore d.year d.month + d.day - 719469
  (((days * 24 + d.hour) * 60 + d.minute) * 60 + d.second) * 1000000 + d.microsecond - d.offset

end DateTimeFields

/-- Numbers that name a time. -/
abbrev AwareDatetime := { d : DateTimeFields // d.Valid }

/-! ## Writing -/

/-- `%02d:%02d:%02d`, with `.%06d` where there is a fraction. -/
def clockText (hour minute second microsecond : ℕ) : List Char :=
  lastDigits hour 2 ++ ':' :: (lastDigits minute 2 ++ ':' :: (lastDigits second 2 ++
    if microsecond = 0 then [] else '.' :: lastDigits microsecond 6))

/-- The offset : its seconds are written where they are not zero. -/
def offsetText (offset : ℤ) : List Char :=
  let n := offset.natAbs
  let hour := n / 3600000000
  let minute := n / 60000000 % 60
  (if offset < 0 then '-' else '+') ::
    if n % 60000000 = 0 then lastDigits hour 2 ++ ':' :: lastDigits minute 2
    else clockText hour minute (n / 1000000 % 60) (n % 1000000)

/-- `value.isoformat()`. -/
def isoformat (d : AwareDatetime) : List Char :=
  lastDigits d.val.year 4 ++ '-' :: (lastDigits d.val.month 2 ++ '-' :: (lastDigits d.val.day 2 ++
    'T' :: (clockText d.val.hour d.val.minute d.val.second d.val.microsecond ++
      offsetText d.val.offset)))

/-! ## Reading -/

/-- So many digits, and the rest of the text. -/
def readDigits (n : ℕ) (text : List Char) : Option (ℕ × List Char) :=
  if (text.take n).length = n ∧ (text.take n).all Char.isDigit then
    some (ofDigitChars 10 (text.take n) 0, text.drop n)
  else none

/-- One character, and the rest of the text. -/
def readChar (c : Char) : List Char → Option (List Char)
  | d :: text => if d = c then some text else none
  | [] => none

/-- Six digits after a point, or nothing. -/
def readFraction : List Char → Option (ℕ × List Char)
  | '.' :: text => readDigits 6 text
  | text => some (0, text)

/-- Hours, minutes, seconds and microseconds. -/
def readClock (text : List Char) : Option ((ℕ × ℕ × ℕ × ℕ) × List Char) := do
  let (hour, text) ← readDigits 2 text
  let text ← readChar ':' text
  let (minute, text) ← readDigits 2 text
  let text ← readChar ':' text
  let (second, text) ← readDigits 2 text
  let (microsecond, text) ← readFraction text
  return ((hour, minute, second, microsecond), text)

/-- The offset without its sign, to the end of the text. -/
def readOffset (text : List Char) : Option ℕ := do
  let (hour, rest) ← readDigits 2 text
  let rest ← readChar ':' rest
  let (minute, rest) ← readDigits 2 rest
  if rest = [] then
    if minute < 60 then some ((hour * 60 + minute) * 60000000) else none
  else
    let ((hour, minute, second, microsecond), rest) ← readClock text
    if rest = [] ∧ minute < 60 ∧ second < 60 then
      some (((hour * 60 + minute) * 60 + second) * 1000000 + microsecond)
    else none

/-- The sign of an offset. -/
def readSign : List Char → Option (ℤ × List Char)
  | '+' :: text => some (1, text)
  | '-' :: text => some (-1, text)
  | _ => none

/-- A datetime of the form that `isoformat` writes, with any separator. -/
def readIsoformat (text : List Char) : Option AwareDatetime := do
  let (year, text) ← readDigits 4 text
  let text ← readChar '-' text
  let (month, text) ← readDigits 2 text
  let text ← readChar '-' text
  let (day, text) ← readDigits 2 text
  let ((hour, minute, second, microsecond), text) ← readClock (text.drop 1)
  let (sign, text) ← readSign text
  let offset ← readOffset text
  let fields : DateTimeFields :=
    ⟨year, month, day, hour, minute, second, microsecond, sign * offset⟩
  if h : fields.Valid then some ⟨fields, h⟩ else none

/-! ## The round trip -/

/-- A number is read of its last digits, if it has no more. -/
theorem ofDigitChars_lastDigits_of_lt : ∀ {n c : ℕ}, c < 10 ^ n →
    ofDigitChars 10 (lastDigits c n) 0 = c
  | 0, c, h => by
    obtain rfl : c = 0 := by omega
    rfl
  | n + 1, c, h => by
    have hdiv : c / 10 < 10 ^ n := by
      rw [Nat.div_lt_iff_lt_mul (by decide), ← pow_succ]
      exact h
    rw [lastDigits, Nat.ofDigitChars_append, ofDigitChars_lastDigits_of_lt hdiv,
      Nat.ofDigitChars_cons_digitChar_of_lt_ten (Nat.mod_lt c (by decide)), Nat.ofDigitChars_nil]
    omega

/-- So many digits are read, and the rest is left. -/
theorem readDigits_append {n c : ℕ} (h : c < 10 ^ n) (rest : List Char) :
    readDigits n (lastDigits c n ++ rest) = some (c, rest) := by
  have hlen := Decimal.length_lastDigits n c
  have htake : (lastDigits c n ++ rest).take n = lastDigits c n := List.take_left' hlen
  have hdigits : (lastDigits c n).all Char.isDigit := by
    rw [List.all_eq_true]
    exact fun x hx => Decimal.isDigit_lastDigits hx
  rw [readDigits, htake, if_pos ⟨hlen, hdigits⟩, List.drop_left' hlen,
    ofDigitChars_lastDigits_of_lt h]

theorem readChar_cons (c : Char) (text : List Char) : readChar c (c :: text) = some text :=
  if_pos rfl

/-- The fraction ends before the sign of the offset, and at the end of the text. -/
theorem readFraction_append {n : ℕ} (h : n < 1000000) {rest : List Char}
    (hrest : ∀ text, rest ≠ '.' :: text) :
    readFraction ((if n = 0 then [] else '.' :: lastDigits n 6) ++ rest) = some (n, rest) := by
  split_ifs with hzero
  · subst hzero
    rw [List.nil_append, readFraction]
    exact hrest
  · exact readDigits_append h rest

/-- A clock is read back. -/
theorem readClock_append {hour minute second microsecond : ℕ} (hh : hour < 100)
    (hm : minute < 100) (hs : second < 100) (hus : microsecond < 1000000) {rest : List Char}
    (hrest : ∀ text, rest ≠ '.' :: text) :
    readClock (clockText hour minute second microsecond ++ rest) =
      some ((hour, minute, second, microsecond), rest) := by
  unfold readClock clockText
  simp only [List.append_assoc, List.cons_append]
  rw [readDigits_append hh]
  simp only [Option.bind_eq_bind, Option.bind_some, readChar_cons]
  rw [readDigits_append hm]
  simp only [Option.bind_some, readChar_cons]
  rw [readDigits_append hs]
  simp only [Option.bind_some]
  rw [readFraction_append hus hrest]
  rfl

/-- The offset, without its sign. -/
theorem readOffset_text {n : ℕ} (h : n < 86400000000) :
    readOffset (if n % 60000000 = 0 then
        lastDigits (n / 3600000000) 2 ++ ':' :: lastDigits (n / 60000000 % 60) 2
      else clockText (n / 3600000000) (n / 60000000 % 60) (n / 1000000 % 60) (n % 1000000)) =
      some n := by
  have hh : n / 3600000000 < 10 ^ 2 := by omega
  have hm : n / 60000000 % 60 < 10 ^ 2 := by omega
  have hs : n / 1000000 % 60 < 10 ^ 2 := by omega
  have hus : n % 1000000 < 1000000 := by omega
  unfold readOffset
  split_ifs with hminutes
  · have hminute := readDigits_append hm []
    rw [List.append_nil] at hminute
    rw [readDigits_append hh]
    simp only [Option.bind_eq_bind, Option.bind_some, readChar_cons, hminute, if_true]
    rw [if_pos (by omega)]
    exact congrArg some (by omega)
  · have hclock := readClock_append hh hm hs hus fun text => (List.cons_ne_nil '.' text).symm
    rw [List.append_nil] at hclock
    have hrest : ∀ cs : List Char, ':' :: cs ≠ [] := fun _ => List.cons_ne_nil _ _
    rw [hclock]
    unfold clockText
    rw [readDigits_append hh]
    simp only [Option.bind_eq_bind, Option.bind_some, readChar_cons]
    rw [readDigits_append hm]
    simp only [Option.bind_some, if_neg (hrest _), true_and]
    rw [if_pos ⟨by omega, by omega⟩]
    exact congrArg some (by omega)

/-- A sign is read back. -/
theorem readSign_offset (offset : ℤ) (text : List Char) :
    readSign ((if offset < 0 then '-' else '+') :: text) =
      some (if offset < 0 then -1 else 1, text) := by
  split_ifs <;> rfl

theorem sign_mul_natAbs (offset : ℤ) :
    (if offset < 0 then -1 else 1) * (offset.natAbs : ℤ) = offset := by
  split_ifs <;> omega

/-- Every aware datetime is read back. -/
theorem readIsoformat_isoformat (d : AwareDatetime) : readIsoformat (isoformat d) = some d := by
  obtain ⟨⟨year, month, day, hour, minute, second, microsecond, offset⟩, h⟩ := d
  obtain ⟨hyear, hmonth, hday, hhour, hminute, hsecond, hus, hoffset⟩ := id h
  dsimp only at hyear hmonth hday hhour hminute hsecond hus hoffset
  have hdays : DateTimeFields.daysInMonth year month ≤ 31 := by
    unfold DateTimeFields.daysInMonth
    split_ifs <;> omega
  have hsign : ∀ text, offsetText offset ≠ '.' :: text := by
    intro text he
    have hhead := (List.cons.inj he).1
    split_ifs at hhead <;> cases hhead
  unfold readIsoformat isoformat
  dsimp only
  rw [readDigits_append (show year < 10 ^ 4 by omega)]
  simp only [Option.bind_eq_bind, Option.bind_some, readChar_cons]
  rw [readDigits_append (show month < 10 ^ 2 by omega)]
  simp only [Option.bind_some, readChar_cons]
  rw [readDigits_append (show day < 10 ^ 2 by omega)]
  simp only [Option.bind_some, List.drop_one, List.tail_cons]
  rw [readClock_append (by omega) (by omega) (by omega) hus hsign]
  simp only [Option.bind_some, offsetText, readSign_offset, readOffset_text hoffset,
    sign_mul_natAbs]
  exact dif_pos h

/-- A clock has at most 15 characters. -/
theorem length_clockText_le (hour minute second microsecond : ℕ) :
    (clockText hour minute second microsecond).length ≤ 15 := by
  unfold clockText
  split_ifs <;> simp [Decimal.length_lastDigits]

/-- A timestamp has at most 42 characters. -/
theorem length_isoformat_le (d : AwareDatetime) : (isoformat d).length ≤ 42 := by
  have hclock := length_clockText_le d.val.hour d.val.minute d.val.second d.val.microsecond
  have hoffset : (offsetText d.val.offset).length ≤ 16 := by
    unfold offsetText
    dsimp only
    rw [List.length_cons]
    split_ifs
    · simp [Decimal.length_lastDigits]
    · exact Nat.succ_le_succ (length_clockText_le _ _ _ _)
  unfold isoformat
  simp only [List.length_append, List.length_cons, Decimal.length_lastDigits]
  omega

/-- The characters of the text of a datetime. -/
def isDateTimeChar (c : Char) : Bool :=
  c.isDigit || c ∈ ['-', ':', '.', '+', 'T']

/-- A digit may stand in a timestamp. -/
theorem isDateTimeChar_lastDigits (c n : ℕ) : ∀ x ∈ lastDigits c n, isDateTimeChar x := by
  intro x hx
  rw [isDateTimeChar, Decimal.isDigit_lastDigits hx, Bool.true_or]

theorem isDateTimeChar_clockText (hour minute second microsecond : ℕ) :
    ∀ x ∈ clockText hour minute second microsecond, isDateTimeChar x := by
  unfold clockText
  simp only [List.forall_mem_append, List.forall_mem_cons]
  refine ⟨isDateTimeChar_lastDigits _ _, rfl, isDateTimeChar_lastDigits _ _, rfl,
    isDateTimeChar_lastDigits _ _, ?_⟩
  split_ifs
  · exact fun _ => nofun
  · exact List.forall_mem_cons.mpr ⟨rfl, isDateTimeChar_lastDigits _ _⟩

/-- Every character of a timestamp may. -/
theorem isDateTimeChar_isoformat (d : AwareDatetime) : ∀ x ∈ isoformat d, isDateTimeChar x := by
  unfold isoformat offsetText
  simp only [List.forall_mem_append, List.forall_mem_cons]
  refine ⟨isDateTimeChar_lastDigits _ _, rfl, isDateTimeChar_lastDigits _ _, rfl,
    isDateTimeChar_lastDigits _ _, rfl, isDateTimeChar_clockText _ _ _ _, ?_, ?_⟩
  · split_ifs <;> rfl
  · split_ifs
    · rw [List.forall_mem_append, List.forall_mem_cons]
      exact ⟨isDateTimeChar_lastDigits _ _, rfl, isDateTimeChar_lastDigits _ _⟩
    · exact isDateTimeChar_clockText _ _ _ _

end InvoiceOps
