import InvoiceOps.Base64
import InvoiceOps.DateTimes
import InvoiceOps.Passwords
import InvoiceOps.Values
import Mathlib.Data.List.TakeWhile

/-!
# Cursors of the invoice queue

A cursor is the time and the id of the last row of a page, as one text in base 64. A cursor that
was written is read back as that time and id (`decodeCursor_encodeCursor`), and a text that is not
read is an `InvalidInvoiceCursor`, whichever step rejects it (`decodeCursor_error`).

The steps are given on what `encodeCursor` writes ; what else the standard library reads is a
parameter (`CursorHost`).
-/

namespace InvoiceOps

/-! ## Texts of an id -/

/-- `str(id)`. -/
def uuidText (id : Uuid) : List Char :=
  let h := hexDigits id 32
  h.take 8 ++ '-' :: ((h.drop 8).take 4 ++ '-' :: ((h.drop 12).take 4 ++ '-' ::
    ((h.drop 16).take 4 ++ '-' :: h.drop 20)))

/-- `text.replace("urn:", "")`. -/
def removeUrn : List Char → List Char
  | 'u' :: 'r' :: 'n' :: ':' :: text => removeUrn text
  | c :: text => c :: removeUrn text
  | [] => []

/-- `text.replace("uuid:", "")`. -/
def removeUuid : List Char → List Char
  | 'u' :: 'u' :: 'i' :: 'd' :: ':' :: text => removeUuid text
  | c :: text => c :: removeUuid text
  | [] => []

/-- A brace, as an identifier may stand between. -/
def isBrace (c : Char) : Bool :=
  c = '{' || c = '}'

/-- `text.strip("{}").replace("-", "")`. -/
def bareHex (text : List Char) : List Char :=
  ((text.dropWhile isBrace).rdropWhile isBrace).filter (· ≠ '-')

/-- The value of hexadecimal digits. -/
def ofHexDigits (text : List Char) : Option ℕ :=
  text.foldlM (fun n c => (hexValue c).map fun v => 16 * n + v) 0

/-- What the standard library reads besides the texts of `isoformat`, `urlsafe_b64encode` and
`str(id)` ; nothing stands for a `ValueError`. -/
structure CursorHost where
  /-- `base64.b64decode(text, altchars=b"-_", validate=True)`, of a text with padding in it. -/
  b64decode : List Char → Option (List UInt8)
  /-- `datetime.fromisoformat(text)`, with the offset if there is one. -/
  fromIsoFormat : List Char → Option (Option AwareDatetime)
  /-- `int(text, 16)`, of 32 characters that are not all digits. -/
  int16 : List Char → Option ℤ

namespace CursorHost

variable (host : CursorHost)

/-- `base64.b64decode(value + "=" * (-len(value) % 4), altchars=b"-_", validate=True)` : the padding
completes the last group. -/
def decodeBytes (value : List Char) : Option (List UInt8) :=
  if '=' ∈ value then host.b64decode (value ++ Base64.padding value.length)
  else Base64.decode value

/-- `data.decode("ascii")`. -/
def decodeAscii (data : List UInt8) : Option (List Char) :=
  if data.all fun b => b < 128 then some (data.map fun b => Char.ofNat b.toNat) else none

/-- `text.split("|", 1)`, of two parts. -/
def splitBar (text : List Char) : Option (List Char × List Char) :=
  match text.dropWhile (· ≠ '|') with
  | [] => none
  | _ :: rest => some (text.takeWhile (· ≠ '|'), rest)

/-- `datetime.fromisoformat(text)`. -/
def parseDateTime (text : List Char) : Option (Option AwareDatetime) :=
  match readIsoformat text with
  | some d => some (some d)
  | none => host.fromIsoFormat text

/-- `UUID(text)`. -/
def parseUuid (text : List Char) : Option Uuid :=
  let hex := bareHex (removeUuid (removeUrn text))
  if hex.length ≠ 32 then none
  else
    match ofHexDigits hex with
    | some n => some n
    | none => (host.int16 hex).bind fun n => if 0 ≤ n ∧ n < 2 ^ 128 then some n.toNat else none

end CursorHost

/-! ## Cursors -/

/-- `_encode_cursor`, of the time and the id of an item. -/
def encodeCursor (createdAt : AwareDatetime) (id : Uuid) : String :=
  let value := isoformat createdAt ++ '|' :: uuidText id
  let text := Base64.encode (value.map fun c => UInt8.ofNat c.toNat)
  -- `urlsafe_b64encode`, with its padding stripped
  String.ofList ((text ++ Base64.padding text.length).rdropWhile (· = '='))

/-- `InvalidInvoiceCursor`. -/
def invalidInvoiceCursor : ExnClass := .other "InvalidInvoiceCursor"

/-- A `ValueError`, or one of the classes that derive from it. -/
def valueError {α : Type} : Option α → Except Exn α
  | some a => .ok a
  | none => .error (.new .valueError "")

/-- `if created_at.utcoffset() is None: raise`. -/
def requireOffset : Option AwareDatetime → Except Exn AwareDatetime
  | some createdAt => .ok createdAt
  | none => .error (.new .valueError "Cursor timestamp must have an offset")

/-- The body of the `try` of `_decode_cursor`. -/
def readCursor (host : CursorHost) (value : String) : Except Exn (AwareDatetime × Uuid) := do
  let data ← valueError (host.decodeBytes value.toList)
  let decoded ← valueError (CursorHost.decodeAscii data)
  let (timestamp, rawId) ← valueError (CursorHost.splitBar decoded)
  let parsed ← valueError (host.parseDateTime timestamp)
  let createdAt ← requireOffset parsed
  let id ← valueError (host.parseUuid rawId)
  return (createdAt, id)

/-- `_decode_cursor`. -/
def decodeCursor (host : CursorHost) (value : String) : Except Exn (AwareDatetime × Uuid) :=
  match readCursor host value with
  | .ok cursor => .ok cursor
  | .error error =>
    if error.isInstance .valueError then
      .error (.chained invalidInvoiceCursor "Invoice queue cursor is invalid" error)
    else .error error

/-! ## What is written is read back -/

/-- The characters of an id, and of nothing that is stripped from one. -/
theorem hexDigit_bare : ∀ n < 16, hexDigit n ∉ ['u', '{', '}', '-', '|'] ∧
    (hexDigit n).toNat < 128 := by
  decide

/-- Hexadecimal digits are read back. -/
theorem ofHexDigits_hexDigits : ∀ {n c : ℕ}, c < 16 ^ n → ofHexDigits (hexDigits c n) = some c
  | 0, c, h => by
    obtain rfl : c = 0 := by omega
    rfl
  | n + 1, c, h => by
    have hdiv : c / 16 < 16 ^ n := by
      rw [Nat.div_lt_iff_lt_mul (by decide), ← pow_succ]
      exact h
    have hinit : (hexDigits (c / 16) n).foldlM
        (fun n c => (hexValue c).map fun v => 16 * n + v) 0 = some (c / 16) :=
      ofHexDigits_hexDigits hdiv
    rw [ofHexDigits, hexDigits, List.foldlM_append, hinit]
    change ((hexValue (hexDigit (c % 16))).map fun v => 16 * (c / 16) + v).bind some = some c
    rw [(hexDigit_read (c % 16) (Nat.mod_lt c (by decide))).1]
    exact congrArg some (Nat.div_add_mod c 16)

/-- The characters of a UUID's text. -/
theorem mem_uuidText {id : Uuid} {x : Char} (h : x ∈ uuidText id) :
    x = '-' ∨ ∃ k < 16, x = hexDigit k := by
  unfold uuidText at h
  simp only [List.mem_append, List.mem_cons] at h
  rcases h with h | h | h | h | h | h | h | h | h
  · exact .inr (mem_hexDigits (List.mem_of_mem_take h))
  · exact .inl h
  · exact .inr (mem_hexDigits (List.mem_of_mem_drop (List.mem_of_mem_take h)))
  · exact .inl h
  · exact .inr (mem_hexDigits (List.mem_of_mem_drop (List.mem_of_mem_take h)))
  · exact .inl h
  · exact .inr (mem_hexDigits (List.mem_of_mem_drop (List.mem_of_mem_take h)))
  · exact .inl h
  · exact .inr (mem_hexDigits (List.mem_of_mem_drop h))

/-- None of them is taken off by the parser. -/
theorem uuidText_bare {id : Uuid} {x : Char} (h : x ∈ uuidText id) :
    x ∉ ['u', '{', '}', '|'] ∧ x.toNat < 128 := by
  rcases mem_uuidText h with rfl | ⟨k, hk, rfl⟩
  · decide
  · obtain ⟨hbare, hascii⟩ := hexDigit_bare k hk
    have hsub : ['u', '{', '}', '|'] ⊆ ['u', '{', '}', '-', '|'] := by decide
    exact ⟨fun hmem => hbare (hsub hmem), hascii⟩

/-- The text of a UUID has 36 characters. -/
theorem length_uuidText (id : Uuid) : (uuidText id).length = 36 := by
  have hlen := length_hexDigits 32 id
  unfold uuidText
  generalize hexDigits id 32 = h at hlen
  simp only [List.length_append, List.length_cons, List.length_take, List.length_drop, hlen]
  rfl

/-- A text without the letter has no prefix `urn:`. -/
theorem removeUrn_of_notMem : ∀ {text : List Char}, 'u' ∉ text → removeUrn text = text
  | [], _ => rfl
  | c :: text, h => by
    obtain ⟨hc, htext⟩ := not_or.mp (mt List.mem_cons.mpr h)
    rw [removeUrn, removeUrn_of_notMem htext]
    rintro _ rfl
    exact absurd rfl hc

/-- Nor the prefix `uuid:`. -/
theorem removeUuid_of_notMem : ∀ {text : List Char}, 'u' ∉ text → removeUuid text = text
  | [], _ => rfl
  | c :: text, h => by
    obtain ⟨hc, htext⟩ := not_or.mp (mt List.mem_cons.mpr h)
    rw [removeUuid, removeUuid_of_notMem htext]
    rintro _ rfl
    exact absurd rfl hc

/-- The five parts of an id are its digits. -/
theorem uuidText_join (h : List Char) :
    h.take 8 ++ ((h.drop 8).take 4 ++ ((h.drop 12).take 4 ++ ((h.drop 16).take 4 ++ h.drop 20))) =
      h := by
  have hnext : ∀ n, (h.drop n).take 4 ++ h.drop (n + 4) = h.drop n := by
    intro n
    rw [← List.drop_drop, List.take_append_drop]
  rw [hnext 16, hnext 12, hnext 8, List.take_append_drop]

/-- The bare text of a UUID is its 32 digits. -/
theorem bareHex_uuidText (id : Uuid) : bareHex (uuidText id) = hexDigits id 32 := by
  have hbrace : ∀ x ∈ uuidText id, isBrace x = false := by
    intro x hx
    have hbare := (uuidText_bare hx).1
    simp only [List.mem_cons, not_or] at hbare
    simp [isBrace, hbare.2.1, hbare.2.2.1]
  have hdrop : (uuidText id).dropWhile isBrace = uuidText id := by
    rw [List.dropWhile_eq_self_iff]
    intro hl
    rw [hbrace _ (List.getElem_mem hl)]
    exact Bool.false_ne_true
  have hrdrop : (uuidText id).rdropWhile isBrace = uuidText id := by
    rw [List.rdropWhile_eq_self_iff]
    intro hl
    rw [hbrace _ (List.getLast_mem hl)]
    exact Bool.false_ne_true
  have hdash : ∀ {text : List Char}, (∀ x ∈ text, x ∈ hexDigits id 32) →
      text.filter (· ≠ '-') = text := by
    intro text hmem
    rw [List.filter_eq_self]
    intro x hx
    obtain ⟨k, hk, rfl⟩ := mem_hexDigits (hmem x hx)
    have hbare := (hexDigit_bare k hk).1
    simp only [List.mem_cons, not_or] at hbare
    exact decide_eq_true hbare.2.2.2.1
  have hjoin := uuidText_join (hexDigits id 32)
  rw [bareHex, hdrop, hrdrop, uuidText]
  generalize hexDigits id 32 = h at hdash hjoin
  have hcons : ∀ text : List Char, ('-' :: text).filter (· ≠ '-') = text.filter (· ≠ '-') :=
    fun _ => rfl
  simp only [List.filter_append, hcons]
  rw [hdash fun x hx => List.mem_of_mem_take hx,
    hdash fun x hx => List.mem_of_mem_drop (List.mem_of_mem_take hx),
    hdash fun x hx => List.mem_of_mem_drop (List.mem_of_mem_take hx),
    hdash fun x hx => List.mem_of_mem_drop (List.mem_of_mem_take hx),
    hdash fun x hx => List.mem_of_mem_drop hx, hjoin]

/-- The padding is stripped, and nothing else. -/
theorem rdropWhile_padding {text : List Char} (h : '=' ∉ text) (n : ℕ) :
    (text ++ List.replicate n '=').rdropWhile (· = '=') = text := by
  induction n with
  | zero =>
    rw [List.replicate_zero, List.append_nil, List.rdropWhile_eq_self_iff]
    intro hl he
    exact h (of_decide_eq_true he ▸ List.getLast_mem hl)
  | succ n ih =>
    rw [List.replicate_succ', ← List.append_assoc, List.rdropWhile_concat_pos _ _ _ rfl, ih]

/-- A cursor is the base64 of its time and its UUID. -/
theorem toList_encodeCursor (createdAt : AwareDatetime) (id : Uuid) :
    (encodeCursor createdAt id).toList =
      Base64.encode ((isoformat createdAt ++ '|' :: uuidText id).map fun c =>
        UInt8.ofNat c.toNat) := by
  rw [encodeCursor, String.toList_ofList]
  exact rdropWhile_padding (Base64.pad_notMem_encode _) _

/-- A cursor is no longer than a page and a query allow. -/
theorem length_encodeCursor_le (createdAt : AwareDatetime) (id : Uuid) :
    (encodeCursor createdAt id).length ≤ 200 := by
  have hiso := length_isoformat_le createdAt
  rw [← String.length_toList, toList_encodeCursor, Base64.length_encode, List.length_map,
    List.length_append, List.length_cons, length_uuidText]
  omega

/-- The characters of a time are ASCII, and none is the bar. -/
theorem isDateTimeChar_bare {c : Char} (h : isDateTimeChar c) : c ≠ '|' ∧ c.toNat < 128 := by
  rw [isDateTimeChar, Bool.or_eq_true] at h
  rcases h with h | h
  · have hrange := Char.isDigit_iff_toNat.mp h
    refine ⟨fun he => ?_, Nat.lt_of_le_of_lt hrange.2 (by decide)⟩
    subst he
    revert h
    decide
  · have hall : ['-', ':', '.', '+', 'T'].all fun c => c ≠ '|' ∧ c.toNat < 128 := by decide
    exact of_decide_eq_true (List.all_eq_true.mp hall c (of_decide_eq_true h))

/-- ASCII text is decoded from its bytes. -/
theorem decodeAscii_map {text : List Char} (h : ∀ c ∈ text, c.toNat < 128) :
    CursorHost.decodeAscii (text.map fun c => UInt8.ofNat c.toNat) = some text := by
  have hbyte : ∀ c ∈ text, (UInt8.ofNat c.toNat).toNat = c.toNat := by
    intro c hc
    have hlt := h c hc
    rw [UInt8.toNat_ofNat']
    exact Nat.mod_eq_of_lt (by omega)
  have hall : (text.map fun c => UInt8.ofNat c.toNat).all fun b => b < 128 := by
    rw [List.all_map, List.all_eq_true]
    intro c hc
    refine decide_eq_true ?_
    rw [UInt8.lt_iff_toNat_lt, hbyte c hc]
    exact h c hc
  have hchars : (text.map fun c => UInt8.ofNat c.toNat).map (fun b => Char.ofNat b.toNat) =
      text := by
    rw [List.map_map]
    refine (List.map_congr_left fun c hc => ?_).trans (List.map_id text)
    rw [Function.comp_apply, hbyte c hc, Char.ofNat_toNat, id]
  rw [CursorHost.decodeAscii, if_pos hall, hchars]

/-- The bar is found after a text without one. -/
theorem splitBar_append {timestamp rawId : List Char} (h : '|' ∉ timestamp) :
    CursorHost.splitBar (timestamp ++ '|' :: rawId) = some (timestamp, rawId) := by
  have hall : ∀ c ∈ timestamp, decide (c ≠ '|') = true := fun c hc =>
    decide_eq_true fun he => h (he ▸ hc)
  rw [CursorHost.splitBar, List.dropWhile_append_of_pos hall, List.takeWhile_append_of_pos hall]
  simp

/-- A cursor that was written is read back. -/
theorem decodeCursor_encodeCursor (host : CursorHost) (createdAt : AwareDatetime) {id : Uuid}
    (hid : id < 2 ^ 128) : decodeCursor host (encodeCursor createdAt id) = .ok (createdAt, id) := by
  have hbytes : host.decodeBytes (encodeCursor createdAt id).toList =
      some ((isoformat createdAt ++ '|' :: uuidText id).map fun c => UInt8.ofNat c.toNat) := by
    rw [toList_encodeCursor, CursorHost.decodeBytes, if_neg (Base64.pad_notMem_encode _),
      Base64.decode_encode]
  have hascii : ∀ c ∈ isoformat createdAt ++ '|' :: uuidText id, c.toNat < 128 := by
    rw [List.forall_mem_append, List.forall_mem_cons]
    exact ⟨fun c hc => (isDateTimeChar_bare (isDateTimeChar_isoformat createdAt c hc)).2,
      by decide, fun c hc => (uuidText_bare hc).2⟩
  have hbar : '|' ∉ isoformat createdAt := fun h =>
    (isDateTimeChar_bare (isDateTimeChar_isoformat createdAt _ h)).1 rfl
  have hu : 'u' ∉ uuidText id := fun h => (uuidText_bare h).1 (by decide)
  have huuid : host.parseUuid (uuidText id) = some id := by
    have hdigits : ofHexDigits (hexDigits id 32) = some id :=
      ofHexDigits_hexDigits (hid.trans_eq (pow_mul 2 4 32))
    have hlen : ¬(hexDigits id 32).length ≠ 32 := not_not.mpr (length_hexDigits 32 id)
    unfold CursorHost.parseUuid
    rw [removeUrn_of_notMem hu, removeUuid_of_notMem hu, bareHex_uuidText]
    simp only [if_neg hlen, hdigits]
  have hdate : host.parseDateTime (isoformat createdAt) = some (some createdAt) := by
    unfold CursorHost.parseDateTime
    rw [readIsoformat_isoformat]
  unfold decodeCursor readCursor
  rw [hbytes]
  simp only [valueError, bind, Except.bind, decodeAscii_map hascii, splitBar_append hbar, hdate,
    requireOffset, huuid]
  rfl

/-- What fails, fails with a `ValueError`. -/
def OnlyValueErrors {α : Type} (x : Except Exn α) : Prop :=
  ∀ e, x = .error e → e.isInstance .valueError

/-- Parts with value errors only have value errors only. -/
theorem OnlyValueErrors.bind {α β : Type} {x : Except Exn α} {f : α → Except Exn β}
    (hx : OnlyValueErrors x) (hf : ∀ a, OnlyValueErrors (f a)) : OnlyValueErrors (x >>= f) := by
  intro e he
  cases x with
  | error e' =>
    obtain rfl := Except.error.inj he
    exact hx e' rfl
  | ok a => exact hf a e he

/-- What is missing is a value error. -/
theorem onlyValueErrors_valueError {α : Type} (a : Option α) :
    OnlyValueErrors (valueError a) := by
  intro e he
  cases a with
  | some a => cases he
  | none =>
    obtain rfl := Except.error.inj he
    decide

/-- Reading a cursor fails with a value error only. -/
theorem onlyValueErrors_readCursor (host : CursorHost) (value : String) :
    OnlyValueErrors (readCursor host value) := by
  unfold readCursor
  refine (onlyValueErrors_valueError _).bind fun data => ?_
  refine (onlyValueErrors_valueError _).bind fun decoded => ?_
  refine (onlyValueErrors_valueError _).bind fun parts => ?_
  refine (onlyValueErrors_valueError _).bind fun parsed => ?_
  refine OnlyValueErrors.bind ?_ fun createdAt => ?_
  · intro e he
    cases parsed with
    | some createdAt => cases he
    | none =>
      obtain rfl := Except.error.inj he
      decide
  · exact (onlyValueErrors_valueError _).bind fun id e he => nomatch he

/-- Whatever rejects a text, it is an invalid cursor. -/
theorem decodeCursor_error (host : CursorHost) {value : String} {e : Exn}
    (h : decodeCursor host value = .error e) : e.cls = invalidInvoiceCursor := by
  unfold decodeCursor at h
  cases hread : readCursor host value with
  | ok cursor =>
    rw [hread] at h
    cases h
  | error error =>
    rw [hread] at h
    dsimp only at h
    rw [if_pos (onlyValueErrors_readCursor host value error hread)] at h
    obtain rfl := Except.error.inj h
    rfl

end InvoiceOps
