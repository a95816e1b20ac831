import InvoiceOps.Codec
import InvoiceOps.DecimalText
import InvoiceOps.State

/-!
# Scalars and fingerprints

How the scalars of the evidence are written as JSON, and `modelDigest`, the SHA-256 of the compact
JSON of a value with its keys in order. What the host provides (the hash, the texts of dates and
identifiers, the Unicode tables) is a `Host`.
-/

namespace InvoiceOps

/-! ## Compact JSON -/

namespace Json

/-- `\uXXXX`. -/
def escapeUnit (n : ℕ) : String :=
  let digits := Nat.toDigits 16 n
  "\\u" ++ String.ofList (List.replicate (4 - digits.length) '0' ++ digits)

/-- A character of a string of ASCII JSON. -/
def escape (c : Char) : String :=
  if c = '"' then "\\\""
  else if c = '\\' then "\\\\"
  else if c = '\n' then "\\n"
  else if c = '\r' then "\\r"
  else if c = '\t' then "\\t"
  else if c = '\x08' then "\\b"
  else if c = '\x0c' then "\\f"
  else if ' ' ≤ c ∧ c ≤ '~' then c.toString
  else if c.toNat < 0x10000 then escapeUnit c.toNat
  else
    escapeUnit (0xd800 + (c.toNat - 0x10000) / 0x400) ++
      escapeUnit (0xdc00 + (c.toNat - 0x10000) % 0x400)

/-- The text of a string, in quotes and escaped. -/
def quote (s : String) : String :=
  "\"" ++ String.join (s.toList.map escape) ++ "\""

mutual

/-- The compact text of a value, its keys as they stand. -/
def compact : Json → String
  | null => "null"
  | bool b => if b then "true" else "false"
  | num n => toString n
  | str s => quote s
  | arr items => "[" ++ ",".intercalate (compactItems items) ++ "]"
  | obj fields => "\x7b" ++ ",".intercalate (compactFields fields) ++ "\x7d"

/-- The compact texts of some items. -/
def compactItems : List Json → List String
  | [] => []
  | j :: js => j.compact :: compactItems js

/-- The compact texts of some fields, each with its key. -/
def compactFields : List (String × Json) → List String
  | [] => []
  | (k, j) :: fs => (quote k ++ ":" ++ j.compact) :: compactFields fs

end

/-- `json.dumps(value, sort_keys=True, separators=(",", ":"))`. -/
def dumps (j : Json) : String :=
  j.sorted.compact

end Json

/-! ## The host -/

/-- `^[0-9a-f]{64}$`. -/
def isSha256 (s : String) : Bool :=
  s.length = 64 && s.toList.all fun c => ('0' ≤ c && c ≤ '9') || ('a' ≤ c && c ≤ 'f')

/-- A digest, in hexadecimal. -/
abbrev Sha256 := { s : String // isSha256 s }

/-- An aware datetime : the instant, and the offset in minutes it is told in. -/
structure Timestamp where
  instant : Instant
  utcOffset : ℤ
  deriving DecidableEq, Repr

theorem visible_not_space {c : Char} (h : '!' ≤ c ∧ c ≤ '~') : isPythonSpace c = false := by
  unfold isPythonSpace isPatternSpace
  simp only [Bool.or_eq_false_iff, decide_eq_false_iff_not, Bool.and_eq_false_iff]
  refine ⟨⟨fun hmem => ?_, Or.inl fun hle => ?_⟩, Or.inr fun hle => ?_⟩
  · simp only [List.mem_cons, List.not_mem_nil, or_false] at hmem
    rcases hmem with rfl | rfl | rfl | rfl | rfl | rfl | rfl | rfl | rfl | rfl | rfl | rfl |
      rfl | rfl <;> exact absurd h (by decide)
  · exact absurd (hle.trans h.2) (by decide)
  · exact absurd (h.1.trans hle) (by decide)

theorem digit_bounds {c : Char} (h : c.isDigit) : '0' ≤ c ∧ c ≤ '9' := by
  rw [Char.isDigit, Bool.and_eq_true, decide_eq_true_eq, decide_eq_true_eq] at h
  exact h

theorem digit_not_space {c : Char} (h : c.isDigit) : isPythonSpace c = false := by
  obtain ⟨hlow, hhigh⟩ := digit_bounds h
  exact visible_not_space ⟨(by decide : '!' ≤ '0').trans hlow, hhigh.trans (by decide : '9' ≤ '~')⟩

/-- A text of ASCII characters. -/
def isAscii (s : String) : Bool :=
  s.toList.all fun c => c.toNat < 128

/-- What the host of the program provides : the hash, the texts of dates and identifiers, and the
Unicode tables, which leave ASCII texts but for the case of their letters. -/
structure Host where
  sha256 : String → Sha256
  printDate : Date → String
  readDate : String → Option Date
  read_printDate : ∀ d, readDate (printDate d) = some d
  printDatetime : Timestamp → String
  readDatetime : String → Option Timestamp
  read_printDatetime : ∀ t, readDatetime (printDatetime t) = some t
  printUuid : Uuid → String
  readUuid : String → Option Uuid
  read_printUuid : ∀ u, readUuid (printUuid u) = some u
  nfkc : String → String
  nfkc_ascii : ∀ s, isAscii s → nfkc s = s
  casefold : String → String
  casefold_ascii : ∀ s, isAscii s → casefold s = String.ofList (s.toList.map Char.toLower)
  upper : String → String

namespace Host

variable (host : Host)

/-- `model_digest`, of a value as it is dumped. -/
def modelDigest {α : Type} (c : Codec α) (x : α) : Sha256 :=
  host.sha256 (c.dump x).dumps

/-- A date as JSON. -/
def date : Codec Date :=
  .text host.printDate host.readDate id host.read_printDate fun _ => rfl

/-- A timestamp as JSON. -/
def datetime : Codec Timestamp :=
  .text host.printDatetime host.readDatetime id host.read_printDatetime fun _ => rfl

/-- An identifier as JSON. -/
def uuid : Codec Uuid :=
  .text host.printUuid host.readUuid id host.read_printUuid fun _ => rfl

/-- Sixty-four digits are a digest. -/
theorem isSha256_hexDigits (n : ℕ) : isSha256 (String.ofList (hexDigits n 64)) := by
  have hdigit : ∀ k < 16, (('0' ≤ hexDigit k && hexDigit k ≤ '9') ||
      ('a' ≤ hexDigit k && hexDigit k ≤ 'f')) = true := by decide
  rw [isSha256, Bool.and_eq_true, List.all_eq_true]
  refine ⟨by simp [length_hexDigits], fun c hc => ?_⟩
  rw [String.toList_ofList] at hc
  obtain ⟨k, hk, rfl⟩ := mem_hexDigits hc
  exact hdigit k hk

/-- A number as a digest. -/
def digestOf (n : ℕ) : Sha256 :=
  ⟨String.ofList (hexDigits n 64), isSha256_hexDigits n⟩

/-- A decimal with the number as its signed coefficient. -/
def ofSigned (n exp : ℤ) : Decimal :=
  ⟨decide (n < 0), n.natAbs, exp⟩

/-- A number is the signed coefficient of its decimal. -/
theorem signed_ofSigned (n exp : ℤ) : (ofSigned n exp).signed = n := by
  unfold ofSigned Decimal.signed
  by_cases h : n < 0
  · rw [if_pos (decide_eq_true h), Int.ofNat_natAbs_of_nonpos h.le, neg_neg]
  · rw [if_neg (by simpa using h), Int.natAbs_of_nonneg (not_lt.mp h)]

/-- A host for small examples : it writes dates and identifiers as numbers, and mixes the characters
of a text. -/
def sample : Host where
  sha256 s := digestOf (s.toList.foldl (fun n c => (n * 257 + c.toNat) % 2 ^ 256) 0)
  printDate d := String.ofList (ofSigned d 0).scientific
  readDate s := (Decimal.parse s.toList).map Decimal.signed
  read_printDate d := by
    rw [String.toList_ofList, Decimal.parse_scientific, Option.map_some, signed_ofSigned]
  printDatetime t := String.ofList (ofSigned t.instant t.utcOffset).scientific
  readDatetime s := (Decimal.parse s.toList).map fun d => ⟨d.signed, d.exp⟩
  read_printDatetime t := by
    rw [String.toList_ofList, Decimal.parse_scientific, Option.map_some, signed_ofSigned]
    rfl
  printUuid u := String.ofList (ofSigned u 0).scientific
  readUuid s := (Decimal.parse s.toList).map Decimal.coeff
  read_printUuid u := by
    rw [String.toList_ofList, Decimal.parse_scientific, Option.map_some]
    rfl
  nfkc := id
  nfkc_ascii _ _ := rfl
  casefold s := String.ofList (s.toList.map Char.toLower)
  casefold_ascii _ _ := rfl
  upper s := String.ofList (s.toList.map Char.toUpper)

/-- A value is fingerprinted as what was read back for it. -/
theorem modelDigest_canon {α : Type} (c : Codec α) (x : α) :
    host.modelDigest c (c.canon x) = host.modelDigest c x := by
  rw [modelDigest, c.dump_canon, modelDigest]

end Host

/-! ## Bounded texts -/

/-- A text of `low` to `high` characters. -/
abbrev Text (low high : ℕ) := { s : String // low ≤ s.length ∧ s.length ≤ high }

/-- A bounded text as JSON. -/
def Text.codec (low high : ℕ) : Codec (Text low high) :=
  Codec.string.check _ fun _ h => h

/-- The code of a currency. -/
abbrev Currency := { s : String // isCurrency s }

namespace Currency

def eur : Currency := ⟨"EUR", by decide⟩
def gbp : Currency := ⟨"GBP", by decide⟩
def jpy : Currency := ⟨"JPY", by decide⟩
def kwd : Currency := ⟨"KWD", by decide⟩
def pln : Currency := ⟨"PLN", by decide⟩
def usd : Currency := ⟨"USD", by decide⟩

end Currency

/-- A currency as JSON. -/
def Currency.codec : Codec Currency :=
  Codec.string.check (fun s => isCurrency s) fun _ h => h

/-- `[A-Za-z0-9@_.:-]{1,128}`. -/
def isConfigVersion (s : String) : Bool :=
  1 ≤ s.length && s.length ≤ 128 && s.toList.all fun c =>
    ('A' ≤ c && c ≤ 'Z') || ('a' ≤ c && c ≤ 'z') || ('0' ≤ c && c ≤ '9') || c ∈ "@_.:-".toList

/-- The version of a configuration. -/
abbrev ConfigVersion := { s : String // isConfigVersion s }

/-- The version of a configuration as JSON. -/
def ConfigVersion.codec : Codec ConfigVersion :=
  Codec.string.check (fun s => isConfigVersion s) fun _ h => h

/-- A digest as JSON. -/
def Sha256.codec : Codec Sha256 :=
  Codec.string.check (fun s => isSha256 s) fun _ h => h

theorem Sha256.dump_ne_null (digest : Sha256) : codec.dump digest ≠ .null :=
  nofun

/-! ## Decimals -/

/-- `decimal_text` : canonical decimal strings. -/
def decimalText (value : Decimal) : String :=
  String.ofList value.plain

/-- The text of a number is read as the number, is the same for each decimal of it, and is written
again as it was. -/
theorem decimal_text_canonical :
    (∀ value : Decimal, ∃ read, Decimal.parse (decimalText value).toList = some read ∧
      read.value = value.value ∧ decimalText read = decimalText value) ∧
    ∀ value₁ value₂ : Decimal,
      decimalText value₁ = decimalText value₂ ↔ value₁.value = value₂.value := by
  constructor
  · intro value
    refine ⟨value.canonical, ?_, Decimal.value_canonical value, ?_⟩
    · rw [decimalText, String.toList_ofList, Decimal.parse_plain]
    · rw [decimalText, Decimal.plain_canonical, decimalText]
  · intro value₁ value₂
    rw [decimalText, decimalText, String.ofList_inj, Decimal.plain_eq_iff]

/-- `ExactDecimal`. -/
def exactDecimal : Codec Decimal :=
  .text decimalText (fun s => Decimal.parse s.toList) Decimal.canonical
    (fun d => by rw [decimalText, String.toList_ofList, Decimal.parse_plain])
    fun d => by rw [decimalText, Decimal.plain_canonical, decimalText]

/-- `StrictDecimal`. -/
def strictDecimal : Codec Decimal :=
  .text (fun d => String.ofList d.scientific) (fun s => Decimal.parse s.toList) id
    (fun d => by rw [String.toList_ofList, Decimal.parse_scientific, id]) fun _ => rfl

/-- A decimal with a condition on its value, written as an `ExactDecimal`. -/
def exactWhere (p : Decimal → Prop) [DecidablePred p] (h : ∀ d, p d → p d.canonical) :
    Codec { d // p d } :=
  exactDecimal.check p h

/-- `Field(max_digits=..., decimal_places=...)`, as documented (`Decimal.fits`). -/
abbrev Digits (maxDigits places : ℕ) := { d : Decimal // d.fits maxDigits places }

end InvoiceOps
