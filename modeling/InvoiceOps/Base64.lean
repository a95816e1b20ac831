import Mathlib.Data.UInt
import Mathlib.Data.List.Basic

/-!
# Base 64

Three bytes are four digits ; one byte left is two digits, and two bytes left are three. `encode` is
without padding, and what is encoded is read back (`decode_encode`). `b64encode` is the standard
encoding, with padding, and `b64decode` its strict decoder : it reads an encoding back
(`b64decode_b64encode`), and some other texts.
-/

namespace Base64

/-- The digits of the alphabet that is safe in a URL. -/
def digit (n : ℕ) : Char :=
  if n < 26 then Char.ofNat (65 + n)
  else if n < 52 then Char.ofNat (71 + n)
  else if n < 62 then Char.ofNat (n - 4)
  else if n = 62 then '-' else '_'

/-- The value of a digit, of either alphabet. -/
def value (c : Char) : Option ℕ :=
  if 'A' ≤ c ∧ c ≤ 'Z' then some (c.toNat - 65)
  else if 'a' ≤ c ∧ c ≤ 'z' then some (c.toNat - 71)
  else if '0' ≤ c ∧ c ≤ '9' then some (c.toNat + 4)
  else if c = '-' ∨ c = '+' then some 62
  else if c = '_' ∨ c = '/' then some 63
  else none

/-- The digits of some bytes. -/
def digits : List UInt8 → List ℕ
  | a :: b :: c :: bytes =>
    let n := a.toNat * 65536 + b.toNat * 256 + c.toNat
    n / 262144 :: n / 4096 % 64 :: n / 64 % 64 :: n % 64 :: digits bytes
  | [a, b] =>
    let n := a.toNat * 65536 + b.toNat * 256
    [n / 262144, n / 4096 % 64, n / 64 % 64]
  | [a] => [a.toNat / 4, a.toNat * 16 % 64]
  | [] => []

/-- The bytes of some digits. The bits that are left are dropped. -/
def bytes : List ℕ → Option (List UInt8)
  | a :: b :: c :: d :: digits =>
    let n := a * 262144 + b * 4096 + c * 64 + d
    (bytes digits).map fun rest =>
      UInt8.ofNat (n / 65536) :: UInt8.ofNat (n / 256 % 256) :: UInt8.ofNat (n % 256) :: rest
  | [a, b, c] =>
    let n := a * 4096 + b * 64 + c
    some [UInt8.ofNat (n / 1024), UInt8.ofNat (n / 4 % 256)]
  | [a, b] => some [UInt8.ofNat ((a * 64 + b) / 16)]
  | [_] => none
  | [] => some []

/-- The digits of some bytes, without padding. -/
def encode (data : List UInt8) : List Char :=
  (digits data).map digit

/-- The bytes that digits stand for, if they stand for any. -/
def decode (text : List Char) : Option (List UInt8) :=
  (text.mapM value).bind bytes

/-- The characters that complete the last group. -/
def padding (length : ℕ) : List Char :=
  List.replicate ((4 - length % 4) % 4) '='

/-- A digit is read as its value, and is no padding. -/
theorem digit_read : ∀ n < 64, value (digit n) = some n ∧ digit n ≠ '=' := by
  decide

theorem digits_lt : ∀ data : List UInt8, ∀ n ∈ digits data, n < 64
  | a :: b :: c :: data => by
    have ha := a.toNat_lt
    have hb := b.toNat_lt
    have hc := c.toNat_lt
    rw [digits]
    simp only [List.forall_mem_cons]
    exact ⟨by omega, by omega, by omega, by omega, digits_lt data⟩
  | [a, b] => by
    have ha := a.toNat_lt
    have hb := b.toNat_lt
    rw [digits]
    simp only [List.forall_mem_cons]
    exact ⟨by omega, by omega, by omega, fun _ => nofun⟩
  | [a] => by
    have ha := a.toNat_lt
    rw [digits]
    simp only [List.forall_mem_cons]
    exact ⟨by omega, by omega, fun _ => nofun⟩
  | [] => fun _ => nofun

theorem ofNat_of_eq {n : ℕ} {b : UInt8} (h : n = b.toNat) : UInt8.ofNat n = b := by
  rw [h, UInt8.ofNat_toNat]

/-- The bytes of the digits of some bytes are these bytes. -/
theorem bytes_digits : ∀ data : List UInt8, bytes (digits data) = some data
  | a :: b :: c :: data => by
    have ha := a.toNat_lt
    have hb := b.toNat_lt
    have hc := c.toNat_lt
    rw [digits, bytes, bytes_digits data, Option.map_some]
    congr 1
    refine congrArg₂ _ (ofNat_of_eq (by omega)) (congrArg₂ _ (ofNat_of_eq (by omega))
      (congrArg (· :: data) (ofNat_of_eq (by omega))))
  | [a, b] => by
    have ha := a.toNat_lt
    have hb := b.toNat_lt
    rw [digits, bytes]
    congr 1
    exact congrArg₂ _ (ofNat_of_eq (by omega)) (congrArg (· :: []) (ofNat_of_eq (by omega)))
  | [a] => by
    have ha := a.toNat_lt
    rw [digits, bytes]
    exact congrArg (fun b => some [b]) (ofNat_of_eq (by omega))
  | [] => rfl

/-- So are the values of their digits. -/
theorem mapM_value : ∀ {ns : List ℕ}, (∀ n ∈ ns, n < 64) → (ns.map digit).mapM value = some ns
  | [], _ => rfl
  | n :: ns, h => by
    obtain ⟨hn, hns⟩ := List.forall_mem_cons.mp h
    rw [List.map_cons, List.mapM_cons, (digit_read n hn).1, mapM_value hns]
    rfl

/-- What is encoded is read back. -/
theorem decode_encode (data : List UInt8) : decode (encode data) = some data := by
  rw [decode, encode, mapM_value (digits_lt data), Option.bind_some, bytes_digits]

/-- An encoding without padding has no padding. -/
theorem pad_notMem_encode (data : List UInt8) : '=' ∉ encode data := by
  rw [encode, List.mem_map]
  rintro ⟨n, hn, he⟩
  exact (digit_read n (digits_lt data n hn)).2 he

/-- The length of an encoding without padding. -/
theorem length_encode : ∀ data : List UInt8, (encode data).length = (4 * data.length + 2) / 3
  | a :: b :: c :: data => by
    have ih := length_encode data
    rw [encode, List.length_map] at ih ⊢
    rw [digits, List.length_cons, List.length_cons, List.length_cons, List.length_cons, ih,
      List.length_cons, List.length_cons, List.length_cons]
    omega
  | [_, _] | [_] => by
    rw [encode, List.length_map, digits]
    simp only [List.length_cons, List.length_nil]
  | [] => rfl

/-! ## With padding -/

/-- The digits of the standard alphabet. -/
def standardDigit (n : ℕ) : Char :=
  if n < 26 then Char.ofNat (65 + n)
  else if n < 52 then Char.ofNat (71 + n)
  else if n < 62 then Char.ofNat (n - 4)
  else if n = 62 then '+' else '/'

/-- The value of a digit of the standard alphabet. -/
def standardValue (c : Char) : Option ℕ :=
  if 'A' ≤ c ∧ c ≤ 'Z' then some (c.toNat - 65)
  else if 'a' ≤ c ∧ c ≤ 'z' then some (c.toNat - 71)
  else if '0' ≤ c ∧ c ≤ '9' then some (c.toNat + 4)
  else if c = '+' then some 62
  else if c = '/' then some 63
  else none

/-- `b64encode`. -/
def b64encode (data : List UInt8) : List Char :=
  (digits data).map standardDigit ++ padding (digits data).length

/-- The loop of `a2b_base64` in strict mode. `quad` is the position in a group, `left` the bits that
are left of the digit before, and `pads` the padding since the last digit. -/
def readStrict (quad left pads : ℕ) (padded : Bool) : List Char → Option (List UInt8)
  | [] => if quad = 0 then some [] else none
  | c :: rest =>
    if c = '=' then
      if 2 ≤ quad then
        if 4 ≤ quad + (pads + 1) then if rest = [] then some [] else none
        else readStrict quad left (pads + 1) true rest
      else readStrict quad left pads true rest
    else
      match standardValue c with
      | none => none
      | some n =>
        if padded then none
        else
          match quad with
          | 0 => readStrict 1 n 0 false rest
          | 1 => (readStrict 2 (n % 16) 0 false rest).map (UInt8.ofNat (left * 4 + n / 16) :: ·)
          | 2 => (readStrict 3 (n % 4) 0 false rest).map (UInt8.ofNat (left * 16 + n / 4) :: ·)
          | _ => (readStrict 0 0 0 false rest).map (UInt8.ofNat (left * 64 + n) :: ·)

/-- `b64decode`, with validation. -/
def b64decode (text : List Char) : Option (List UInt8) :=
  if text.head? = some '=' then none else readStrict 0 0 0 false text

/-- A standard digit is read as its value, and is no padding. -/
theorem standardDigit_read :
    ∀ n < 64, standardValue (standardDigit n) = some n ∧ standardDigit n ≠ '=' := by
  decide

section

variable {left pads n : ℕ} (hn : n < 64) (rest : List Char)

include hn

/-- The first digit of a group is kept. -/
theorem readStrict_first : readStrict 0 left pads false (standardDigit n :: rest) =
    readStrict 1 n 0 false rest := by
  obtain ⟨hvalue, hne⟩ := standardDigit_read n hn
  rw [readStrict, if_neg hne, hvalue]
  rfl

/-- The second digit makes the first byte. -/
theorem readStrict_second : readStrict 1 left pads false (standardDigit n :: rest) =
    (readStrict 2 (n % 16) 0 false rest).map (UInt8.ofNat (left * 4 + n / 16) :: ·) := by
  obtain ⟨hvalue, hne⟩ := standardDigit_read n hn
  rw [readStrict, if_neg hne, hvalue]
  rfl

/-- The third makes the second. -/
theorem readStrict_third : readStrict 2 left pads false (standardDigit n :: rest) =
    (readStrict 3 (n % 4) 0 false rest).map (UInt8.ofNat (left * 16 + n / 4) :: ·) := by
  obtain ⟨hvalue, hne⟩ := standardDigit_read n hn
  rw [readStrict, if_neg hne, hvalue]
  rfl

/-- The fourth makes the third, and ends the group. -/
theorem readStrict_fourth : readStrict 3 left pads false (standardDigit n :: rest) =
    (readStrict 0 0 0 false rest).map (UInt8.ofNat (left * 64 + n) :: ·) := by
  obtain ⟨hvalue, hne⟩ := standardDigit_read n hn
  rw [readStrict, if_neg hne, hvalue]
  rfl

end

/-- A group of three bytes. -/
theorem b64encode_cons (a b c : UInt8) (data : List UInt8) :
    b64encode (a :: b :: c :: data) =
      (digits [a, b, c]).map standardDigit ++ b64encode data := by
  have hpadding (n : ℕ) : padding (n + 4) = padding n := by
    rw [padding, padding, Nat.add_mod_right]
  simp only [b64encode, digits, List.length_cons, List.map_cons, List.cons_append, List.map_nil,
    List.nil_append, Nat.add_assoc]
  rw [hpadding]

/-- Strict reading gives back what was encoded. -/
theorem readStrict_b64encode : ∀ data : List UInt8,
    readStrict 0 0 0 false (b64encode data) = some data
  | a :: b :: c :: data => by
    have ha := a.toNat_lt
    have hb := b.toNat_lt
    have hc := c.toNat_lt
    rw [b64encode_cons]
    simp only [digits, List.map_cons, List.map_nil, List.cons_append, List.nil_append]
    rw [readStrict_first (by omega), readStrict_second (by omega), readStrict_third (by omega),
      readStrict_fourth (by omega), readStrict_b64encode data, Option.map_some, Option.map_some,
      Option.map_some]
    exact congrArg some (congrArg₂ _ (ofNat_of_eq (by omega)) (congrArg₂ _ (ofNat_of_eq (by omega))
      (congrArg (· :: data) (ofNat_of_eq (by omega)))))
  | [a, b] => by
    have ha := a.toNat_lt
    have hb := b.toNat_lt
    have hpad : readStrict 3 ((a.toNat * 65536 + b.toNat * 256) / 64 % 64 % 4) 0 false ['='] =
        some [] := rfl
    simp only [b64encode, digits, List.map_cons, List.map_nil, List.cons_append, List.nil_append]
    change readStrict 0 0 0 false (standardDigit _ :: standardDigit _ :: standardDigit _ ::
      ['=']) = _
    rw [readStrict_first (by omega), readStrict_second (by omega), readStrict_third (by omega),
      hpad,
      Option.map_some, Option.map_some]
    exact congrArg some (congrArg₂ _ (ofNat_of_eq (by omega))
      (congrArg (· :: []) (ofNat_of_eq (by omega))))
  | [a] => by
    have ha := a.toNat_lt
    have hpad : readStrict 2 (a.toNat * 16 % 64 % 16) 0 false ['=', '='] = some [] := rfl
    simp only [b64encode, digits, List.map_cons, List.map_nil, List.cons_append, List.nil_append]
    change readStrict 0 0 0 false (standardDigit _ :: standardDigit _ :: ['=', '=']) = _
    rw [readStrict_first (by omega), readStrict_second (by omega), hpad, Option.map_some]
    exact congrArg (fun b => some [b]) (ofNat_of_eq (by omega))
  | [] => rfl

/-- An encoding is read back. -/
theorem b64decode_b64encode (data : List UInt8) : b64decode (b64encode data) = some data := by
  have hhead : (b64encode data).head? ≠ some '=' := by
    cases hdigits : digits data with
    | nil => simp [b64encode, hdigits, padding]
    | cons n ns =>
      have hn := digits_lt data n (hdigits ▸ List.mem_cons_self)
      simpa [b64encode, hdigits] using (standardDigit_read n hn).2
  rw [b64decode, if_neg hhead, readStrict_b64encode]

/-- So an encoding is that of one body only. -/
theorem b64encode_injective {data data' : List UInt8} (h : b64encode data = b64encode data') :
    data = data' :=
  Option.some.inj (by rw [← b64decode_b64encode data, h, b64decode_b64encode])

/-- An encoding is ASCII. -/
theorem b64encode_ascii (data : List UInt8) : ∀ c ∈ b64encode data, c.toNat < 128 := by
  have hdigit : ∀ n < 64, (standardDigit n).toNat < 128 := by decide
  intro c hc
  rcases List.mem_append.mp hc with hc | hc
  · obtain ⟨n, hn, rfl⟩ := List.mem_map.mp hc
    exact hdigit n (digits_lt data n hn)
  · rw [(List.mem_replicate.mp hc).2]
    decide

/-- The length of an encoding. -/
theorem length_b64encode : ∀ data : List UInt8,
    (b64encode data).length = 4 * ((data.length + 2) / 3)
  | a :: b :: c :: data => by
    rw [b64encode_cons, List.length_append, length_b64encode data, List.length_map, digits,
      List.length_cons, List.length_cons, List.length_cons, List.length_cons, digits,
      List.length_cons, List.length_cons, List.length_cons, List.length_nil]
    omega
  | [_, _] | [_] => by
    rw [b64encode, List.length_append, List.length_map, digits, padding, List.length_replicate]
    simp only [List.length_cons, List.length_nil]
  | [] => rfl

end Base64
