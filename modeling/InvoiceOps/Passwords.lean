import InvoiceOps.Values
import Mathlib.Data.UInt
import Mathlib.Data.List.Basic

/-!
# Password hashes

`hash_password` writes the parameters of `scrypt`, the salt and the digest into one text, which
`verify_password` reads back : what was hashed is verified (`verifyPassword_hashPassword`).
`scrypt` and `int` are parameters.
-/

namespace InvoiceOps

/-! ## Bytes as hexadecimal digits -/

/-- The value of a hexadecimal digit, of either case. -/
def hexValue (c : Char) : Option ℕ :=
  if '0' ≤ c ∧ c ≤ '9' then some (c.toNat - 48)
  else if 'a' ≤ c ∧ c ≤ 'f' then some (c.toNat - 87)
  else if 'A' ≤ c ∧ c ≤ 'F' then some (c.toNat - 55)
  else none

/-- `data.hex()`. -/
def hex (bytes : List UInt8) : List Char :=
  bytes.flatMap fun b => [hexDigit (b.toNat / 16), hexDigit (b.toNat % 16)]

/-- The whitespace of ASCII. -/
def isAsciiSpace (c : Char) : Bool :=
  c ∈ [' ', '\t', '\n', '\x0b', '\x0c', '\r']

/-- `bytes.fromhex(text)` : whitespace may stand between two bytes. -/
def fromHex : List Char → Option (List UInt8)
  | [] => some []
  | [c] => if isAsciiSpace c then some [] else none
  | c :: d :: text =>
    if isAsciiSpace c then fromHex (d :: text)
    else do
      let high ← hexValue c
      let low ← hexValue d
      let bytes ← fromHex text
      return UInt8.ofNat (16 * high + low) :: bytes

/-- A digit is read as its value, is no whitespace, and no separator. -/
theorem hexDigit_read : ∀ n < 16, hexValue (hexDigit n) = some n ∧
    isAsciiSpace (hexDigit n) = false ∧ hexDigit n ≠ '$' := by
  decide

/-- Bytes are read back from their digits. -/
theorem fromHex_hex (bytes : List UInt8) : fromHex (hex bytes) = some bytes := by
  induction bytes with
  | nil => rfl
  | cons b bytes ih =>
    have hb := b.toNat_lt
    obtain ⟨hhigh, hspace, -⟩ := hexDigit_read (b.toNat / 16) (by omega)
    obtain ⟨hlow, -, -⟩ := hexDigit_read (b.toNat % 16) (by omega)
    have hbyte : 16 * (b.toNat / 16) + b.toNat % 16 = b.toNat := Nat.div_add_mod ..
    rw [hex, List.flatMap_cons, List.cons_append, List.cons_append, List.nil_append, fromHex,
      hspace, hhigh, hlow]
    change (fromHex (hex bytes)).bind _ = _
    rw [ih, Option.bind_some, hbyte, UInt8.ofNat_toNat]
    rfl

/-- There is no separator among the digits. -/
theorem dollar_notMem_hex (bytes : List UInt8) : '$' ∉ hex bytes := by
  rw [hex, List.mem_flatMap]
  rintro ⟨b, -, hb⟩
  have hlt := b.toNat_lt
  have hhigh := (hexDigit_read (b.toNat / 16) (by omega)).2.2
  have hlow := (hexDigit_read (b.toNat % 16) (by omega)).2.2
  rcases List.mem_cons.mp hb with he | he
  · exact hhigh he.symm
  · exact hlow (List.mem_singleton.mp he).symm

/-! ## Hashes -/

/-- The functions of the standard library. -/
structure PasswordHost where
  /-- `hashlib.scrypt`, with the parameters below. -/
  scrypt : (password salt : List UInt8) → List UInt8
  /-- `int(text)`, where it does not raise. -/
  int : List Char → Option ℤ
  int_repr : ∀ n : ℕ, int n.repr.toList = some (n : ℤ)

namespace PasswordHost

variable (host : PasswordHost)

def scryptN : ℕ := 2 ^ 14
def scryptR : ℕ := 8
def scryptP : ℕ := 1

/-- The bytes of a salt, which is a text with one character for each byte. -/
def saltBytes (salt : String) : List UInt8 :=
  salt.toList.map fun c => UInt8.ofNat c.toNat

/-- `hash_password`, with its salt. -/
def hashPassword (salt password : String) : String :=
  let digest := host.scrypt password.toUTF8.toList (saltBytes salt)
  String.ofList (['$'].intercalate
    ["scrypt".toList, scryptN.repr.toList, scryptR.repr.toList, scryptP.repr.toList,
      hex (saltBytes salt), hex digest])

/-- `verify_password`. -/
def verifyPassword (password encoded : String) : Bool :=
  match encoded.toList.splitOn '$' with
  | [algorithm, n, r, p, salt, expected] =>
    if algorithm = "scrypt".toList ∧ host.int n = some (scryptN : ℤ) ∧
        host.int r = some (scryptR : ℤ) ∧ host.int p = some (scryptP : ℤ) then
      match fromHex salt, fromHex expected with
      | some salt, some expected => host.scrypt password.toUTF8.toList salt = expected
      | _, _ => false
    else false
  | _ => false

/-- A password is verified against its own hash. -/
theorem verifyPassword_hashPassword (salt password : String) :
    host.verifyPassword password (host.hashPassword salt password) = true := by
  have hsplit : (['$'].intercalate
      ["scrypt".toList, scryptN.repr.toList, scryptR.repr.toList, scryptP.repr.toList,
        hex (saltBytes salt), hex (host.scrypt password.toUTF8.toList (saltBytes salt))]).splitOn
        '$' =
      ["scrypt".toList, scryptN.repr.toList, scryptR.repr.toList, scryptP.repr.toList,
        hex (saltBytes salt), hex (host.scrypt password.toUTF8.toList (saltBytes salt))] := by
    refine List.splitOn_intercalate '$' ?_ (List.cons_ne_nil _ _)
    simp only [List.forall_mem_cons]
    refine ⟨by decide, by decide, by decide, by decide, dollar_notMem_hex _, dollar_notMem_hex _,
      fun _ => nofun⟩
  rw [hashPassword, verifyPassword, String.toList_ofList, hsplit]
  simp only [host.int_repr, fromHex_hex, and_self, if_true, decide_true]

end PasswordHost

end InvoiceOps
