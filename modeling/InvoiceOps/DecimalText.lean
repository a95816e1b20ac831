import InvoiceOps.Decimal
import Mathlib.Data.List.DropRight

/-!
# Decimals as text

`Decimal.parse` reads a number as it is written, with its trailing zeros. `fixedPoint` is the
number without an exponent, `scientific` the number with all its digits and its exponent :
`parse_scientific` reads the same decimal back. `canonical` is what is read from a fixed-point
text without trailing zeros, and there is one for each number (`canonical_eq_iff`).
-/

namespace Decimal

open Nat (toDigits ofDigitChars digitChar)

/-- The sign of a text. -/
def signText (neg : Bool) : List Char :=
  if neg then ['-'] else []

/-- The last `n` digits of `c`. -/
def lastDigits : ℕ → ℕ → List Char
  | _, 0 => []
  | c, n + 1 => lastDigits (c / 10) n ++ [digitChar (c % 10)]

/-- `format(value, "f")`. -/
def fixedPoint (d : Decimal) : List Char :=
  signText d.neg ++
    if 0 ≤ d.exp then toDigits 10 (d.coeff * 10 ^ d.exp.toNat)
    else toDigits 10 (d.coeff / 10 ^ (-d.exp).toNat) ++ '.' :: lastDigits d.coeff (-d.exp).toNat

/-- The exponent of a scientific notation, with its sign. -/
def exponentText (e : ℤ) : List Char :=
  'E' :: (if e < 0 then '-' else '+') :: toDigits 10 e.natAbs

/-- `str(value)`. -/
def scientific (d : Decimal) : List Char :=
  let int := toDigits 10 d.coeff
  let left := d.exp + int.length
  signText d.neg ++
    if d.exp ≤ 0 ∧ -6 < left then
      if left ≤ 0 then '0' :: '.' :: (List.replicate (-left).toNat '0' ++ int)
      else if d.exp = 0 then int
      else int.take left.toNat ++ '.' :: int.drop left.toNat
    else
      int.take 1 ++ (if int.length = 1 then [] else '.' :: int.drop 1) ++ exponentText (left - 1)

/-! ## Reading -/

/-- A sign, and the rest of the text. -/
def parseSign : List Char → Bool × List Char
  | '-' :: cs => (true, cs)
  | '+' :: cs => (false, cs)
  | cs => (false, cs)

/-- The digits after a point, and the rest of the text. -/
def parseFraction : List Char → List Char × List Char
  | '.' :: cs => (cs.takeWhile Char.isDigit, cs.dropWhile Char.isDigit)
  | cs => ([], cs)

/-- The exponent a text ends with ; none is zero. -/
def parseExponent : List Char → Option ℤ
  | [] => some 0
  | c :: cs =>
    let (neg, ds) := parseSign cs
    if (c = 'E' ∨ c = 'e') ∧ ds ≠ [] ∧ ds.all Char.isDigit then
      some (if neg then -ofDigitChars 10 ds 0 else ofDigitChars 10 ds 0)
    else none

/-- `Decimal(text)`, of a number. -/
def parse (text : List Char) : Option Decimal :=
  let (neg, cs) := parseSign text
  let whole := cs.takeWhile Char.isDigit
  let (fraction, rest) := parseFraction (cs.dropWhile Char.isDigit)
  if whole ++ fraction = [] then none
  else (parseExponent rest).map fun e =>
    ⟨neg, ofDigitChars 10 (whole ++ fraction) 0, e - fraction.length⟩

/-! ## Digits -/

theorem isDigit_toDigits {n : ℕ} {c : Char} (h : c ∈ toDigits 10 n) : c.isDigit :=
  Nat.isDigit_of_mem_toDigits (by decide) (by decide) h

theorem isDigit_lastDigits : ∀ {n c : ℕ} {x : Char}, x ∈ lastDigits c n → x.isDigit
  | 0, _, _, h => absurd h List.not_mem_nil
  | n + 1, c, x, h => by
    rcases List.mem_append.mp h with h | h
    · exact isDigit_lastDigits h
    · rw [List.mem_singleton.mp h, Nat.isDigit_digitChar]
      exact decide_eq_true (Nat.mod_lt c (by decide))

theorem length_lastDigits : ∀ n c : ℕ, (lastDigits c n).length = n
  | 0, _ => rfl
  | n + 1, c => by rw [lastDigits, List.length_append, length_lastDigits n, List.length_singleton]

/-- The whole part followed by the decimals are the digits of the coefficient. -/
theorem ofDigitChars_lastDigits : ∀ n c : ℕ,
    ofDigitChars 10 (toDigits 10 (c / 10 ^ n) ++ lastDigits c n) 0 = c
  | 0, c => by simp [lastDigits]
  | n + 1, c => by
    have hdiv : c / 10 ^ (n + 1) = c / 10 / 10 ^ n := by
      rw [pow_succ', Nat.div_div_eq_div_mul]
    rw [lastDigits, ← List.append_assoc, Nat.ofDigitChars_append, hdiv,
      ofDigitChars_lastDigits n (c / 10),
      Nat.ofDigitChars_cons_digitChar_of_lt_ten (Nat.mod_lt c (by decide)), Nat.ofDigitChars_nil]
    omega

theorem ofDigitChars_replicate (n : ℕ) (cs : List Char) :
    ofDigitChars 10 ('0' :: (List.replicate n '0' ++ cs)) 0 = ofDigitChars 10 cs 0 := by
  rw [Nat.ofDigitChars_cons, Nat.ofDigitChars_append, Nat.ofDigitChars_replicate_zero]
  simp

/-! ## What is read of a text in parts -/

/-- The point and the decimals, if there are any. -/
def pointText (ds : List Char) : List Char :=
  if ds = [] then [] else '.' :: ds

theorem parseSign_signText {neg : Bool} {cs : List Char}
    (h : ∃ c rest, cs = c :: rest ∧ c.isDigit) :
    parseSign (signText neg ++ cs) = (neg, cs) := by
  obtain ⟨c, rest, rfl, hc⟩ := h
  cases neg with
  | true => rfl
  | false =>
    have hminus : c ≠ '-' := by rintro rfl; cases hc
    have hplus : c ≠ '+' := by rintro rfl; cases hc
    simp only [signText, Bool.false_eq_true, if_false, List.nil_append]
    unfold parseSign
    split <;> simp_all

theorem takeWhile_digits {ds rest : List Char} (hd : ∀ c ∈ ds, c.isDigit)
    (hr : ∀ c, rest.head? = some c → c.isDigit = false) :
    (ds ++ rest).takeWhile Char.isDigit = ds ∧ (ds ++ rest).dropWhile Char.isDigit = rest := by
  rw [List.takeWhile_append_of_pos hd, List.dropWhile_append_of_pos hd]
  cases rest with
  | nil => simp
  | cons c rest =>
    have hc := hr c rfl
    simp [hc]

/-- An exponent, or nothing. -/
def IsExponent (cs : List Char) (e : ℤ) : Prop :=
  cs = [] ∧ e = 0 ∨ cs = exponentText e

theorem IsExponent.head {cs : List Char} {e : ℤ} (h : IsExponent cs e) :
    ∀ c, cs.head? = some c → c = 'E' := by
  intro c hc
  rcases h with ⟨rfl, -⟩ | rfl
  · cases hc
  · exact (Option.some.inj hc).symm

theorem parseExponent_eq {cs : List Char} {e : ℤ} (h : IsExponent cs e) :
    parseExponent cs = some e := by
  rcases h with ⟨rfl, rfl⟩ | rfl
  · rfl
  · have hne : toDigits 10 e.natAbs ≠ [] := Nat.toDigits_ne_nil
    have hall : (toDigits 10 e.natAbs).all Char.isDigit = true :=
      List.all_eq_true.mpr fun c hc => isDigit_toDigits hc
    unfold exponentText parseExponent
    by_cases he : e < 0
    · simp only [he, if_true, parseSign, hne, hall, ne_eq, not_false_eq_true, and_self, true_or,
        Nat.ofDigitChars_ten_toDigits]
      exact congrArg some (by omega)
    · simp only [he, if_false, parseSign, hne, hall, ne_eq, not_false_eq_true, and_self, true_or,
        Nat.ofDigitChars_ten_toDigits, Bool.false_eq_true]
      exact congrArg some (by omega)

/-- A sign, digits, decimals and an exponent. -/
theorem parse_parts {neg : Bool} {whole fraction rest : List Char} {e : ℤ} (hne : whole ≠ [])
    (hw : ∀ c ∈ whole, c.isDigit) (hf : ∀ c ∈ fraction, c.isDigit) (hrest : IsExponent rest e) :
    parse (signText neg ++ (whole ++ (pointText fraction ++ rest))) =
      some ⟨neg, ofDigitChars 10 (whole ++ fraction) 0, e - fraction.length⟩ := by
  have hsign : parseSign (signText neg ++ (whole ++ (pointText fraction ++ rest))) =
      (neg, whole ++ (pointText fraction ++ rest)) := by
    apply parseSign_signText
    cases whole with
    | nil => exact absurd rfl hne
    | cons c whole => exact ⟨c, _, rfl, hw c List.mem_cons_self⟩
  have hE : ('E' : Char).isDigit = false := by decide
  have hpoint : ('.' : Char).isDigit = false := by decide
  have hhead : ∀ c, (pointText fraction ++ rest).head? = some c → c.isDigit = false := by
    intro c hc
    unfold pointText at hc
    split at hc
    · rw [hrest.head c hc, hE]
    · cases hc
      exact hpoint
  obtain ⟨htake, hdrop⟩ := takeWhile_digits hw hhead
  have hfraction : parseFraction (pointText fraction ++ rest) = (fraction, rest) := by
    unfold pointText
    split
    · rename_i hnil
      rcases hrest with ⟨rfl, -⟩ | rfl
      · simp [hnil, parseFraction]
      · simp [hnil, parseFraction, exponentText]
    · have hrest' : ∀ c, rest.head? = some c → c.isDigit = false := fun c hc => by
        rw [hrest.head c hc, hE]
      obtain ⟨htake', hdrop'⟩ := takeWhile_digits hf hrest'
      simp only [List.cons_append, parseFraction, htake', hdrop']
  have hnonempty : whole ++ fraction ≠ [] := fun h => hne (List.append_eq_nil_iff.mp h).1
  unfold parse
  simp only [hsign, htake, hdrop, hfraction, hnonempty, if_false, parseExponent_eq hrest,
    Option.map_some]

/-- What is written in full is read back as it was. -/
theorem parse_scientific (d : Decimal) : parse d.scientific = some d := by
  have hpos : 0 < (toDigits 10 d.coeff).length := Nat.length_toDigits_pos
  have hne : toDigits 10 d.coeff ≠ [] := Nat.toDigits_ne_nil
  have hdigits : ∀ c ∈ toDigits 10 d.coeff, c.isDigit := fun c hc => isDigit_toDigits hc
  have hnone : IsExponent [] 0 := .inl ⟨rfl, rfl⟩
  have hzero : ('0' : Char).isDigit := by decide
  unfold scientific
  dsimp only
  set int := toDigits 10 d.coeff with hint
  set left := d.exp + int.length with hleft
  have hcoeff : ofDigitChars 10 int 0 = d.coeff := Nat.ofDigitChars_ten_toDigits
  split_ifs with hplain hsmall hexp hone
  · -- the point stands before the digits
    have hparts := @parse_parts d.neg ['0'] (List.replicate (-left).toNat '0' ++ int) [] 0
      (List.cons_ne_nil _ _) (by simp) ?_ hnone
    · have hpoint : pointText (List.replicate (-left).toNat '0' ++ int) =
          '.' :: (List.replicate (-left).toNat '0' ++ int) :=
        if_neg fun h => hne (List.append_eq_nil_iff.mp h).2
      rw [hpoint, List.append_nil] at hparts
      have hcs : ofDigitChars 10 (['0'] ++ (List.replicate (-left).toNat '0' ++ int)) 0 =
          d.coeff := (ofDigitChars_replicate _ int).trans hcoeff
      rw [hcs, List.length_append, List.length_replicate] at hparts
      refine hparts.trans (congrArg some ?_)
      have he : (0 : ℤ) - ((-left).toNat + int.length : ℕ) = d.exp := by omega
      rw [he]
    · intro c hc
      rcases List.mem_append.mp hc with hc | hc
      · rw [(List.mem_replicate.mp hc).2]
        exact hzero
      · exact hdigits c hc
  · -- an integer
    have hparts := @parse_parts d.neg int [] [] 0 hne hdigits (by simp) hnone
    simp only [pointText, if_true, List.append_nil, hcoeff] at hparts
    refine hparts.trans (congrArg some ?_)
    have he : (0 : ℤ) - ([] : List Char).length = d.exp := by simp [hexp]
    rw [he]
  · -- the point stands between the digits
    have hlt : left.toNat < int.length := by omega
    have hparts := @parse_parts d.neg (int.take left.toNat) (int.drop left.toNat) [] 0 ?_
      (fun c hc => hdigits c (List.mem_of_mem_take hc))
      (fun c hc => hdigits c (List.mem_of_mem_drop hc)) hnone
    · have hpoint : pointText (int.drop left.toNat) = '.' :: int.drop left.toNat := by
        refine if_neg fun h => ?_
        have := congrArg List.length h
        rw [List.length_drop, List.length_nil] at this
        omega
      rw [hpoint, List.append_nil, List.take_append_drop, hcoeff, List.length_drop] at hparts
      refine hparts.trans (congrArg some ?_)
      have he : (0 : ℤ) - (int.length - left.toNat : ℕ) = d.exp := by omega
      rw [he]
    · intro h
      have := congrArg List.length h
      rw [List.length_take, List.length_nil] at this
      omega
  · -- one digit and an exponent
    have hparts := @parse_parts d.neg int [] (exponentText (left - 1)) (left - 1) hne hdigits
      (by simp) (.inr rfl)
    have htake : int.take 1 = int := List.take_of_length_le hone.le
    simp only [pointText, if_true, List.nil_append, List.append_nil, hcoeff] at hparts
    rw [htake, List.append_nil]
    refine hparts.trans (congrArg some ?_)
    have he : left - 1 - ([] : List Char).length = d.exp := by
      rw [List.length_nil]
      omega
    rw [he]
  · -- several digits and an exponent
    have hparts := @parse_parts d.neg (int.take 1) (int.drop 1) (exponentText (left - 1)) (left - 1)
      ?_ (fun c hc => hdigits c (List.mem_of_mem_take hc))
      (fun c hc => hdigits c (List.mem_of_mem_drop hc)) (.inr rfl)
    · have hpoint : pointText (int.drop 1) = '.' :: int.drop 1 := by
        refine if_neg fun h => ?_
        have := congrArg List.length h
        rw [List.length_drop, List.length_nil] at this
        omega
      rw [hpoint, List.take_append_drop, hcoeff, List.length_drop] at hparts
      rw [List.append_assoc]
      refine hparts.trans (congrArg some ?_)
      have he : left - 1 - (int.length - 1 : ℕ) = d.exp := by omega
      rw [he]
    · intro h
      have := congrArg List.length h
      rw [List.length_take, List.length_nil] at this
      omega

/-! ## Without trailing zeros -/

/-- `text.rstrip("0").rstrip(".")`, of a text with a point. -/
def stripZeros (text : List Char) : List Char :=
  if '.' ∈ text then (text.rdropWhile (· = '0')).rdropWhile (· = '.') else text

/-- The number in fixed point, without trailing zeros. -/
def plain (d : Decimal) : List Char :=
  if d.coeff = 0 then ['0'] else stripZeros d.fixedPoint

/-- The coefficient `c` with `n` decimals, without their trailing zeros. -/
def strip : ℕ → ℕ → ℕ × ℕ
  | c, 0 => (c, 0)
  | c, n + 1 => if c % 10 = 0 then strip (c / 10) n else (c, n + 1)

/-- The decimal a number in fixed point without trailing zeros is read as. -/
def canonical (d : Decimal) : Decimal :=
  if d.coeff = 0 then zero
  else if 0 ≤ d.exp then ⟨d.neg, d.coeff * 10 ^ d.exp.toNat, 0⟩
  else ⟨d.neg, (strip d.coeff (-d.exp).toNat).1, -(strip d.coeff (-d.exp).toNat).2⟩

theorem strip_eq : ∀ n c : ℕ, c * 10 ^ (strip c n).2 = (strip c n).1 * 10 ^ n ∧
    c / 10 ^ n = (strip c n).1 / 10 ^ (strip c n).2
  | 0, c => by simp [strip]
  | n + 1, c => by
    unfold strip
    split_ifs with h
    · obtain ⟨hmul, hdiv⟩ := strip_eq n (c / 10)
      have hc : c = c / 10 * 10 := (Nat.div_mul_cancel (Nat.dvd_of_mod_eq_zero h)).symm
      constructor
      · rw [pow_succ, ← mul_assoc, ← hmul]
        nth_rewrite 1 [hc]
        ring
      · rw [pow_succ', ← Nat.div_div_eq_div_mul]
        exact hdiv
    · exact ⟨rfl, rfl⟩

theorem strip_strip : ∀ n c : ℕ, strip (strip c n).1 (strip c n).2 = strip c n
  | 0, c => rfl
  | n + 1, c => by
    by_cases h : c % 10 = 0
    · have hs : strip c (n + 1) = strip (c / 10) n := by rw [strip, if_pos h]
      rw [hs]
      exact strip_strip n (c / 10)
    · have hs : strip c (n + 1) = (c, n + 1) := by rw [strip, if_neg h]
      rw [hs]
      exact hs

theorem strip_ne_zero {n c : ℕ} (h : c ≠ 0) : (strip c n).1 ≠ 0 := by
  intro h0
  have hmul := (strip_eq n c).1
  rw [h0, zero_mul] at hmul
  exact absurd hmul (by positivity)

@[simp] theorem value_canonical (d : Decimal) : d.canonical.value = d.value := by
  unfold canonical
  split_ifs with hc hexp
  · rw [value_zero, value_eq_zero.mpr hc]
  · refine value_congr ?_
    push_cast
    rw [mul_one, ← zpow_natCast, Int.toNat_of_nonneg hexp]
  · refine value_congr ?_
    have hmul := (strip_eq (-d.exp).toNat d.coeff).1
    have hcast : (d.coeff : ℚ) * 10 ^ (strip d.coeff (-d.exp).toNat).2 =
        (strip d.coeff (-d.exp).toNat).1 * 10 ^ (-d.exp).toNat := by exact_mod_cast hmul
    have hneg : d.exp = -((-d.exp).toNat : ℤ) := by omega
    rw [zpow_neg, zpow_natCast, hneg, zpow_neg, zpow_natCast, ← div_eq_mul_inv, ← div_eq_mul_inv,
      neg_neg, Int.toNat_natCast, div_eq_div_iff (by positivity) (by positivity)]
    exact hcast.symm

theorem rdropWhile_of_ne {l : List Char} {x a : Char} (h : x ≠ a) :
    (l ++ [x]).rdropWhile (· = a) = l ++ [x] := by
  rw [List.rdropWhile_concat, if_neg (by simpa using h)]

theorem rdropWhile_of_eq (l : List Char) (a : Char) :
    (l ++ [a]).rdropWhile (· = a) = l.rdropWhile (· = a) := by
  rw [List.rdropWhile_concat, if_pos (by simp)]

theorem strip_text (ds : List Char) : ∀ n c : ℕ,
    (ds ++ '.' :: lastDigits c n).rdropWhile (· = '0') =
      ds ++ '.' :: lastDigits (strip c n).1 (strip c n).2
  | 0, c => by
    rw [strip, lastDigits, rdropWhile_of_ne (by decide)]
  | n + 1, c => by
    have happend : ds ++ '.' :: lastDigits c (n + 1) =
        ds ++ '.' :: lastDigits (c / 10) n ++ [digitChar (c % 10)] := by
      rw [lastDigits, List.append_assoc, List.cons_append]
    by_cases h : c % 10 = 0
    · have hdigit : digitChar (c % 10) = '0' := Nat.digitChar_eq_zero.mpr h
      rw [happend, strip, if_pos h, hdigit, rdropWhile_of_eq]
      exact strip_text ds n (c / 10)
    · have hdigit : digitChar (c % 10) ≠ '0' := fun hd => h (Nat.digitChar_eq_zero.mp hd)
      rw [happend, strip, if_neg h, rdropWhile_of_ne hdigit, ← happend]

theorem ne_point_of_isDigit {c : Char} (h : c.isDigit) : c ≠ '.' := by
  rintro rfl
  cases h

/-- A text in fixed point, stripped. -/
theorem stripZeros_fixedPoint {neg : Bool} {c n : ℕ} :
    stripZeros (signText neg ++ (toDigits 10 (c / 10 ^ n) ++ '.' :: lastDigits c n)) =
      signText neg ++ (toDigits 10 ((strip c n).1 / 10 ^ (strip c n).2) ++
        pointText (lastDigits (strip c n).1 (strip c n).2)) := by
  have hmem : '.' ∈ signText neg ++ (toDigits 10 (c / 10 ^ n) ++ '.' :: lastDigits c n) := by simp
  rw [stripZeros, if_pos hmem, ← List.append_assoc, strip_text, (strip_eq n c).2]
  rcases hs : strip c n with ⟨c', n'⟩
  dsimp only
  cases n' with
  | zero =>
    have hdigits : toDigits 10 (c' / 10 ^ 0) ≠ [] := Nat.toDigits_ne_nil
    have hlast := ne_point_of_isDigit (isDigit_toDigits (List.getLast_mem hdigits))
    rw [lastDigits, pointText, if_pos rfl, List.append_nil, rdropWhile_of_eq,
      ← List.dropLast_concat_getLast hdigits, ← List.append_assoc, rdropWhile_of_ne hlast]
  | succ k =>
    have hne : lastDigits c' (k + 1) ≠ [] := by simp [lastDigits]
    have hlast : digitChar (c' % 10) ≠ '.' := by
      refine ne_point_of_isDigit ?_
      rw [Nat.isDigit_digitChar]
      exact decide_eq_true (Nat.mod_lt c' (by decide))
    have happend : signText neg ++ toDigits 10 (c' / 10 ^ (k + 1)) ++
        '.' :: lastDigits c' (k + 1) =
        (signText neg ++ toDigits 10 (c' / 10 ^ (k + 1)) ++ '.' :: lastDigits (c' / 10) k) ++
          [digitChar (c' % 10)] := by
      rw [lastDigits, List.append_assoc, List.append_assoc, List.append_assoc, List.cons_append]
    rw [pointText, if_neg hne, happend, rdropWhile_of_ne hlast, ← happend, List.append_assoc]

theorem not_mem_point {neg : Bool} {n : ℕ} : '.' ∉ signText neg ++ toDigits 10 n := by
  intro h
  rcases List.mem_append.mp h with h | h
  · cases neg <;> simp [signText] at h
  · cases isDigit_toDigits h

/-- What is written without trailing zeros, in parts. -/
theorem plain_eq (d : Decimal) : d.plain =
    signText d.canonical.neg ++
      (toDigits 10 (d.canonical.coeff / 10 ^ (-d.canonical.exp).toNat) ++
        pointText (lastDigits d.canonical.coeff (-d.canonical.exp).toNat)) := by
  unfold plain canonical
  split_ifs with hc hexp
  · rfl
  · have hpow : (-(0 : ℤ)).toNat = 0 := rfl
    unfold fixedPoint
    rw [if_pos hexp, stripZeros, if_neg not_mem_point, hpow, lastDigits, pow_zero, Nat.div_one,
      pointText, if_pos rfl, List.append_nil]
  · unfold fixedPoint
    rw [if_neg hexp, stripZeros_fixedPoint, neg_neg, Int.toNat_natCast]

theorem canonical_canonical (d : Decimal) : d.canonical.canonical = d.canonical := by
  by_cases hc : d.coeff = 0
  · have h : d.canonical = zero := if_pos hc
    rw [h]
    rfl
  by_cases hexp : 0 ≤ d.exp
  · have h : d.canonical = ⟨d.neg, d.coeff * 10 ^ d.exp.toNat, 0⟩ := by
      rw [canonical, if_neg hc, if_pos hexp]
    have hc' : d.coeff * 10 ^ d.exp.toNat ≠ 0 := by positivity
    rw [h, canonical, if_neg hc', if_pos le_rfl]
    simp
  · have h : d.canonical =
        ⟨d.neg, (strip d.coeff (-d.exp).toNat).1, -(strip d.coeff (-d.exp).toNat).2⟩ := by
      rw [canonical, if_neg hc, if_neg hexp]
    have hss := strip_strip (-d.exp).toNat d.coeff
    rcases hs : strip d.coeff (-d.exp).toNat with ⟨c', n'⟩
    have hc' : c' ≠ 0 := by
      have := strip_ne_zero (n := (-d.exp).toNat) hc
      rwa [hs] at this
    rw [hs] at h hss
    rw [h, canonical, if_neg hc']
    dsimp only at hss ⊢
    split_ifs with hle
    · have hn : n' = 0 := by omega
      simp [hn]
    · rw [neg_neg, Int.toNat_natCast, hss]

/-- What is written without trailing zeros is read as the canonical decimal. -/
theorem parse_plain (d : Decimal) : parse d.plain = some d.canonical := by
  rw [plain_eq]
  have hexp : d.canonical.exp ≤ 0 := by
    unfold canonical
    split_ifs
    · exact le_rfl
    · exact le_rfl
    · dsimp only
      omega
  have hparts := @parse_parts d.canonical.neg
    (toDigits 10 (d.canonical.coeff / 10 ^ (-d.canonical.exp).toNat))
    (lastDigits d.canonical.coeff (-d.canonical.exp).toNat) [] 0 Nat.toDigits_ne_nil
    (fun c hc => isDigit_toDigits hc) (fun c hc => isDigit_lastDigits hc) (.inl ⟨rfl, rfl⟩)
  rw [List.append_nil, ofDigitChars_lastDigits, length_lastDigits] at hparts
  refine hparts.trans (congrArg some ?_)
  have he : (0 : ℤ) - (-d.canonical.exp).toNat = d.canonical.exp := by omega
  rw [he]

theorem plain_canonical (d : Decimal) : d.canonical.plain = d.plain := by
  rw [plain_eq, plain_eq, canonical_canonical]

/-! ## One decimal for each number -/

/-- Zero, or a number whose decimals do not end in a zero. -/
def Canonical (d : Decimal) : Prop :=
  d = zero ∨ d.coeff ≠ 0 ∧ d.exp ≤ 0 ∧ (d.exp = 0 ∨ d.coeff % 10 ≠ 0)

theorem strip_last : ∀ n c : ℕ, (strip c n).2 = 0 ∨ (strip c n).1 % 10 ≠ 0
  | 0, c => .inl rfl
  | n + 1, c => by
    by_cases h : c % 10 = 0
    · rw [strip, if_pos h]
      exact strip_last n (c / 10)
    · rw [strip, if_neg h]
      exact .inr h

theorem canonical_isCanonical (d : Decimal) : d.canonical.Canonical := by
  by_cases hc : d.coeff = 0
  · exact .inl (if_pos hc)
  refine .inr ?_
  by_cases hexp : 0 ≤ d.exp
  · rw [canonical, if_neg hc, if_pos hexp]
    exact ⟨by positivity, le_rfl, .inl rfl⟩
  · rw [canonical, if_neg hc, if_neg hexp]
    refine ⟨strip_ne_zero hc, by dsimp only; omega, ?_⟩
    rcases strip_last (-d.exp).toNat d.coeff with h | h
    · exact .inl (by dsimp only; omega)
    · exact .inr h

theorem Canonical.coeff_ne_zero {d : Decimal} (h : d.Canonical) (hvalue : d.value ≠ 0) :
    d.coeff ≠ 0 ∧ d.exp ≤ 0 ∧ (d.exp = 0 ∨ d.coeff % 10 ≠ 0) :=
  h.resolve_left fun hzero => hvalue (by rw [hzero, value_zero])

/-- Of two canonical decimals of one number none has fewer decimals. -/
theorem Canonical.exp_le {d d' : Decimal} (hd : d.Canonical) (hd' : d'.Canonical)
    (hvalue : d.value = d'.value) (hne : d.value ≠ 0) : d'.exp ≤ d.exp := by
  obtain ⟨-, hexp, hlast⟩ := hd.coeff_ne_zero hne
  obtain ⟨-, hexp', -⟩ := hd'.coeff_ne_zero (hvalue ▸ hne)
  by_contra hlt
  have habs : (d.coeff : ℚ) * 10 ^ d.exp = d'.coeff * 10 ^ d'.exp := by
    rw [← abs_value, ← abs_value, hvalue]
  have hsplit : (10 : ℚ) ^ d'.exp = 10 ^ (d'.exp - d.exp).toNat * 10 ^ d.exp := by
    rw [← zpow_natCast, ← zpow_add₀ (by norm_num)]
    congr 1
    omega
  have hpow : (10 : ℚ) ^ d.exp ≠ 0 := by positivity
  rw [hsplit, ← mul_assoc] at habs
  have hcoeff : d.coeff = d'.coeff * 10 ^ (d'.exp - d.exp).toNat := by
    exact_mod_cast mul_right_cancel₀ hpow habs
  obtain ⟨k, hk⟩ : ∃ k, (d'.exp - d.exp).toNat = k + 1 :=
    Nat.exists_eq_succ_of_ne_zero (by omega)
  rw [hk, pow_succ, ← mul_assoc] at hcoeff
  rcases hlast with h | h
  · omega
  · exact h (hcoeff ▸ Nat.mul_mod_left _ 10)

/-- A number has one canonical decimal. -/
theorem Canonical.ext {d d' : Decimal} (hd : d.Canonical) (hd' : d'.Canonical)
    (hvalue : d.value = d'.value) : d = d' := by
  by_cases hzero : d.value = 0
  · have hcoeff := value_eq_zero.mp hzero
    have hcoeff' := value_eq_zero.mp (hvalue ▸ hzero)
    have h : d = zero := hd.resolve_right fun h => h.1 hcoeff
    have h' : d' = zero := hd'.resolve_right fun h => h.1 hcoeff'
    rw [h, h']
  have hexp : d.exp = d'.exp :=
    le_antisymm (hd'.exp_le hd hvalue.symm (hvalue ▸ hzero)) (hd.exp_le hd' hvalue hzero)
  have hpow : (10 : ℚ) ^ d'.exp ≠ 0 := by positivity
  have hsigned : d.signed = d'.signed := by
    rw [value, value, hexp] at hvalue
    exact_mod_cast mul_right_cancel₀ hpow hvalue
  have hne := (hd.coeff_ne_zero hzero).1
  have hne' := (hd'.coeff_ne_zero (hvalue ▸ hzero)).1
  obtain ⟨neg, coeff, exp⟩ := d
  obtain ⟨neg', coeff', exp'⟩ := d'
  obtain rfl : exp = exp' := hexp
  cases neg <;> cases neg' <;> simp only [signed, Bool.false_eq_true, if_false, if_true] at hsigned
  · have : coeff = coeff' := by exact_mod_cast hsigned
    rw [this]
  · dsimp only at hne
    omega
  · dsimp only at hne
    omega
  · have : coeff = coeff' := by exact_mod_cast neg_injective hsigned
    rw [this]

theorem canonical_eq_iff {d d' : Decimal} : d.canonical = d'.canonical ↔ d.value = d'.value := by
  constructor
  · intro h
    rw [← value_canonical d, h, value_canonical]
  · intro h
    refine (canonical_isCanonical d).ext (canonical_isCanonical d') ?_
    rw [value_canonical, value_canonical, h]

/-- What is written without trailing zeros is the same for the same number. -/
theorem plain_eq_iff {d d' : Decimal} : d.plain = d'.plain ↔ d.value = d'.value := by
  rw [← canonical_eq_iff]
  constructor
  · intro h
    exact Option.some.inj ((parse_plain d).symm.trans (h ▸ parse_plain d'))
  · intro h
    rw [← plain_canonical d, h, plain_canonical]

/-! ## Lengths -/

theorem length_signText (neg : Bool) : (signText neg).length ≤ 1 := by
  cases neg <;> simp [signText]

/-- A number of at most `n` digits, with an exponent of fewer than `m`, has a short text. -/
theorem length_scientific {d : Decimal} {n m : ℕ} (hn : 0 < n) (hm : 0 < m)
    (hcoeff : d.coeff < 10 ^ n) (hexp : d.exp.natAbs + n < 10 ^ m) :
    d.scientific.length ≤ n + m + 10 := by
  have hint : (toDigits 10 d.coeff).length ≤ n :=
    (Nat.length_toDigits_le_iff (by norm_num) hn).mpr hcoeff
  have hpos : 0 < (toDigits 10 d.coeff).length := Nat.length_toDigits_pos
  have hsign := length_signText d.neg
  unfold scientific
  dsimp only
  split_ifs with hcase hleft hzero hone
  · simp only [List.length_append, List.length_cons, List.length_replicate]
    omega
  · simp only [List.length_append]
    omega
  · simp only [List.length_append, List.length_cons, List.length_take, List.length_drop]
    omega
  · have hexponent : (toDigits 10 (d.exp + (toDigits 10 d.coeff).length - 1).natAbs).length ≤ m :=
      (Nat.length_toDigits_le_iff (by norm_num) hm).mpr (by omega)
    simp only [List.length_append, exponentText, List.length_cons, List.length_take,
      List.length_nil]
    omega
  · have hexponent : (toDigits 10 (d.exp + (toDigits 10 d.coeff).length - 1).natAbs).length ≤ m :=
      (Nat.length_toDigits_le_iff (by norm_num) hm).mpr (by omega)
    simp only [List.length_append, exponentText, List.length_cons, List.length_take,
      List.length_drop]
    omega

/-- Digits are only dropped from a canonical form. -/
theorem strip_le : ∀ n c : ℕ, (strip c n).1 ≤ c ∧ (strip c n).2 ≤ n
  | 0, c => ⟨le_rfl, le_rfl⟩
  | n + 1, c => by
    unfold strip
    split_ifs
    · obtain ⟨hcoeff, hexp⟩ := strip_le n (c / 10)
      exact ⟨hcoeff.trans (Nat.div_le_self c 10), by omega⟩
    · exact ⟨le_rfl, le_rfl⟩

theorem canonical_bounds {d : Decimal} {n : ℕ} (hcoeff : d.coeff < 10 ^ n)
    (hvalue : |d.value| < 10 ^ n) :
    d.canonical.coeff < 10 ^ n ∧ d.canonical.exp.natAbs ≤ d.exp.natAbs := by
  unfold canonical
  split_ifs with hzero hexp
  · exact ⟨by rw [zero]; positivity, by simp [zero]⟩
  · refine ⟨?_, by simp⟩
    rw [abs_value] at hvalue
    have hpow : (10 : ℚ) ^ d.exp = (10 ^ d.exp.toNat : ℕ) := by
      obtain ⟨k, hk⟩ := Int.eq_ofNat_of_zero_le hexp
      rw [hk]
      simp
    rw [hpow] at hvalue
    exact_mod_cast hvalue
  · obtain ⟨hle, hplaces⟩ := strip_le (-d.exp).toNat d.coeff
    refine ⟨hle.trans_lt hcoeff, ?_⟩
    dsimp only
    omega

end Decimal
