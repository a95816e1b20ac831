import Mathlib.Algebra.Order.Field.Power
import Mathlib.Data.Nat.Log
import Mathlib.Data.Rat.Floor
import Mathlib.Tactic.Linarith
import Mathlib.Tactic.Positivity
import Mathlib.Tactic.Ring

/-!
# Decimal arithmetic

A `Decimal` is a sign, a coefficient and a power of ten ; its trailing zeros are part of it. An
operation is the exact result, rounded to the digits the context has (`Context.fix`), and signals
what the context traps.

`Context.Exact x` says that `x` has few enough digits for the context. `Context.fix_exact` : an
operation with such a result is the operation on the rationals, whatever trailing zeros its
operands have.
-/

/-- A finite decimal : its sign, its coefficient and its exponent. -/
structure Decimal where
  neg : Bool
  coeff : ℕ
  exp : ℤ
  deriving DecidableEq, Repr

namespace Decimal

/-- The coefficient with its sign. -/
def signed (d : Decimal) : ℤ :=
  if d.neg then -d.coeff else d.coeff

/-- The number. -/
def value (d : Decimal) : ℚ :=
  d.signed * 10 ^ d.exp

/-- Zero, with exponent zero. -/
def zero : Decimal :=
  ⟨false, 0, 0⟩

/-- One, with exponent zero. -/
def one : Decimal :=
  ⟨false, 1, 0⟩

/-- How many digits the coefficient has. -/
def digits (d : Decimal) : ℤ :=
  Nat.log 10 d.coeff + 1

/-- The coefficient with its sign, at a smaller exponent. -/
def aligned (d : Decimal) (e : ℤ) : ℤ :=
  d.signed * 10 ^ (d.exp - e).toNat

/-! ## Contexts -/

/-- The roundings the code asks for by name. -/
inductive Rounding where
  | halfUp | halfEven
  deriving DecidableEq, Repr

/-- Drop `n` digits of the coefficient `c`. -/
def Rounding.drop (c n : ℕ) : Rounding → ℕ
  | .halfUp => if 10 ^ n ≤ 2 * (c % 10 ^ n) then c / 10 ^ n + 1 else c / 10 ^ n
  | .halfEven =>
    if 10 ^ n < 2 * (c % 10 ^ n) ∨ 10 ^ n = 2 * (c % 10 ^ n) ∧ c / 10 ^ n % 2 = 1 then
      c / 10 ^ n + 1
    else c / 10 ^ n

/-- The traps of a context that reports invalid operations and overflows. -/
inductive Signal where
  | invalidOperation | overflow
  deriving DecidableEq, Repr

/-- The exception a trapped signal is raised as. -/
class OfSignal (ε : Type) where
  ofSignal : Signal → ε

/-- A context : how many digits, how to round, and which exponents. -/
structure Context where
  prec : ℕ
  rounding : Rounding
  emin : ℤ
  emax : ℤ

namespace Context

variable (ctx : Context)

/-- The smallest exponent of a result. -/
def etiny : ℤ :=
  ctx.emin - ctx.prec + 1

/-- The largest exponent of a result with all its digits. -/
def etop : ℤ :=
  ctx.emax - ctx.prec + 1

variable {ε : Type} [OfSignal ε]

/-- The number in the context : at most `prec` digits, an exponent between `etiny` and `etop`. -/
def fix (d : Decimal) : Except ε Decimal :=
  if d.coeff = 0 then .ok { d with exp := min (max d.exp ctx.etiny) ctx.emax }
  else if ctx.etop < d.digits + d.exp - ctx.prec then .error (OfSignal.ofSignal .overflow)
  else
    let exp := max (d.digits + d.exp - ctx.prec) ctx.etiny
    if exp ≤ d.exp then .ok d
    else
      let coeff := ctx.rounding.drop d.coeff (exp - d.exp).toNat
      if coeff < 10 ^ ctx.prec then .ok ⟨d.neg, coeff, exp⟩
      else if ctx.etop < exp + 1 then .error (OfSignal.ofSignal .overflow)
      else .ok ⟨d.neg, coeff / 10, exp + 1⟩

/-- `abs`, rounded to the context. -/
def abs (a : Decimal) : Except ε Decimal :=
  ctx.fix { a with neg := false }

/-- The product, rounded to the context. -/
def mul (a b : Decimal) : Except ε Decimal :=
  ctx.fix ⟨a.neg ^^ b.neg, a.coeff * b.coeff, a.exp + b.exp⟩

/-- A sum of zeros is negative if both are. -/
def add (a b : Decimal) : Except ε Decimal :=
  let exp := min a.exp b.exp
  let sum := a.aligned exp + b.aligned exp
  ctx.fix ⟨sum < 0 || (sum = 0 && a.coeff = 0 && b.coeff = 0 && a.neg && b.neg), sum.natAbs, exp⟩

/-- The difference, rounded to the context. -/
def sub (a b : Decimal) : Except ε Decimal :=
  ctx.add a { b with neg := !b.neg }

/-- `sum`, from the left. -/
def sum : List Decimal → Decimal → Except ε Decimal
  | [], start => .ok start
  | d :: ds, start => do
    let start ← ctx.add start d
    sum ds start

/-- The number at the exponent `exp`, with no limit on its digits. -/
def rescale (d : Decimal) (exp : ℤ) : Decimal :=
  if exp ≤ d.exp then ⟨d.neg, d.coeff * 10 ^ (d.exp - exp).toNat, exp⟩
  else ⟨d.neg, ctx.rounding.drop d.coeff (exp - d.exp).toNat, exp⟩

/-- `quantize` : the same value with the given exponent, if it has one within the context. -/
def quantize (d : Decimal) (exp : ℤ) : Except ε Decimal :=
  if ¬(ctx.etiny ≤ exp ∧ exp ≤ ctx.emax) then .error (OfSignal.ofSignal .invalidOperation)
  else if d.coeff = 0 then ctx.fix ⟨d.neg, 0, exp⟩
  else if ctx.emax < d.digits + d.exp - 1 ∨ ctx.prec < d.digits + d.exp - exp then
    .error (OfSignal.ofSignal .invalidOperation)
  else if ctx.emax < (ctx.rescale d exp).digits + exp - 1 ∨
      ctx.prec < (ctx.rescale d exp).digits then
    .error (OfSignal.ofSignal .invalidOperation)
  else ctx.fix (ctx.rescale d exp)

end Context

/-- The operations a function computes with. -/
class Arithmetic (ε : Type) where
  abs : Decimal → Except ε Decimal
  add : Decimal → Decimal → Except ε Decimal
  sub : Decimal → Decimal → Except ε Decimal
  mul : Decimal → Decimal → Except ε Decimal
  quantize : Decimal → ℤ → Except ε Decimal

/-- The sum of a list, from the left. -/
def Arithmetic.sum {ε : Type} [Arithmetic ε] : List Decimal → Decimal → Except ε Decimal
  | [], start => .ok start
  | d :: ds, start => do
    let start ← Arithmetic.add start d
    sum ds start

/-- The operations of a context. -/
@[reducible] def Context.arithmetic (ctx : Context) (ε : Type) [OfSignal ε] : Arithmetic ε where
  abs := ctx.abs
  add := ctx.add
  sub := ctx.sub
  mul := ctx.mul
  quantize := ctx.quantize

/-- The nearest multiple of `10 ^ exp`, and of two nearest the one away from zero. -/
def roundHalfUp (x : ℚ) (exp : ℤ) : ℚ :=
  if x < 0 then -(⌊-x / 10 ^ exp + 1 / 2⌋ * 10 ^ exp) else ⌊x / 10 ^ exp + 1 / 2⌋ * 10 ^ exp

/-! ## Values -/

/-- A decimal is zero exactly if its coefficient is. -/
theorem value_eq_zero {d : Decimal} : d.value = 0 ↔ d.coeff = 0 := by
  have h10 : (10 : ℚ) ^ d.exp ≠ 0 := by positivity
  rw [value, mul_eq_zero, or_iff_left h10, Int.cast_eq_zero, signed]
  split <;> omega

@[simp] theorem value_zero : zero.value = 0 :=
  value_eq_zero.mpr rfl

@[simp] theorem value_one : one.value = 1 := by
  simp [value, one, signed]

theorem value_nonneg {d : Decimal} (h : d.neg = false) : 0 ≤ d.value := by
  have : 0 ≤ d.signed := by simp [signed, h]
  rw [value]
  positivity

/-- The coefficient at another exponent. -/
theorem value_aligned (d : Decimal) {e : ℤ} (h : e ≤ d.exp) :
    (d.aligned e : ℚ) * 10 ^ e = d.value := by
  have hsplit : (10 : ℚ) ^ d.exp = 10 ^ (d.exp - e).toNat * 10 ^ e := by
    rw [← zpow_natCast, ← zpow_add₀ (by norm_num)]
    congr 1
    omega
  rw [value, aligned, hsplit]
  push_cast
  ring

@[simp] theorem value_copyNegate (d : Decimal) :
    ({ d with neg := !d.neg } : Decimal).value = -d.value := by
  cases h : d.neg <;> simp [value, signed, h]

theorem value_copyAbs (d : Decimal) : ({ d with neg := false } : Decimal).value = |d.value| := by
  have hpow : (0 : ℚ) < 10 ^ d.exp := by positivity
  rw [value, value, abs_mul, abs_of_pos hpow]
  congr 1
  cases h : d.neg <;> simp [signed, h]

/-- The product of two decimals has the product of their values. -/
theorem value_mul (a b : Decimal) :
    (⟨a.neg ^^ b.neg, a.coeff * b.coeff, a.exp + b.exp⟩ : Decimal).value = a.value * b.value := by
  have hpow : (10 : ℚ) ^ (a.exp + b.exp) = 10 ^ a.exp * 10 ^ b.exp := zpow_add₀ (by norm_num) _ _
  have hsigned : (⟨a.neg ^^ b.neg, a.coeff * b.coeff, a.exp + b.exp⟩ : Decimal).signed =
      a.signed * b.signed := by
    cases ha : a.neg <;> cases hb : b.neg <;> simp [signed, ha, hb]
  rw [value, hsigned, hpow, value, value]
  push_cast
  ring

theorem signed_natAbs {k : ℤ} {neg : Bool} (h : neg = decide (k < 0) ∨ k = 0) (e : ℤ) :
    (⟨neg, k.natAbs, e⟩ : Decimal).signed = k := by
  rcases h with rfl | rfl
  · by_cases hk : k < 0
    · simp only [signed, hk, decide_true, if_true]
      omega
    · simp only [signed, hk, decide_false, Bool.false_eq_true, if_false]
      omega
  · simp [signed]

/-- The value of a decimal, with its sign apart. -/
theorem value_eq (d : Decimal) : d.value = (if d.neg then -1 else 1) * (d.coeff * 10 ^ d.exp) := by
  cases h : d.neg <;> simp [value, signed, h]

theorem abs_value (d : Decimal) : |d.value| = d.coeff * 10 ^ d.exp := by
  rw [← value_copyAbs, value_eq]
  simp

/-- Equal magnitudes make equal values. -/
theorem value_congr {neg : Bool} {c c' : ℕ} {e e' : ℤ}
    (h : (c : ℚ) * 10 ^ e = c' * 10 ^ e') :
    (⟨neg, c, e⟩ : Decimal).value = (⟨neg, c', e'⟩ : Decimal).value := by
  rw [value_eq, value_eq, h]

/-- A sum at the smaller exponent, with its sign. -/
theorem value_aligned_sum (a b : Decimal) {neg : Bool}
    (h : neg = decide (a.aligned (min a.exp b.exp) + b.aligned (min a.exp b.exp) < 0) ∨
      a.aligned (min a.exp b.exp) + b.aligned (min a.exp b.exp) = 0) :
    (⟨neg, (a.aligned (min a.exp b.exp) + b.aligned (min a.exp b.exp)).natAbs,
      min a.exp b.exp⟩ : Decimal).value = a.value + b.value := by
  rw [value, signed_natAbs h, ← value_aligned a (min_le_left _ _),
    ← value_aligned b (min_le_right a.exp b.exp)]
  push_cast
  ring

/-- The sum of two decimals on their lower exponent has the sum of their values. -/
theorem value_sum (a b : Decimal) :
    (⟨a.aligned (min a.exp b.exp) + b.aligned (min a.exp b.exp) < 0 ||
        (a.aligned (min a.exp b.exp) + b.aligned (min a.exp b.exp) = 0 && a.coeff = 0 &&
          b.coeff = 0 && a.neg && b.neg),
      (a.aligned (min a.exp b.exp) + b.aligned (min a.exp b.exp)).natAbs,
      min a.exp b.exp⟩ : Decimal).value = a.value + b.value := by
  refine value_aligned_sum a b ?_
  by_cases hsum : a.aligned (min a.exp b.exp) + b.aligned (min a.exp b.exp) = 0
  · exact .inr hsum
  · simp [hsum]

/-! ## Exact results -/

namespace Context

variable (ctx : Context)

/-- `x` has at most the digits of the context, at an exponent within its limits. -/
def Exact (x : ℚ) : Prop :=
  ∃ k e : ℤ, x = k * 10 ^ e ∧ |k| < 10 ^ ctx.prec ∧ ctx.etiny ≤ e ∧ e ≤ ctx.etop

variable {ctx} {ε : Type} [OfSignal ε]

/-- The first digit of `c · 10 ^ e`. -/
theorem log_bounds {c : ℕ} (hc : c ≠ 0) (e : ℤ) :
    (10 : ℚ) ^ (Nat.log 10 c + e) ≤ c * 10 ^ e ∧
      (c : ℚ) * 10 ^ e < 10 ^ (Nat.log 10 c + 1 + e) := by
  have hpow : (0 : ℚ) < 10 ^ e := by positivity
  have hlow : (10 : ℚ) ^ Nat.log 10 c ≤ c := by exact_mod_cast Nat.pow_log_le_self 10 hc
  have hhigh : (c : ℚ) < 10 ^ (Nat.log 10 c + 1) := by
    exact_mod_cast Nat.lt_pow_succ_log_self (by norm_num) c
  constructor
  · rw [zpow_add₀ (by norm_num), zpow_natCast]
    exact mul_le_mul_of_nonneg_right hlow hpow.le
  · have hexp : ((Nat.log 10 c : ℤ) + 1 + e) = ((Nat.log 10 c + 1 : ℕ) : ℤ) + e := by push_cast; rfl
    rw [hexp, zpow_add₀ (by norm_num), zpow_natCast]
    exact mul_lt_mul_of_pos_right hhigh hpow

/-- One number has one first digit, however it is written. -/
theorem log_add_eq {c c' : ℕ} (hc : c ≠ 0) (hc' : c' ≠ 0) {e e' : ℤ}
    (h : (c : ℚ) * 10 ^ e = c' * 10 ^ e') : Nat.log 10 c + e = Nat.log 10 c' + e' := by
  obtain ⟨hlow, hhigh⟩ := log_bounds hc e
  obtain ⟨hlow', hhigh'⟩ := log_bounds hc' e'
  rw [h] at hlow hhigh
  have h₁ := (zpow_lt_zpow_iff_right₀ (by norm_num : (1 : ℚ) < 10)).mp (hlow.trans_lt hhigh')
  have h₂ := (zpow_lt_zpow_iff_right₀ (by norm_num : (1 : ℚ) < 10)).mp (hlow'.trans_lt hhigh)
  omega

/-- The same number at a larger exponent that divides it. -/
theorem coeff_eq {c c' : ℕ} {e e' : ℤ} (h : (c : ℚ) * 10 ^ e = c' * 10 ^ e') (he : e ≤ e') :
    c = c' * 10 ^ (e' - e).toNat := by
  have hpow : (10 : ℚ) ^ e ≠ 0 := by positivity
  have hsplit : (10 : ℚ) ^ e' = 10 ^ (e' - e).toNat * 10 ^ e := by
    rw [← zpow_natCast, ← zpow_add₀ (by norm_num)]
    congr 1
    omega
  rw [hsplit, ← mul_assoc] at h
  exact_mod_cast mul_right_cancel₀ hpow h

/-- Zeros are dropped without rounding. -/
theorem drop_mul_pow (rounding : Rounding) (c n : ℕ) :
    rounding.drop (c * 10 ^ n) n = c := by
  cases rounding <;> simp [Rounding.drop]

/-- A result with few enough digits is not rounded. -/
theorem fix_exact {d : Decimal} (h : ctx.Exact d.value) :
    ∃ r : Decimal, (ctx.fix d : Except ε Decimal) = .ok r ∧ r.value = d.value := by
  obtain ⟨k, e, hk, hlt, hetiny, hetop⟩ := h
  unfold fix
  by_cases hc : d.coeff = 0
  · rw [if_pos hc]
    exact ⟨_, rfl, (value_eq_zero.mpr hc).symm ▸ value_eq_zero.mpr hc⟩
  have habs : (d.coeff : ℚ) * 10 ^ d.exp = (k.natAbs : ℕ) * 10 ^ e := by
    have hpow : (0 : ℚ) < 10 ^ e := by positivity
    rw [← abs_value, hk, abs_mul, abs_of_pos hpow, Nat.cast_natAbs, Int.cast_abs]
  have hk0 : k.natAbs ≠ 0 := by
    intro h0
    rw [h0, Nat.cast_zero, zero_mul, mul_eq_zero] at habs
    rcases habs with habs | habs
    · exact hc (by exact_mod_cast habs)
    · exact absurd habs (by positivity)
  have hlog : (Nat.log 10 d.coeff : ℤ) + d.exp = Nat.log 10 k.natAbs + e := log_add_eq hc hk0 habs
  have hprec : Nat.log 10 k.natAbs < ctx.prec := by
    refine Nat.log_lt_of_lt_pow hk0 ?_
    have : ((k.natAbs : ℕ) : ℤ) < ((10 ^ ctx.prec : ℕ) : ℤ) := by
      rw [Int.natCast_natAbs]
      exact_mod_cast hlt
    exact_mod_cast this
  have hdigits : d.digits + d.exp - ctx.prec ≤ e := by
    rw [digits]
    omega
  rw [if_neg hc, if_neg (by omega)]
  set exp := max (d.digits + d.exp - ctx.prec) ctx.etiny with hexp
  have hle : exp ≤ e := max_le hdigits hetiny
  by_cases hde : exp ≤ d.exp
  · exact ⟨d, if_pos hde, rfl⟩
  have hcoeff : d.coeff = k.natAbs * 10 ^ (e - exp).toNat * 10 ^ (exp - d.exp).toNat := by
    rw [mul_assoc, ← pow_add, coeff_eq habs (by omega)]
    congr 2
    omega
  have hdrop : ctx.rounding.drop d.coeff (exp - d.exp).toNat = k.natAbs * 10 ^ (e - exp).toNat := by
    rw [hcoeff, drop_mul_pow]
  have hsame : ((k.natAbs * 10 ^ (e - exp).toNat : ℕ) : ℚ) * 10 ^ exp = d.coeff * 10 ^ d.exp := by
    have hsplit : (10 : ℚ) ^ e = 10 ^ (e - exp).toNat * 10 ^ exp := by
      rw [← zpow_natCast, ← zpow_add₀ (by norm_num)]
      congr 1
      omega
    rw [habs, hsplit]
    push_cast
    ring
  have hfits : k.natAbs * 10 ^ (e - exp).toNat < 10 ^ ctx.prec := by
    have hne : k.natAbs * 10 ^ (e - exp).toNat ≠ 0 := by positivity
    have hlog' := log_add_eq hne hc hsame
    refine (Nat.log_lt_iff_lt_pow (by norm_num) hne).mp ?_
    have hmax : d.digits + d.exp - ctx.prec ≤ exp := le_max_left _ _
    rw [digits] at hmax
    omega
  rw [if_neg hde, hdrop, if_pos hfits]
  exact ⟨_, rfl, value_congr hsame⟩

/-- Exact absolute values are computed as they are. -/
theorem abs_exact {a : Decimal} (h : ctx.Exact |a.value|) :
    ∃ r : Decimal, (ctx.abs a : Except ε Decimal) = .ok r ∧ r.value = |a.value| := by
  rw [← value_copyAbs] at h ⊢
  exact fix_exact h

/-- So are exact products. -/
theorem mul_exact {a b : Decimal} (h : ctx.Exact (a.value * b.value)) :
    ∃ r : Decimal, (ctx.mul a b : Except ε Decimal) = .ok r ∧ r.value = a.value * b.value := by
  rw [← value_mul] at h ⊢
  exact fix_exact h

/-- So are exact sums. -/
theorem add_exact {a b : Decimal} (h : ctx.Exact (a.value + b.value)) :
    ∃ r : Decimal, (ctx.add a b : Except ε Decimal) = .ok r ∧ r.value = a.value + b.value := by
  rw [← value_sum] at h ⊢
  exact fix_exact h

/-- So are exact differences. -/
theorem sub_exact {a b : Decimal} (h : ctx.Exact (a.value - b.value)) :
    ∃ r : Decimal, (ctx.sub a b : Except ε Decimal) = .ok r ∧ r.value = a.value - b.value := by
  have hneg := value_copyNegate b
  rw [sub_eq_add_neg, ← hneg] at h ⊢
  exact add_exact h

/-- A sum whose partial sums all have few enough digits is not rounded. -/
theorem sum_exact {ds : List Decimal} : ∀ {start : Decimal},
    (∀ l, l <+: ds → ctx.Exact (start.value + (l.map value).sum)) →
    ∃ r : Decimal, (ctx.sum ds start : Except ε Decimal) = .ok r ∧
      r.value = start.value + (ds.map value).sum := by
  induction ds with
  | nil =>
    intro start _
    exact ⟨start, rfl, by simp⟩
  | cons d ds ih =>
    intro start h
    have hfirst : ctx.Exact (start.value + d.value) := by
      simpa using h [d] (List.cons_prefix_cons.mpr ⟨rfl, List.nil_prefix⟩)
    obtain ⟨next, hnext, hvalue⟩ := add_exact (ε := ε) hfirst
    obtain ⟨r, hr, hrv⟩ := @ih next fun l hl => by
      have := h (d :: l) (List.cons_prefix_cons.mpr ⟨rfl, hl⟩)
      rwa [List.map_cons, List.sum_cons, ← add_assoc, ← hvalue] at this
    refine ⟨r, ?_, ?_⟩
    · rw [sum, hnext]
      exact hr
    · rw [hrv, hvalue, List.map_cons, List.sum_cons, add_assoc]

/-- A number within the context's exponents is rounded, with its sign. -/
theorem fix_ok {d : Decimal} (hctx : ctx.emin < ctx.emax) (h : |d.value| < 10 ^ ctx.emax) :
    ∃ r : Decimal, (ctx.fix d : Except ε Decimal) = .ok r ∧ r.neg = d.neg := by
  unfold fix
  by_cases hc : d.coeff = 0
  · exact ⟨_, if_pos hc, rfl⟩
  have hlt : d.digits + d.exp ≤ ctx.emax := by
    rw [abs_value] at h
    have := (zpow_lt_zpow_iff_right₀ (by norm_num : (1 : ℚ) < 10)).mp
      ((log_bounds hc d.exp).1.trans_lt h)
    rw [digits]
    omega
  have hover : ¬ctx.etop < d.digits + d.exp - ctx.prec := by
    rw [etop]
    omega
  have hover' : ¬ctx.etop < max (d.digits + d.exp - ctx.prec) ctx.etiny + 1 := by
    rw [etop, etiny]
    omega
  rw [if_neg hc, if_neg hover]
  by_cases hde : max (d.digits + d.exp - ctx.prec) ctx.etiny ≤ d.exp
  · exact ⟨d, if_pos hde, rfl⟩
  · by_cases hfits : ctx.rounding.drop d.coeff
        (max (d.digits + d.exp - ctx.prec) ctx.etiny - d.exp).toNat < 10 ^ ctx.prec
    · exact ⟨_, (if_neg hde).trans (if_pos hfits), rfl⟩
    · exact ⟨_, (if_neg hde).trans ((if_neg hfits).trans (if_neg hover')), rfl⟩

/-- Dropping digits does not add one, but for a carry. -/
theorem drop_le {c n k : ℕ} (rounding : Rounding) (h : c < 10 ^ (k + n)) :
    rounding.drop c n ≤ 10 ^ k := by
  have hstep : rounding.drop c n ≤ c / 10 ^ n + 1 := by
    cases rounding <;> simp only [Rounding.drop] <;> split_ifs <;> simp
  have hdiv : c / 10 ^ n < 10 ^ k := by
    rw [Nat.div_lt_iff_lt_mul (by positivity), ← pow_add]
    exact h
  omega

/-- The digits and the exponent of a number in the context. -/
theorem fix_bounds (hprec : 1 ≤ ctx.prec) (hctx : ctx.etiny ≤ ctx.emax) {d r : Decimal}
    (h : (ctx.fix d : Except ε Decimal) = .ok r) :
    r.coeff < 10 ^ ctx.prec ∧ ctx.etiny ≤ r.exp ∧ r.exp ≤ ctx.emax := by
  unfold fix at h
  dsimp only at h
  split_ifs at h with hc hover hexp hfits hover'
  · rw [← Except.ok.inj h]
    refine ⟨?_, le_min (le_max_right _ _) hctx, min_le_right _ _⟩
    rw [hc]
    positivity
  · have hle := (le_max_left _ _).trans hexp
    rw [etop] at hover
    rw [digits] at hover hle
    rw [← Except.ok.inj h]
    refine ⟨Nat.lt_pow_of_log_lt (by norm_num) (by omega), (le_max_right _ _).trans hexp, ?_⟩
    omega
  · rw [etop] at hover
    rw [← Except.ok.inj h]
    refine ⟨hfits, le_max_right _ _, max_le ?_ hctx⟩
    omega
  · rw [etop] at hover'
    have hdigits : d.coeff < 10 ^ (Nat.log 10 d.coeff + 1) :=
      Nat.lt_pow_succ_log_self (by norm_num) _
    have hdrop : ctx.rounding.drop d.coeff
        (max (d.digits + d.exp - ctx.prec) ctx.etiny - d.exp).toNat ≤ 10 ^ ctx.prec := by
      refine drop_le _ (hdigits.trans_le (Nat.pow_le_pow_right (by norm_num) ?_))
      rw [digits]
      omega
    have hpos : 0 < 10 ^ ctx.prec := by positivity
    rw [← Except.ok.inj h]
    refine ⟨?_, ?_, ?_⟩
    · change _ / 10 < _
      omega
    · change _ ≤ _ + 1
      omega
    · change _ + 1 ≤ _
      omega

theorem mul_ok {a b : Decimal} (hctx : ctx.emin < ctx.emax)
    (h : |a.value * b.value| < 10 ^ ctx.emax) :
    ∃ r : Decimal, (ctx.mul a b : Except ε Decimal) = .ok r ∧ r.neg = (a.neg ^^ b.neg) := by
  rw [← value_mul] at h
  exact fix_ok hctx h

/-! ## Rounding to a quantum -/

/-- Half up is the floor of the value and a half. -/
theorem drop_halfUp (c n : ℕ) :
    (Rounding.halfUp.drop c n : ℤ) = ⌊(c : ℚ) / 10 ^ n + 1 / 2⌋ := by
  have hpow : (0 : ℚ) < 10 ^ n := by positivity
  have hdiv : (c : ℚ) = 10 ^ n * (c / 10 ^ n : ℕ) + (c % 10 ^ n : ℕ) := by
    exact_mod_cast (Nat.div_add_mod c (10 ^ n)).symm
  have hmod : ((c % 10 ^ n : ℕ) : ℚ) < 10 ^ n := by
    exact_mod_cast Nat.mod_lt c (by positivity)
  have hrest : (c : ℚ) / 10 ^ n = (c / 10 ^ n : ℕ) + ((c % 10 ^ n : ℕ) : ℚ) / 10 ^ n := by
    rw [div_eq_iff hpow.ne', add_mul, div_mul_cancel₀ _ hpow.ne', mul_comm _ ((10 : ℚ) ^ n)]
    exact hdiv
  rw [hrest, eq_comm, Int.floor_eq_iff, Rounding.drop]
  set q := c / 10 ^ n
  set r := c % 10 ^ n
  split_ifs with hhalf
  · have hhalf' : (1 : ℚ) / 2 ≤ (r : ℚ) / 10 ^ n := by
      rw [le_div_iff₀ hpow]
      have : (10 : ℚ) ^ n ≤ 2 * r := by exact_mod_cast hhalf
      linarith
    have hone : (r : ℚ) / 10 ^ n < 1 := (div_lt_one hpow).mpr hmod
    push_cast at hhalf' hone ⊢
    constructor <;> linarith
  · have hhalf' : (r : ℚ) / 10 ^ n < 1 / 2 := by
      rw [div_lt_iff₀ hpow]
      have : (2 : ℚ) * r < 10 ^ n := by exact_mod_cast not_le.mp hhalf
      linarith
    have hzero : (0 : ℚ) ≤ (r : ℚ) / 10 ^ n := by positivity
    push_cast at hhalf' hzero ⊢
    constructor <;> linarith

/-- Rescaling rounds the value half up, to the exponent. -/
theorem rescale_coeff (hround : ctx.rounding = .halfUp) (d : Decimal) (exp : ℤ) :
    ((ctx.rescale d exp).coeff : ℤ) = ⌊(d.coeff : ℚ) * 10 ^ d.exp / 10 ^ exp + 1 / 2⌋ := by
  unfold rescale
  split_ifs with hle
  · have hquot : (d.coeff : ℚ) * 10 ^ d.exp / 10 ^ exp =
        ((d.coeff * 10 ^ (d.exp - exp).toNat : ℕ) : ℤ) := by
      have hpow : (10 : ℚ) ^ d.exp = 10 ^ (d.exp - exp).toNat * 10 ^ exp := by
        rw [← zpow_natCast, ← zpow_add₀ (by norm_num)]
        congr 1
        omega
      rw [hpow, ← mul_assoc, mul_div_cancel_right₀ _ (by positivity)]
      push_cast
      rfl
    have hfloor : ⌊(1 / 2 : ℚ)⌋ = 0 := by norm_num
    rw [hquot, Int.floor_intCast_add, hfloor, add_zero]
  · have hpow : (10 : ℚ) ^ exp = 10 ^ (exp - d.exp).toNat * 10 ^ d.exp := by
      rw [← zpow_natCast, ← zpow_add₀ (by norm_num)]
      congr 1
      omega
    rw [hround, drop_halfUp, hpow, mul_div_mul_right _ _ (by positivity)]

theorem rescale_neg (d : Decimal) (exp : ℤ) : (ctx.rescale d exp).neg = d.neg := by
  unfold rescale
  split_ifs <;> rfl

theorem rescale_exp (d : Decimal) (exp : ℤ) : (ctx.rescale d exp).exp = exp := by
  unfold rescale
  split_ifs <;> rfl

/-- So the value of a rescaled decimal is the rounded value. -/
theorem rescale_value (hround : ctx.rounding = .halfUp) (d : Decimal) (exp : ℤ) :
    (ctx.rescale d exp).value = roundHalfUp d.value exp := by
  have hcoeff := rescale_coeff hround d exp
  rw [value_eq, rescale_neg, rescale_exp, roundHalfUp]
  have habs := abs_value d
  cases hneg : d.neg with
  | true =>
    have hvalue : d.value = -(d.coeff * 10 ^ d.exp) := by simp [value_eq, hneg]
    have hcast : ((ctx.rescale d exp).coeff : ℚ) = (⌊-d.value / 10 ^ exp + 1 / 2⌋ : ℚ) := by
      rw [hvalue, neg_neg, ← hcoeff]
      rfl
    rw [hcast, if_pos rfl]
    split_ifs with hlt
    · ring
    · have hzero : d.value = 0 := by
        have : (0 : ℚ) ≤ d.coeff * 10 ^ d.exp := by positivity
        linarith
      have hfloor : ⌊(1 / 2 : ℚ)⌋ = 0 := by norm_num
      simp only [hzero, neg_zero, zero_div, zero_add, hfloor, Int.cast_zero, zero_mul, mul_zero]
  | false =>
    have hvalue : d.value = d.coeff * 10 ^ d.exp := by simp [value_eq, hneg]
    have hcast : ((ctx.rescale d exp).coeff : ℚ) = (⌊d.value / 10 ^ exp + 1 / 2⌋ : ℚ) := by
      rw [hvalue, ← hcoeff]
      rfl
    have hnonneg : ¬d.value < 0 := not_lt.mpr (value_nonneg hneg)
    rw [hcast, if_neg hnonneg, if_neg Bool.false_ne_true, one_mul]

/-- A quantized number of few enough digits is rounded to the quantum, half away from zero. -/
theorem quantize_eq {d : Decimal} {exp : ℤ} (hround : ctx.rounding = .halfUp)
    (hprec : 1 ≤ ctx.prec) (hetiny : ctx.etiny ≤ exp) (hetop : exp ≤ ctx.etop)
    (h : |d.value| < 10 ^ (ctx.prec - 1 + exp)) :
    ∃ r : Decimal, (ctx.quantize d exp : Except ε Decimal) = .ok r ∧
      r.value = roundHalfUp d.value exp := by
  have hemax : exp + ctx.prec - 1 ≤ ctx.emax := by
    rw [etop] at hetop
    omega
  have hvalue := rescale_value hround d exp
  have hfits : (ctx.rescale d exp).coeff < 10 ^ ctx.prec := by
    have hcoeff := rescale_coeff hround d exp
    rw [← abs_value] at hcoeff
    have hsplit : (10 : ℚ) ^ ((ctx.prec : ℤ) - 1 + exp) = 10 ^ (ctx.prec - 1) * 10 ^ exp := by
      rw [zpow_add₀ (by norm_num), ← zpow_natCast]
      congr 2
      omega
    have hquot : |d.value| / 10 ^ exp < 10 ^ (ctx.prec - 1) := by
      rw [div_lt_iff₀ (by positivity), ← hsplit]
      exact h
    have hten : (1 : ℚ) ≤ 10 ^ (ctx.prec - 1) := one_le_pow₀ (by norm_num)
    have hstep : (10 : ℚ) ^ ctx.prec = 10 * 10 ^ (ctx.prec - 1) := by
      rw [← pow_succ']
      congr 1
      omega
    have hlt : ⌊|d.value| / 10 ^ exp + 1 / 2⌋ < ((10 ^ ctx.prec : ℕ) : ℤ) := by
      rw [Int.floor_lt]
      push_cast
      linarith
    rw [← hcoeff] at hlt
    exact_mod_cast hlt
  have hexact : ctx.Exact (ctx.rescale d exp).value := by
    refine ⟨(ctx.rescale d exp).signed, exp, by rw [value, rescale_exp], ?_, hetiny, hetop⟩
    have hsigned : |(ctx.rescale d exp).signed| = (ctx.rescale d exp).coeff := by
      unfold signed
      split_ifs <;> simp
    rw [hsigned]
    exact_mod_cast hfits
  have hdigits : (ctx.rescale d exp).digits ≤ ctx.prec := by
    rw [digits]
    by_cases hc : (ctx.rescale d exp).coeff = 0
    · rw [hc, Nat.log_zero_right]
      omega
    · have := Nat.log_lt_of_lt_pow hc hfits
      omega
  obtain ⟨r, hr, hrv⟩ := fix_exact (ε := ε) hexact
  rw [← hvalue]
  unfold quantize
  rw [if_neg (not_not.mpr ⟨hetiny, by omega⟩)]
  by_cases hc : d.coeff = 0
  · rw [if_pos hc]
    have hzero : d.value = 0 := value_eq_zero.mpr hc
    have hrescale : (ctx.rescale d exp).value = (⟨d.neg, 0, exp⟩ : Decimal).value := by
      rw [hvalue, hzero, value_eq_zero.mpr rfl]
      have hfloor : ⌊(1 / 2 : ℚ)⌋ = 0 := by norm_num
      simp only [roundHalfUp, lt_irrefl, if_false, zero_div, zero_add, hfloor, Int.cast_zero,
        zero_mul]
    rw [hrescale] at hexact ⊢
    exact fix_exact hexact
  · have hlow := (log_bounds hc d.exp).1
    rw [← abs_value] at hlow
    have hlog := (zpow_lt_zpow_iff_right₀ (by norm_num : (1 : ℚ) < 10)).mp (hlow.trans_lt h)
    rw [if_neg hc, if_neg, if_neg, hr]
    · exact ⟨r, rfl, hrv⟩
    · omega
    · rw [digits]
      omega

end Context

/-! ## Numbers of few decimals -/

/-- `x` has at most `places` decimals. -/
def Grid (places : ℕ) (x : ℚ) : Prop :=
  ∃ k : ℤ, x = k / 10 ^ places

/-- The number has at most `maxDigits` digits, `places` of them decimals, trailing zeros not
counted, which is how `max_digits` and `decimal_places` are documented. (The validator counts the
digits of `normalize()` in a context of 28 digits, so it may also pass longer numbers.) -/
def fits (maxDigits places : ℕ) (d : Decimal) : Bool :=
  if 0 ≤ d.exp + places then d.coeff * 10 ^ (d.exp + places).toNat < 10 ^ maxDigits
  else d.coeff % 10 ^ (-(d.exp + places)).toNat = 0 &&
    d.coeff / 10 ^ (-(d.exp + places)).toNat < 10 ^ maxDigits

/-- What fits has its places and is below its bound. -/
theorem fits_bound {maxDigits places : ℕ} {d : Decimal} (h : d.fits maxDigits places) :
    Grid places d.value ∧ |d.value| < 10 ^ maxDigits / 10 ^ places := by
  have hten : (10 : ℚ) ^ (places : ℕ) ≠ 0 := by positivity
  obtain ⟨c, hc, hlt⟩ : ∃ c : ℕ, (d.coeff : ℚ) * 10 ^ d.exp = c / 10 ^ places ∧
      c < 10 ^ maxDigits := by
    unfold fits at h
    split_ifs at h with hexp
    · refine ⟨_, ?_, of_decide_eq_true h⟩
      rw [eq_div_iff hten]
      push_cast
      rw [mul_assoc, ← zpow_natCast, ← zpow_natCast, ← zpow_add₀ (by norm_num)]
      congr 2
      omega
    · rw [Bool.and_eq_true, decide_eq_true_eq, decide_eq_true_eq] at h
      refine ⟨_, ?_, h.2⟩
      have hdiv : d.coeff = d.coeff / 10 ^ (-(d.exp + places)).toNat *
          10 ^ (-(d.exp + places)).toNat :=
        (Nat.div_mul_cancel (Nat.dvd_of_mod_eq_zero h.1)).symm
      rw [eq_div_iff hten]
      nth_rewrite 1 [hdiv]
      push_cast
      rw [mul_assoc, mul_assoc, ← zpow_natCast, ← zpow_natCast, ← zpow_add₀ (by norm_num),
        ← zpow_add₀ (by norm_num)]
      have hzero : ((-(d.exp + places)).toNat : ℤ) + (d.exp + places) = 0 := by omega
      rw [hzero, zpow_zero, mul_one]
  have hbound : (c : ℚ) / 10 ^ places < 10 ^ maxDigits / 10 ^ places := by
    have : (c : ℚ) < 10 ^ maxDigits := by exact_mod_cast hlt
    exact div_lt_div_of_pos_right this (by positivity)
  refine ⟨?_, by rw [abs_value, hc]; exact hbound⟩
  rw [value_eq, hc]
  split
  · exact ⟨-c, by push_cast; ring⟩
  · exact ⟨c, by push_cast; ring⟩

/-- And what has its places and is below its bound fits. -/
theorem fits_of_bound {maxDigits places : ℕ} {d : Decimal} (h : Grid places d.value)
    (hlt : |d.value| < 10 ^ maxDigits / 10 ^ places) : d.fits maxDigits places := by
  have hten : (0 : ℚ) < 10 ^ places := by positivity
  obtain ⟨k, hk⟩ := h
  have hcoeff : (d.coeff : ℚ) * 10 ^ d.exp = (k.natAbs : ℕ) * 10 ^ (-(places : ℤ)) := by
    rw [← abs_value, hk, abs_div, abs_of_pos hten, zpow_neg, zpow_natCast, Nat.cast_natAbs,
      Int.cast_abs, div_eq_mul_inv]
  have hbound : k.natAbs < 10 ^ maxDigits := by
    rw [hk, abs_div, abs_of_pos hten, div_lt_div_iff_of_pos_right hten] at hlt
    have : ((k.natAbs : ℕ) : ℚ) < ((10 ^ maxDigits : ℕ) : ℚ) := by
      rw [Nat.cast_natAbs, Int.cast_abs]
      exact_mod_cast hlt
    exact_mod_cast this
  unfold fits
  split_ifs with hexp
  · have hk' := Context.coeff_eq hcoeff.symm (by omega : -(places : ℤ) ≤ d.exp)
    have he : (d.exp - -(places : ℤ)).toNat = (d.exp + places).toNat := by
      congr 1
      omega
    rw [he] at hk'
    rw [← hk']
    exact decide_eq_true hbound
  · have hc := Context.coeff_eq hcoeff (by omega : d.exp ≤ -(places : ℤ))
    have he : (-(places : ℤ) - d.exp).toNat = (-(d.exp + places)).toNat := by
      congr 1
      omega
    rw [he] at hc
    rw [hc, Nat.mul_mod_left, Nat.mul_div_cancel _ (by positivity)]
    simp [hbound]

/-- Pydantic's digits and places, by value. -/
theorem fits_iff {maxDigits places : ℕ} {d : Decimal} :
    d.fits maxDigits places ↔ Grid places d.value ∧ |d.value| < 10 ^ maxDigits / 10 ^ places :=
  ⟨fits_bound, fun h => fits_of_bound h.1 h.2⟩

namespace Grid

variable {m n : ℕ} {x y : ℚ}

theorem zero : Grid n 0 :=
  ⟨0, by simp⟩

theorem mono (h : Grid m x) (hmn : m ≤ n) : Grid n x := by
  obtain ⟨k, hk⟩ := h
  have hsplit : (10 : ℚ) ^ n = 10 ^ m * 10 ^ (n - m) := by
    rw [← pow_add]
    congr 1
    omega
  refine ⟨k * 10 ^ (n - m), ?_⟩
  rw [hk, hsplit]
  push_cast
  rw [mul_div_mul_right _ _ (by positivity)]

/-- A grid is closed under negation. -/
theorem neg (h : Grid n x) : Grid n (-x) := by
  obtain ⟨k, rfl⟩ := h
  exact ⟨-k, by push_cast; ring⟩

/-- A grid is closed under absolute values. -/
theorem abs (h : Grid n x) : Grid n |x| := by
  rcases abs_choice x with hx | hx
  · rwa [hx]
  · rw [hx]
    exact h.neg

/-- A grid is closed under sums. -/
theorem add (hx : Grid n x) (hy : Grid n y) : Grid n (x + y) := by
  obtain ⟨k, rfl⟩ := hx
  obtain ⟨l, rfl⟩ := hy
  exact ⟨k + l, by push_cast; ring⟩

/-- A grid is closed under differences. -/
theorem sub (hx : Grid n x) (hy : Grid n y) : Grid n (x - y) := by
  rw [sub_eq_add_neg]
  exact hx.add hy.neg

/-- A product is on the grid with the places of both factors. -/
theorem mul (hx : Grid m x) (hy : Grid n y) : Grid (m + n) (x * y) := by
  obtain ⟨k, rfl⟩ := hx
  obtain ⟨l, rfl⟩ := hy
  exact ⟨k * l, by push_cast; rw [pow_add]; ring⟩

/-- The sum of a list is on the grid of its numbers. -/
theorem sum {l : List ℚ} (h : ∀ x ∈ l, Grid n x) : Grid n l.sum := by
  induction l with
  | nil => exact zero
  | cons x l ih =>
    rw [List.sum_cons]
    exact (h x List.mem_cons_self).add (ih fun y hy => h y (List.mem_cons_of_mem x hy))

/-- A rounded number is on the grid of its places. -/
theorem roundHalfUp (x : ℚ) (n : ℕ) : Grid n (roundHalfUp x (-n)) := by
  have hpow : (10 : ℚ) ^ (-(n : ℤ)) = 1 / 10 ^ n := by
    rw [zpow_neg, zpow_natCast, one_div]
  unfold Decimal.roundHalfUp
  rw [hpow]
  split_ifs
  · exact ⟨-⌊-x / (1 / 10 ^ n) + 1 / 2⌋, by push_cast; ring⟩
  · exact ⟨⌊x / (1 / 10 ^ n) + 1 / 2⌋, by ring⟩

/-- A number of few decimals is exact in a context with enough digits. -/
theorem exact {ctx : Context} (h : Grid n x) (hetiny : ctx.etiny ≤ -n) (hetop : -n ≤ ctx.etop)
    (hx : |x| * 10 ^ n < 10 ^ ctx.prec) : ctx.Exact x := by
  obtain ⟨k, rfl⟩ := h
  have hten : (0 : ℚ) < 10 ^ n := by positivity
  refine ⟨k, -n, ?_, ?_, hetiny, hetop⟩
  · rw [zpow_neg, zpow_natCast, div_eq_mul_inv]
  · rw [abs_div, abs_of_pos hten, div_mul_cancel₀ _ hten.ne'] at hx
    exact_mod_cast hx

end Grid

theorem roundHalfUp_nonneg {x : ℚ} (h : 0 ≤ x) (exp : ℤ) : 0 ≤ roundHalfUp x exp := by
  rw [roundHalfUp, if_neg (not_lt.mpr h)]
  have : 0 ≤ ⌊x / 10 ^ exp + 1 / 2⌋ := Int.floor_nonneg.mpr (by positivity)
  positivity

/-- Rounding moves a number by half a quantum at most. -/
theorem roundHalfUp_le {x : ℚ} (h : 0 ≤ x) (exp : ℤ) :
    roundHalfUp x exp ≤ x + 10 ^ exp / 2 := by
  have hpow : (0 : ℚ) < 10 ^ exp := by positivity
  have hfloor := mul_le_mul_of_nonneg_right (Int.floor_le (x / 10 ^ exp + 1 / 2)) hpow.le
  rw [roundHalfUp, if_neg (not_lt.mpr h)]
  rw [add_mul, div_mul_cancel₀ _ hpow.ne'] at hfloor
  linarith

end Decimal
