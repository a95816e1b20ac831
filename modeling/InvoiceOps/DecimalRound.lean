import InvoiceOps.Decimal
import Mathlib.Data.Int.Log
import Mathlib.Tactic.NormNum

/-!
# The number a context has for a rational

`Context.round x` is the number of at most `prec` digits that a context has for `x`. What `fix`
returns is the rounded value of its operand (`value_of_fix`), so that the result of an operation
only depends on the values of its operands.

Rounding is monotone (`round_mono`), keeps the numbers of the context (`round_exact`) and moves
another one by at most half a unit of its last digit (`abs_round_sub_le`).
-/

namespace Decimal

/-! ## The nearest integer -/

namespace Rounding

/-- Whether a number halfway between `n` and `n + 1` is rounded to `n`. -/
def Down (n : ℤ) : Rounding → Prop
  | .halfUp => False
  | .halfEven => n % 2 = 0

instance (n : ℤ) : DecidablePred (Down n)
  | .halfUp => inferInstanceAs (Decidable False)
  | .halfEven => inferInstanceAs (Decidable (n % 2 = 0))

/-- The nearest integer. -/
def nearest (rounding : Rounding) (x : ℚ) : ℤ :=
  if Int.fract x < 1 / 2 ∨ Int.fract x = 1 / 2 ∧ rounding.Down ⌊x⌋ then ⌊x⌋ else ⌊x⌋ + 1

variable (rounding : Rounding)

theorem nearest_intCast (n : ℤ) : rounding.nearest n = n := by
  rw [nearest, Int.fract_intCast, Int.floor_intCast, if_pos]
  left
  norm_num

theorem floor_le_nearest (x : ℚ) : ⌊x⌋ ≤ rounding.nearest x := by
  unfold nearest
  split_ifs <;> omega

theorem nearest_le (x : ℚ) : rounding.nearest x ≤ ⌊x⌋ + 1 := by
  unfold nearest
  split_ifs <;> omega

theorem nearest_mono {x y : ℚ} (h : x ≤ y) : rounding.nearest x ≤ rounding.nearest y := by
  have hfloor := Int.floor_le_floor h
  rcases hfloor.lt_or_eq with hlt | heq
  · have hx := rounding.nearest_le x
    have hy := rounding.floor_le_nearest y
    omega
  have hfract : Int.fract x ≤ Int.fract y := by
    have hx := Int.fract_add_floor x
    have hy := Int.fract_add_floor y
    rw [heq] at hx
    linarith
  unfold nearest
  rw [heq]
  split_ifs with hx hy hy
  · exact le_rfl
  · omega
  · refine absurd ?_ hx
    rcases hy with hy | ⟨hy, hdown⟩
    · exact .inl (hfract.trans_lt hy)
    · rcases (hfract.trans_eq hy).lt_or_eq with hx | hx
      · exact .inl hx
      · exact .inr ⟨hx, hdown⟩
  · exact le_rfl

theorem abs_nearest_sub_le (x : ℚ) : |(rounding.nearest x : ℚ) - x| ≤ 1 / 2 := by
  have hx := Int.fract_add_floor x
  have hnonneg := Int.fract_nonneg x
  have hlt := Int.fract_lt_one x
  unfold nearest
  split_ifs with h
  · have hle : Int.fract x ≤ 1 / 2 := by
      rcases h with h | h
      · exact h.le
      · exact h.1.le
    rw [abs_le]
    constructor <;> linarith
  · have hle : 1 / 2 ≤ Int.fract x := not_lt.mp fun hlt => h (.inl hlt)
    push_cast
    rw [abs_le]
    constructor <;> linarith

/-- Between two neighbouring multiples of `1 / 2n` all numbers are rounded alike. -/
theorem nearest_between {n : ℕ} (hn : 0 < n) {m : ℤ} {x : ℚ} (hlow : (m : ℚ) / (2 * n) < x)
    (hhigh : x < (m + 1) / (2 * n)) :
    rounding.nearest x = if m % (2 * n) < n then m / (2 * n) else m / (2 * n) + 1 := by
  have hpos : (0 : ℚ) < 2 * n := by positivity
  have hmod := Int.emod_nonneg m (by omega : (2 * n : ℤ) ≠ 0)
  have hlt := Int.emod_lt_of_pos m (by omega : (0 : ℤ) < 2 * n)
  have hsplit : (m : ℚ) = 2 * n * (m / (2 * n) : ℤ) + (m % (2 * n) : ℤ) := by
    exact_mod_cast (Int.mul_ediv_add_emod m (2 * n)).symm
  have hleft : 2 * n * (m / (2 * n) : ℤ) + (m % (2 * n) : ℤ) < x * (2 * n) := by
    rw [← hsplit]
    exact (div_lt_iff₀ hpos).mp hlow
  have hright : x * (2 * n) < 2 * n * (m / (2 * n) : ℤ) + (m % (2 * n) : ℤ) + 1 := by
    rw [← hsplit]
    exact (lt_div_iff₀ hpos).mp hhigh
  have hrest : ((m % (2 * n) : ℤ) : ℚ) + 1 ≤ 2 * n := by exact_mod_cast hlt
  have hrestNonneg : (0 : ℚ) ≤ (m % (2 * n) : ℤ) := by exact_mod_cast hmod
  have hfloor : ⌊x⌋ = m / (2 * n) := by
    rw [Int.floor_eq_iff]
    constructor <;> nlinarith
  have hfract : Int.fract x = x - (m / (2 * n) : ℤ) := by rw [Int.fract, hfloor]
  unfold nearest
  rw [hfloor]
  by_cases hhalf : m % (2 * n) < n
  · have hle : ((m % (2 * n) : ℤ) : ℚ) + 1 ≤ n := by exact_mod_cast hhalf
    rw [if_pos hhalf, if_pos]
    left
    rw [hfract]
    nlinarith
  · have hle : (n : ℚ) ≤ (m % (2 * n) : ℤ) := by exact_mod_cast not_lt.mp hhalf
    have hover : 1 / 2 < Int.fract x := by
      rw [hfract]
      nlinarith
    rw [if_neg hhalf, if_neg]
    rintro (h | h)
    · linarith
    · linarith [h.1]

/-- Dropping digits rounds to the nearest integer. -/
theorem drop_eq_nearest (c n : ℕ) : (rounding.drop c n : ℤ) = rounding.nearest (c / 10 ^ n) := by
  have hpow : (0 : ℚ) < 10 ^ n := by positivity
  have hdiv : (c : ℚ) = 10 ^ n * (c / 10 ^ n : ℕ) + (c % 10 ^ n : ℕ) := by
    exact_mod_cast (Nat.div_add_mod c (10 ^ n)).symm
  have hmod : ((c % 10 ^ n : ℕ) : ℚ) < 10 ^ n := by
    exact_mod_cast Nat.mod_lt c (by positivity)
  have hrest : (c : ℚ) / 10 ^ n = ((c / 10 ^ n : ℕ) : ℤ) + ((c % 10 ^ n : ℕ) : ℚ) / 10 ^ n := by
    rw [div_eq_iff hpow.ne', add_mul, div_mul_cancel₀ _ hpow.ne', mul_comm _ ((10 : ℚ) ^ n)]
    exact hdiv
  have hone : ((c % 10 ^ n : ℕ) : ℚ) / 10 ^ n < 1 := (div_lt_one hpow).mpr hmod
  have hzero : (0 : ℚ) ≤ ((c % 10 ^ n : ℕ) : ℚ) / 10 ^ n := by positivity
  have hfloor : ⌊(c : ℚ) / 10 ^ n⌋ = (c / 10 ^ n : ℕ) := by
    rw [hrest, Int.floor_intCast_add, Int.floor_eq_zero_iff.mpr ⟨hzero, hone⟩, add_zero]
  have hfract : Int.fract ((c : ℚ) / 10 ^ n) = ((c % 10 ^ n : ℕ) : ℚ) / 10 ^ n := by
    rw [hrest, Int.fract_intCast_add, Int.fract_eq_self.mpr ⟨hzero, hone⟩]
  have hlt : Int.fract ((c : ℚ) / 10 ^ n) < 1 / 2 ↔ 2 * (c % 10 ^ n) < 10 ^ n := by
    rw [hfract, div_lt_div_iff₀ hpow two_pos, one_mul, mul_comm]
    exact_mod_cast Iff.rfl
  have heq : Int.fract ((c : ℚ) / 10 ^ n) = 1 / 2 ↔ 2 * (c % 10 ^ n) = 10 ^ n := by
    rw [hfract, div_eq_div_iff hpow.ne' two_ne_zero, one_mul, mul_comm]
    exact_mod_cast Iff.rfl
  unfold nearest
  simp only [hlt, heq, hfloor]
  cases rounding with
  | halfUp =>
    simp only [drop, Down, and_false, or_false]
    split_ifs with h₁ h₂ h₂ <;> omega
  | halfEven =>
    simp only [drop, Down]
    split_ifs with h₁ h₂ h₂ <;> omega

end Rounding

/-! ## Rounding -/

namespace Context

variable (ctx : Context)

/-- The exponent of the last digit that is kept of `x`. -/
def quantum (x : ℚ) : ℤ :=
  max (Int.log 10 |x| + 1 - ctx.prec) ctx.etiny

/-- The nearest multiple of a power of ten. -/
def roundAt (exp : ℤ) (x : ℚ) : ℚ :=
  ctx.rounding.nearest (x / 10 ^ exp) * 10 ^ exp

/-- The number of the context nearest to `x`. -/
def round (x : ℚ) : ℚ :=
  if x < 0 then -ctx.roundAt (ctx.quantum x) (-x) else ctx.roundAt (ctx.quantum x) x

theorem quantum_neg (x : ℚ) : ctx.quantum (-x) = ctx.quantum x := by
  rw [quantum, abs_neg, quantum]

theorem roundAt_mono (exp : ℤ) {x y : ℚ} (h : x ≤ y) : ctx.roundAt exp x ≤ ctx.roundAt exp y := by
  have hpow : (0 : ℚ) < 10 ^ exp := by positivity
  have hmono := ctx.rounding.nearest_mono (div_le_div_of_nonneg_right h hpow.le)
  exact mul_le_mul_of_nonneg_right (by exact_mod_cast hmono) hpow.le

/-- A multiple of the unit is not rounded. -/
theorem roundAt_multiple {exp e : ℤ} (h : exp ≤ e) (k : ℤ) :
    ctx.roundAt exp (k * 10 ^ e) = k * 10 ^ e := by
  have hsplit : (10 : ℚ) ^ e = 10 ^ (e - exp).toNat * 10 ^ exp := by
    rw [← zpow_natCast, ← zpow_add₀ (by norm_num)]
    congr 1
    omega
  have hquot : (k : ℚ) * 10 ^ e / 10 ^ exp = ((k * 10 ^ (e - exp).toNat : ℤ) : ℚ) := by
    rw [hsplit, ← mul_assoc, mul_div_cancel_right₀ _ (by positivity)]
    push_cast
    rfl
  rw [roundAt, hquot, Rounding.nearest_intCast, ← hquot, div_mul_cancel₀ _ (by positivity)]

theorem roundAt_power {exp e : ℤ} (h : exp ≤ e) : ctx.roundAt exp (10 ^ e) = 10 ^ e := by
  simpa using ctx.roundAt_multiple h 1

theorem roundAt_zero (exp : ℤ) : ctx.roundAt exp 0 = 0 := by
  simpa using ctx.roundAt_multiple (le_refl exp) 0

theorem roundAt_nonneg (exp : ℤ) {x : ℚ} (h : 0 ≤ x) : 0 ≤ ctx.roundAt exp x := by
  rw [← ctx.roundAt_zero exp]
  exact ctx.roundAt_mono exp h

theorem abs_roundAt_sub_le (exp : ℤ) (x : ℚ) : |ctx.roundAt exp x - x| ≤ 10 ^ exp / 2 := by
  have hpow : (0 : ℚ) < 10 ^ exp := by positivity
  have hsplit : ctx.roundAt exp x - x =
      ((ctx.rounding.nearest (x / 10 ^ exp) : ℚ) - x / 10 ^ exp) * 10 ^ exp := by
    rw [sub_mul, div_mul_cancel₀ _ hpow.ne', roundAt]
  rw [hsplit, abs_mul, abs_of_pos hpow]
  calc |(ctx.rounding.nearest (x / 10 ^ exp) : ℚ) - x / 10 ^ exp| * 10 ^ exp
      ≤ 1 / 2 * 10 ^ exp :=
        mul_le_mul_of_nonneg_right (ctx.rounding.abs_nearest_sub_le _) hpow.le
    _ = 10 ^ exp / 2 := by ring

theorem round_zero : ctx.round 0 = 0 := by
  rw [round, if_neg (lt_irrefl _), roundAt_zero]

theorem round_neg (x : ℚ) : ctx.round (-x) = -ctx.round x := by
  rcases lt_trichotomy x 0 with h | rfl | h
  · rw [round, round, if_neg (by linarith), if_pos h, quantum_neg, neg_neg]
  · rw [neg_zero, round_zero, neg_zero]
  · rw [round, round, if_pos (by linarith), if_neg (by linarith), quantum_neg, neg_neg]

theorem round_nonneg {x : ℚ} (h : 0 ≤ x) : 0 ≤ ctx.round x := by
  rw [round, if_neg (not_lt.mpr h)]
  exact ctx.roundAt_nonneg _ h

/-- Rounding moves a number by at most half a unit. -/
theorem abs_round_sub_le (x : ℚ) : |ctx.round x - x| ≤ 10 ^ ctx.quantum x / 2 := by
  unfold round
  split_ifs with h
  · have hle := ctx.abs_roundAt_sub_le (ctx.quantum x) (-x)
    have hsplit : -ctx.roundAt (ctx.quantum x) (-x) - x =
        -(ctx.roundAt (ctx.quantum x) (-x) - -x) := by ring
    rwa [hsplit, abs_neg]
  · exact ctx.abs_roundAt_sub_le _ _

theorem quantum_mono {x y : ℚ} (hx : 0 < x) (h : x ≤ y) : ctx.quantum x ≤ ctx.quantum y := by
  have hlog := Int.log_mono_right (b := 10) hx h
  unfold quantum
  rw [abs_of_pos hx, abs_of_pos (hx.trans_le h)]
  omega

/-- Between numbers with different first digits there is a power of ten. -/
theorem round_mono_of_pos (hprec : 1 ≤ ctx.prec) {x y : ℚ} (hx : 0 < x) (h : x ≤ y) :
    ctx.round x ≤ ctx.round y := by
  have hy := hx.trans_le h
  rw [round, round, if_neg (not_lt.mpr hx.le), if_neg (not_lt.mpr hy.le)]
  rcases (ctx.quantum_mono hx h).lt_or_eq with hlt | heq
  · have hlog : Int.log 10 x < Int.log 10 y := by
      unfold quantum at hlt
      rw [abs_of_pos hx, abs_of_pos hy] at hlt
      omega
    have hten := Int.lt_zpow_succ_log_self (b := 10) (by norm_num) x
    have hle := Int.zpow_log_le_self (b := 10) (by norm_num) hy
    have hpow : (10 : ℚ) ^ (Int.log 10 x + 1) ≤ 10 ^ Int.log 10 y :=
      zpow_le_zpow_right₀ (by norm_num) (by omega)
    push_cast at hten hle
    have hquantum : ctx.quantum y ≤ Int.log 10 y := by
      unfold quantum at hlt ⊢
      rw [abs_of_pos hx, abs_of_pos hy] at hlt
      rw [abs_of_pos hy]
      omega
    calc ctx.roundAt (ctx.quantum x) x ≤ ctx.roundAt (ctx.quantum x) (10 ^ Int.log 10 y) :=
          ctx.roundAt_mono _ (hten.le.trans hpow)
      _ = 10 ^ Int.log 10 y := ctx.roundAt_power (hlt.le.trans hquantum)
      _ = ctx.roundAt (ctx.quantum y) (10 ^ Int.log 10 y) := (ctx.roundAt_power hquantum).symm
      _ ≤ ctx.roundAt (ctx.quantum y) y := ctx.roundAt_mono _ hle
  · rw [heq]
    exact ctx.roundAt_mono _ h

/-- Rounding keeps the order. -/
theorem round_mono (hprec : 1 ≤ ctx.prec) {x y : ℚ} (h : x ≤ y) : ctx.round x ≤ ctx.round y := by
  rcases lt_trichotomy x 0 with hx | rfl | hx
  · rcases lt_or_ge y 0 with hy | hy
    · have hmono := ctx.round_mono_of_pos hprec (neg_pos.mpr hy) (neg_le_neg h)
      rw [round_neg, round_neg] at hmono
      exact neg_le_neg_iff.mp hmono
    · have hnonneg := ctx.round_nonneg (neg_nonneg.mpr hx.le)
      rw [round_neg] at hnonneg
      exact (neg_nonneg.mp hnonneg).trans (ctx.round_nonneg hy)
  · rw [round_zero]
    exact ctx.round_nonneg h
  · exact ctx.round_mono_of_pos hprec hx h

/-- The digits after the first one more than the context has only matter by whether they are on one
side of a `5` there. -/
theorem round_between (hprec : 1 ≤ ctx.prec) {e m : ℤ} {x y : ℚ}
    (hlarge : (10 : ℚ) ^ (e + ctx.prec) ≤ 5 * m * 10 ^ e)
    (hx : 5 * m * 10 ^ e < x ∧ x < 5 * (m + 1) * 10 ^ e)
    (hy : 5 * m * 10 ^ e < y ∧ y < 5 * (m + 1) * 10 ^ e) : ctx.round x = ctx.round y := by
  have hpow : (0 : ℚ) < 10 ^ e := by positivity
  have hpos : (0 : ℚ) < 5 * m * 10 ^ e := (by positivity : (0 : ℚ) < 10 ^ (e + ctx.prec)).trans_le
    hlarge
  -- a power of ten is not strictly between the bounds
  have hpower : ∀ {a b : ℚ}, 5 * m * 10 ^ e < a → a < 5 * (m + 1) * 10 ^ e →
      5 * m * 10 ^ e < b → Int.log 10 a ≤ Int.log 10 b := by
    intro a b ha ha' hb
    have hlog : e + ctx.prec ≤ Int.log 10 a := by
      have hle := hlarge.trans ha.le
      exact (Int.zpow_le_iff_le_log (b := 10) (by norm_num) (hpos.trans ha)).mp
        (by exact_mod_cast hle)
    obtain ⟨j, hj⟩ : ∃ j : ℕ, Int.log 10 a = e + (j + 1) :=
      ⟨(Int.log 10 a - e - 1).toNat, by omega⟩
    have hten : (10 : ℚ) ^ Int.log 10 a = 5 * (2 * 10 ^ j : ℤ) * 10 ^ e := by
      rw [hj, zpow_add₀ (by norm_num), zpow_add₀ (by norm_num), zpow_natCast, zpow_one]
      push_cast
      ring
    have hle : (10 : ℚ) ^ Int.log 10 a ≤ a := by
      exact_mod_cast Int.zpow_log_le_self (b := 10) (by norm_num) (hpos.trans ha)
    have hlt : (2 * 10 ^ j : ℤ) < m + 1 := by
      have h := hle.trans_lt ha'
      rw [hten] at h
      have hcancel := lt_of_mul_lt_mul_right h hpow.le
      have hcast : ((2 * 10 ^ j : ℤ) : ℚ) < m + 1 := by linarith
      exact_mod_cast hcast
    have hm : ((2 * 10 ^ j : ℤ) : ℚ) ≤ m := by exact_mod_cast Int.lt_add_one_iff.mp hlt
    have hb' : (10 : ℚ) ^ Int.log 10 a ≤ b := by
      rw [hten]
      refine le_trans ?_ hb.le
      exact mul_le_mul_of_nonneg_right (by linarith) hpow.le
    exact (Int.zpow_le_iff_le_log (b := 10) (by norm_num) (hpos.trans hb)).mp
      (by exact_mod_cast hb')
  have hlog : Int.log 10 x = Int.log 10 y :=
    le_antisymm (hpower hx.1 hx.2 hy.1) (hpower hy.1 hy.2 hx.1)
  have hquantum : ctx.quantum x = ctx.quantum y := by
    rw [quantum, quantum, abs_of_pos (hpos.trans hx.1), abs_of_pos (hpos.trans hy.1), hlog]
  have hle : e + ctx.prec ≤ Int.log 10 y := by
    have hle := hlarge.trans hy.1.le
    exact (Int.zpow_le_iff_le_log (b := 10) (by norm_num) (hpos.trans hy.1)).mp
      (by exact_mod_cast hle)
  obtain ⟨j, hj⟩ : ∃ j : ℕ, ctx.quantum y = e + (j + 1) := by
    refine ⟨(ctx.quantum y - e - 1).toNat, ?_⟩
    have hmax : Int.log 10 |y| + 1 - ctx.prec ≤ ctx.quantum y := le_max_left _ _
    rw [abs_of_pos (hpos.trans hy.1)] at hmax
    omega
  -- in units of the last digit, the bounds are neighbouring multiples of `1 / (2 * 10 ^ j)`
  have hunit : (10 : ℚ) ^ ctx.quantum y = 2 * (10 ^ j : ℕ) * 5 * 10 ^ e := by
    rw [hj, zpow_add₀ (by norm_num), zpow_add₀ (by norm_num), zpow_natCast, zpow_one]
    push_cast
    ring
  have hscaled : ∀ {a : ℚ}, 5 * m * 10 ^ e < a → a < 5 * (m + 1) * 10 ^ e →
      (m : ℚ) / (2 * (10 ^ j : ℕ)) < a / 10 ^ ctx.quantum y ∧
        a / 10 ^ ctx.quantum y < (m + 1) / (2 * (10 ^ j : ℕ)) := by
    intro a ha ha'
    have hn : (0 : ℚ) < 2 * (10 ^ j : ℕ) := by positivity
    rw [hunit]
    constructor
    · rw [div_lt_div_iff₀ hn (by positivity)]
      nlinarith
    · rw [div_lt_div_iff₀ (by positivity) hn]
      nlinarith
  obtain ⟨hx₁, hx₂⟩ := hscaled hx.1 hx.2
  obtain ⟨hy₁, hy₂⟩ := hscaled hy.1 hy.2
  rw [round, round, if_neg (not_lt.mpr (hpos.trans hx.1).le),
    if_neg (not_lt.mpr (hpos.trans hy.1).le), hquantum, roundAt, roundAt,
    ctx.rounding.nearest_between (by positivity) hx₁ hx₂,
    ctx.rounding.nearest_between (by positivity) hy₁ hy₂]

/-! ## Operations -/

instance : OfSignal Signal :=
  ⟨id⟩

variable {ctx} {ε : Type} [OfSignal ε]

theorem log_abs_value {d : Decimal} (h : d.coeff ≠ 0) :
    Int.log 10 |d.value| = Nat.log 10 d.coeff + d.exp := by
  obtain ⟨hlow, hhigh⟩ := log_bounds h d.exp
  rw [← abs_value] at hlow hhigh
  have hpos : 0 < |d.value| := abs_pos.mpr (value_eq_zero.not.mpr h)
  have hle := (Int.zpow_le_iff_le_log (b := 10) (by norm_num) hpos).mp (by exact_mod_cast hlow)
  have hlt := (Int.lt_zpow_iff_log_lt (b := 10) (by norm_num) hpos).mp (by exact_mod_cast hhigh)
  omega

theorem value_ite (d : Decimal) :
    d.value = if d.neg then -((d.coeff : ℚ) * 10 ^ d.exp) else d.coeff * 10 ^ d.exp := by
  cases h : d.neg <;> simp [value_eq, h]

theorem quantum_value {d : Decimal} (h : d.coeff ≠ 0) :
    max (d.digits + d.exp - ctx.prec) ctx.etiny = ctx.quantum d.value := by
  rw [quantum, log_abs_value h, digits]
  congr 1
  ring

/-- The rounded value, on the coefficient. -/
theorem round_value {d : Decimal} (h : d.coeff ≠ 0) : ctx.round d.value =
    if d.neg then -ctx.roundAt (ctx.quantum d.value) (d.coeff * 10 ^ d.exp)
    else ctx.roundAt (ctx.quantum d.value) (d.coeff * 10 ^ d.exp) := by
  have hpos : (0 : ℚ) < d.coeff * 10 ^ d.exp := by positivity
  have hvalue := value_ite d
  cases hneg : d.neg with
  | true =>
    have hd : d.value = -(d.coeff * 10 ^ d.exp) := by simpa only [hneg, if_true] using hvalue
    rw [round, if_pos (by rw [hd]; linarith), hd, neg_neg]
    rfl
  | false =>
    have hd : d.value = d.coeff * 10 ^ d.exp := by
      simpa only [hneg, Bool.false_eq_true, if_false] using hvalue
    rw [round, if_neg (by rw [hd]; linarith), hd]
    rfl

/-- The coefficient that is kept, at the exponent of the last digit. -/
theorem roundAt_coeff (c : ℕ) {e exp : ℤ} (h : e ≤ exp) :
    ctx.roundAt exp (c * 10 ^ e) = ctx.rounding.drop c (exp - e).toNat * 10 ^ exp := by
  have hsplit : (10 : ℚ) ^ exp = 10 ^ (exp - e).toNat * 10 ^ e := by
    rw [← zpow_natCast, ← zpow_add₀ (by norm_num)]
    congr 1
    omega
  have hdrop := ctx.rounding.drop_eq_nearest c (exp - e).toNat
  have hquot : (c : ℚ) * 10 ^ e / 10 ^ exp = c / 10 ^ (exp - e).toNat := by
    rw [hsplit, mul_div_mul_right _ _ (by positivity)]
  rw [roundAt, hquot, ← hdrop]
  push_cast
  rfl

/-- What `fix` returns is the rounded value. -/
theorem value_of_fix (hprec : 1 ≤ ctx.prec) {d r : Decimal}
    (h : (ctx.fix d : Except ε Decimal) = .ok r) : r.value = ctx.round d.value := by
  unfold fix at h
  dsimp only at h
  by_cases hc : d.coeff = 0
  · rw [if_pos hc] at h
    have hzero : d.value = 0 := value_eq_zero.mpr hc
    rw [← Except.ok.inj h, hzero, round_zero]
    exact value_eq_zero.mpr hc
  rw [if_neg hc] at h
  rw [quantum_value hc] at h
  rw [round_value hc]
  split_ifs at h with hover hexp hfits hover'
  · have hmultiple := ctx.roundAt_multiple hexp d.coeff
    rw [Int.cast_natCast] at hmultiple
    rw [← Except.ok.inj h, hmultiple]
    exact value_ite d
  · rw [← Except.ok.inj h, roundAt_coeff _ (not_le.mp hexp).le]
    exact value_ite _
  · -- a coefficient of one digit too many is a power of ten
    have hdrop : ctx.rounding.drop d.coeff (ctx.quantum d.value - d.exp).toNat ≤ 10 ^ ctx.prec := by
      refine drop_le _ ((Nat.lt_pow_succ_log_self (by norm_num) d.coeff).trans_le
        (Nat.pow_le_pow_right (by norm_num) ?_))
      have hmax := le_max_left (d.digits + d.exp - ctx.prec) ctx.etiny
      rw [quantum_value hc, digits] at hmax
      omega
    have heq : ctx.rounding.drop d.coeff (ctx.quantum d.value - d.exp).toNat = 10 ^ ctx.prec :=
      le_antisymm hdrop (not_lt.mp hfits)
    obtain ⟨p, hp⟩ : ∃ p, ctx.prec = p + 1 := ⟨ctx.prec - 1, by omega⟩
    have hten : ((10 ^ ctx.prec / 10 : ℕ) : ℚ) * 10 ^ (ctx.quantum d.value + 1) =
        (10 ^ ctx.prec : ℕ) * 10 ^ ctx.quantum d.value := by
      rw [hp, pow_succ, Nat.mul_div_cancel _ (by norm_num), zpow_add_one₀ (by norm_num)]
      push_cast
      ring
    rw [← Except.ok.inj h, roundAt_coeff _ (not_le.mp hexp).le, heq, ← hten]
    exact value_ite _

/-- `x` is too large for the context. -/
def Overflows (ctx : Context) (x : ℚ) : Prop :=
  10 ^ (ctx.emax + 1) ≤ |ctx.round x|

/-- A power of ten is not rounded. -/
theorem round_power (hprec : 1 ≤ ctx.prec) {k : ℤ} (h : ctx.etiny ≤ k) :
    ctx.round (10 ^ k) = 10 ^ k := by
  have hpos : (0 : ℚ) < 10 ^ k := by positivity
  have hlog : Int.log 10 ((10 : ℚ) ^ k) = k := by
    simpa using Int.log_zpow (R := ℚ) (b := 10) (by norm_num) k
  rw [round, if_neg (not_lt.mpr hpos.le)]
  refine ctx.roundAt_power ?_
  rw [quantum, abs_of_pos hpos, hlog]
  omega

theorem round_abs (x : ℚ) : ctx.round |x| = |ctx.round x| := by
  rcases le_total 0 x with h | h
  · rw [abs_of_nonneg h, abs_of_nonneg (ctx.round_nonneg h)]
  · have hnonneg := ctx.round_nonneg (neg_nonneg.mpr h)
    rw [round_neg] at hnonneg
    rw [abs_of_nonpos h, round_neg, abs_of_nonpos (neg_nonneg.mp hnonneg)]

/-- A large number overflows. -/
theorem overflows_of_le (hprec : 1 ≤ ctx.prec) (hlimits : ctx.emin ≤ ctx.emax) {x : ℚ}
    (h : 10 ^ (ctx.emax + 1) ≤ |x|) : ctx.Overflows x := by
  have hround := ctx.round_mono hprec h
  rw [round_power hprec (by rw [etiny]; omega), round_abs] at hround
  exact hround

theorem not_overflows (hprec : 1 ≤ ctx.prec) (hlimits : ctx.emin ≤ ctx.emax) {x : ℚ}
    (h : |x| ≤ 10 ^ ctx.emax) : ¬ctx.Overflows x := by
  have hround := ctx.round_mono hprec h
  rw [round_power hprec (by rw [etiny]; omega), round_abs] at hround
  exact not_le.mpr (hround.trans_lt (zpow_lt_zpow_right₀ (by norm_num) (by omega)))

theorem coeff_lt {c n : ℕ} {e k : ℤ} (hc : c < 10 ^ n) (h : n + e ≤ k) :
    (c : ℚ) * 10 ^ e < 10 ^ k := by
  have hpow : (0 : ℚ) < 10 ^ e := by positivity
  calc (c : ℚ) * 10 ^ e < 10 ^ n * 10 ^ e :=
        mul_lt_mul_of_pos_right (by exact_mod_cast hc) hpow
    _ = 10 ^ (n + e : ℤ) := by rw [zpow_add₀ (by norm_num), zpow_natCast]
    _ ≤ 10 ^ k := zpow_le_zpow_right₀ (by norm_num) h

theorem le_coeff {c n : ℕ} {e k : ℤ} (hc : 10 ^ n ≤ c) (h : k ≤ n + e) :
    (10 : ℚ) ^ k ≤ c * 10 ^ e := by
  have hpow : (0 : ℚ) < 10 ^ e := by positivity
  calc (10 : ℚ) ^ k ≤ 10 ^ (n + e : ℤ) := zpow_le_zpow_right₀ (by norm_num) h
    _ = 10 ^ n * 10 ^ e := by rw [zpow_add₀ (by norm_num), zpow_natCast]
    _ ≤ c * 10 ^ e := mul_le_mul_of_nonneg_right (by exact_mod_cast hc) hpow.le

theorem log_div_pow {x : ℚ} (hx : 0 < x) (n : ℕ) : Int.log 10 (x / 10 ^ n) = Int.log 10 x - n := by
  have hdiv : 0 < x / 10 ^ n := by positivity
  have hlow := Int.zpow_log_le_self (b := 10) (by norm_num) hx
  have hhigh := Int.lt_zpow_succ_log_self (b := 10) (by norm_num) x
  push_cast at hlow hhigh
  have hle : Int.log 10 x - n ≤ Int.log 10 (x / 10 ^ n) := by
    refine (Int.zpow_le_iff_le_log (b := 10) (by norm_num) hdiv).mp ?_
    push_cast
    rw [zpow_sub₀ (by norm_num), zpow_natCast]
    exact div_le_div_of_nonneg_right hlow (by positivity)
  have hlt : Int.log 10 (x / 10 ^ n) < Int.log 10 x + 1 - n := by
    refine (Int.lt_zpow_iff_log_lt (b := 10) (by norm_num) hdiv).mp ?_
    push_cast
    rw [zpow_sub₀ (by norm_num), zpow_natCast]
    exact div_lt_div_of_pos_right hhigh (by positivity)
  omega

/-- Moving the point does not change the digits that are kept. -/
theorem round_div_pow {x : ℚ} (hx : 0 < x) {n : ℕ}
    (h : ctx.etiny + n ≤ Int.log 10 x + 1 - ctx.prec) :
    ctx.round (x / 10 ^ n) = ctx.round x / 10 ^ n := by
  have hdiv : 0 < x / 10 ^ n := by positivity
  have hquantum : ctx.quantum (x / 10 ^ n) = ctx.quantum x - n := by
    rw [quantum, quantum, abs_of_pos hdiv, abs_of_pos hx, log_div_pow hx]
    omega
  rw [round, round, if_neg (not_lt.mpr hdiv.le), if_neg (not_lt.mpr hx.le), hquantum, roundAt,
    roundAt, zpow_sub₀ (by norm_num), zpow_natCast, div_div_div_cancel_right₀ (by positivity),
    mul_div_assoc]

/-- What is refused is too large. -/
theorem overflows_of_fix (hprec : 1 ≤ ctx.prec) (hlimits : ctx.emin ≤ ctx.emax) {d : Decimal}
    {e : ε} (h : (ctx.fix d : Except ε Decimal) = .error e) :
    e = OfSignal.ofSignal .overflow ∧ ctx.Overflows d.value := by
  unfold fix at h
  dsimp only at h
  split_ifs at h with hc hover hexp hfits hover'
  · refine ⟨(Except.error.inj h).symm, overflows_of_le hprec hlimits ?_⟩
    rw [abs_value]
    refine le_coeff (Nat.pow_log_le_self 10 hc) ?_
    rw [digits, etop] at hover
    omega
  · refine ⟨(Except.error.inj h).symm, ?_⟩
    rw [quantum_value hc] at hexp hfits hover'
    rw [Overflows, ← round_abs, abs_value, round,
      if_neg (not_lt.mpr (by positivity)), ← abs_value, quantum, abs_abs, ← quantum, abs_value,
      roundAt_coeff _ (not_le.mp hexp).le]
    refine le_coeff (not_lt.mp hfits) ?_
    rw [etop] at hover'
    omega

/-- What is returned is not too large. -/
theorem lt_of_fix (hprec : 1 ≤ ctx.prec) (hlimits : ctx.emin ≤ ctx.emax) {d r : Decimal}
    (h : (ctx.fix d : Except ε Decimal) = .ok r) : |r.value| < 10 ^ (ctx.emax + 1) := by
  obtain ⟨hcoeff, -⟩ := fix_bounds hprec (by rw [etiny]; omega) h
  rw [abs_value]
  unfold fix at h
  dsimp only at h
  split_ifs at h with hc hover hexp hfits hover'
  · rw [← Except.ok.inj h, hc, Nat.cast_zero, zero_mul]
    positivity
  · rw [← Except.ok.inj h]
    refine coeff_lt (Nat.lt_pow_succ_log_self (by norm_num) d.coeff) ?_
    rw [digits, etop] at hover
    push_cast
    omega
  · refine coeff_lt hcoeff ?_
    rw [← Except.ok.inj h]
    rw [etop] at hover
    have hexp : max (d.digits + d.exp - ctx.prec) ctx.etiny ≤ ctx.emax - ctx.prec + 1 :=
      max_le (by omega) (by rw [etiny]; omega)
    dsimp only
    omega
  · refine coeff_lt hcoeff ?_
    rw [← Except.ok.inj h]
    rw [etop] at hover'
    dsimp only
    omega

/-- An operation overflows, or its result is the rounded one. -/
theorem fix_cases (hprec : 1 ≤ ctx.prec) (hlimits : ctx.emin ≤ ctx.emax) (d : Decimal) :
    ((ctx.fix d : Except ε Decimal) = .error (OfSignal.ofSignal .overflow) ∧
      ctx.Overflows d.value) ∨
    ∃ r, (ctx.fix d : Except ε Decimal) = .ok r ∧ r.value = ctx.round d.value ∧
      ¬ctx.Overflows d.value := by
  cases hfix : (ctx.fix d : Except ε Decimal) with
  | error e =>
    obtain ⟨rfl, hover⟩ := overflows_of_fix hprec hlimits hfix
    exact .inl ⟨rfl, hover⟩
  | ok r =>
    have hvalue := value_of_fix hprec hfix
    refine .inr ⟨r, rfl, hvalue, ?_⟩
    rw [Overflows, ← hvalue, not_le]
    exact lt_of_fix hprec hlimits hfix

/-- A number of the context is not rounded. -/
theorem round_exact (hprec : 1 ≤ ctx.prec) {x : ℚ} (h : ctx.Exact x) : ctx.round x = x := by
  obtain ⟨k, e, hx, -⟩ := id h
  have hvalue : (⟨decide (k < 0), k.natAbs, e⟩ : Decimal).value = x := by
    rw [value, signed_natAbs (.inl rfl), hx]
  rw [← hvalue] at h ⊢
  obtain ⟨r, hr, hrv⟩ := fix_exact (ε := Signal) h
  rw [← value_of_fix hprec hr, hrv]

/-- Rounding does not pass a number of the context. -/
theorem round_le (hprec : 1 ≤ ctx.prec) {x y : ℚ} (hy : ctx.Exact y) (h : x ≤ y) :
    ctx.round x ≤ y := by
  rw [← round_exact hprec hy]
  exact ctx.round_mono hprec h

theorem value_of_abs (hprec : 1 ≤ ctx.prec) {a r : Decimal}
    (h : (ctx.abs a : Except ε Decimal) = .ok r) : r.value = ctx.round |a.value| := by
  rw [← value_copyAbs]
  exact value_of_fix hprec h

theorem value_of_mul (hprec : 1 ≤ ctx.prec) {a b r : Decimal}
    (h : (ctx.mul a b : Except ε Decimal) = .ok r) : r.value = ctx.round (a.value * b.value) := by
  rw [← value_mul]
  exact value_of_fix hprec h

theorem value_of_add (hprec : 1 ≤ ctx.prec) {a b r : Decimal}
    (h : (ctx.add a b : Except ε Decimal) = .ok r) : r.value = ctx.round (a.value + b.value) := by
  rw [← value_sum]
  exact value_of_fix hprec h

theorem value_of_sub (hprec : 1 ≤ ctx.prec) {a b r : Decimal}
    (h : (ctx.sub a b : Except ε Decimal) = .ok r) : r.value = ctx.round (a.value - b.value) := by
  rw [sub_eq_add_neg, ← value_copyNegate]
  exact value_of_add hprec h

/-! ## Operations that are refused unless they are exact -/

/-- The operations of a context, refused where the result is not that on the rationals. -/
@[reducible] def checked (ctx : Context) (refused : ε) : Arithmetic ε where
  abs a := do
    let r ← ctx.abs a
    if r.value = |a.value| then return r else .error refused
  add a b := do
    let r ← ctx.add a b
    if r.value = a.value + b.value then return r else .error refused
  sub a b := do
    let r ← ctx.sub a b
    if r.value = a.value - b.value then return r else .error refused
  mul a b := do
    let r ← ctx.mul a b
    if r.value = a.value * b.value then return r else .error refused
  quantize a exp := do
    let r ← ctx.quantize a exp
    if r.value = roundHalfUp a.value exp then return r else .error refused

end Context

/-- Operations that are those of the context wherever these are exact. -/
structure Arithmetic.Faithful {ε : Type} [OfSignal ε] (A : Arithmetic ε) (ctx : Context) :
    Prop where
  abs : ∀ {a r}, (ctx.abs a : Except ε Decimal) = .ok r → r.value = |a.value| → A.abs a = .ok r
  add : ∀ {a b r}, (ctx.add a b : Except ε Decimal) = .ok r → r.value = a.value + b.value →
    A.add a b = .ok r
  sub : ∀ {a b r}, (ctx.sub a b : Except ε Decimal) = .ok r → r.value = a.value - b.value →
    A.sub a b = .ok r
  mul : ∀ {a b r}, (ctx.mul a b : Except ε Decimal) = .ok r → r.value = a.value * b.value →
    A.mul a b = .ok r
  quantize : ∀ {a exp r}, (ctx.quantize a exp : Except ε Decimal) = .ok r →
    r.value = roundHalfUp a.value exp → A.quantize a exp = .ok r

theorem Context.checked_faithful {ε : Type} [OfSignal ε] (ctx : Context) (refused : ε) :
    (ctx.checked refused).Faithful ctx := by
  refine ⟨fun {a r} hr hvalue => ?_, fun {a b r} hr hvalue => ?_, fun {a b r} hr hvalue => ?_,
    fun {a b r} hr hvalue => ?_, fun {a exp r} hr hvalue => ?_⟩
  · change (ctx.abs a >>= _) = _
    rw [hr]
    exact if_pos hvalue
  · change (ctx.add a b >>= _) = _
    rw [hr]
    exact if_pos hvalue
  · change (ctx.sub a b >>= _) = _
    rw [hr]
    exact if_pos hvalue
  · change (ctx.mul a b >>= _) = _
    rw [hr]
    exact if_pos hvalue
  · change (ctx.quantize a exp >>= _) = _
    rw [hr]
    exact if_pos hvalue

/-- A sum whose parts are all exact. -/
theorem Arithmetic.Faithful.sum {ε : Type} [OfSignal ε] {A : Arithmetic ε} {ctx : Context}
    (h : A.Faithful ctx) {ds : List Decimal} : ∀ {start r : Decimal},
    (∀ l, l <+: ds → ctx.Exact (start.value + (l.map value).sum)) →
    (ctx.sum ds start : Except ε Decimal) = .ok r →
    (Arithmetic.sum ds start : Except ε Decimal) = .ok r := by
  induction ds with
  | nil => exact fun _ hr => hr
  | cons d ds ih =>
    intro start r hexact hr
    have hfirst : ctx.Exact (start.value + d.value) := by
      simpa using hexact [d] (List.cons_prefix_cons.mpr ⟨rfl, List.nil_prefix⟩)
    obtain ⟨next, hnext, hvalue⟩ := Context.add_exact (ε := ε) hfirst
    have hrest : (ctx.sum ds next : Except ε Decimal) = .ok r := by
      rw [Context.sum, hnext] at hr
      exact hr
    have hsum := ih (fun l hl => by
      have := hexact (d :: l) (List.cons_prefix_cons.mpr ⟨rfl, hl⟩)
      rwa [List.map_cons, List.sum_cons, ← add_assoc, ← hvalue] at this) hrest
    rw [Arithmetic.sum, h.add hnext hvalue]
    exact hsum

end Decimal
