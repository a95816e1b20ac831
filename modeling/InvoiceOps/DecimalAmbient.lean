import InvoiceOps.DecimalRound

/-!
# Decimal arithmetic in a context of its own

An `Ambient` context is one that a thread may have : its precision, one of eight roundings, its
limits and the conditions it traps. An operation signals conditions ; the first one that is trapped
is raised, and without traps the result may be infinite or not a number (`Number`).

`Ambient.Like ctx` : the context rounds to nearest within the limits of `ctx`, traps an overflow
and no condition of a finite result. Then a result is the exact one, rounded as in `ctx`, or an
overflow (`Ambient.Like.fix`).
-/

namespace Decimal

/-! ## Contexts -/

/-- What an operation may signal, in the order in which it is raised. -/
inductive Condition where
  | invalidOperation | divisionByZero | overflow | underflow | subnormal | inexact | rounded
  | clamped
  deriving DecidableEq, Repr

/-- The roundings of the decimal module. -/
inductive RoundingMode where
  | up | down | ceiling | floor | halfUp | halfDown | halfEven | zeroFiveUp
  deriving DecidableEq, Repr

/-- Whether a number whose digits after the coefficient `q` are `r` of `unit` is rounded away from
zero. -/
def RoundingMode.Away (mode : RoundingMode) (neg : Bool) (q r unit : ℕ) : Prop :=
  match mode with
  | .down => False
  | .up => r ≠ 0
  | .ceiling => r ≠ 0 ∧ neg = false
  | .floor => r ≠ 0 ∧ neg = true
  | .halfUp => unit ≤ 2 * r
  | .halfDown => unit < 2 * r
  | .halfEven => unit < 2 * r ∨ unit = 2 * r ∧ q % 2 = 1
  | .zeroFiveUp => r ≠ 0 ∧ q % 5 = 0

instance (mode : RoundingMode) (neg : Bool) (q r unit : ℕ) :
    Decidable (mode.Away neg q r unit) := by
  unfold RoundingMode.Away
  cases mode <;> infer_instance

/-- Drop `n` digits of the coefficient `c`. -/
def RoundingMode.drop (mode : RoundingMode) (neg : Bool) (c n : ℕ) : ℕ :=
  if mode.Away neg (c / 10 ^ n) (c % 10 ^ n) (10 ^ n) then c / 10 ^ n + 1 else c / 10 ^ n

/-- A number of the decimal module ; of a NaN only that it is one. -/
inductive Number where
  | finite (d : Decimal)
  | infinite (neg : Bool)
  | nan
  deriving DecidableEq, Repr

/-- The context that is current when a function is called. -/
structure Ambient where
  prec : ℕ
  rounding : RoundingMode
  emin : ℤ
  emax : ℤ
  clamp : Bool
  traps : List Condition
  prec_pos : 1 ≤ prec
  emin_le : emin ≤ 0
  emax_nonneg : 0 ≤ emax

namespace Ambient

variable (amb : Ambient)

/-- The least exponent of a result that is not normal. -/
def etiny : ℤ :=
  amb.emin - amb.prec + 1

/-- The greatest exponent of a coefficient with all its digits. -/
def etop : ℤ :=
  amb.emax - amb.prec + 1

/-- A result with the conditions it signals. -/
def signal {α : Type} (conditions : List Condition) (result : α) : Except Condition α :=
  match conditions.find? (· ∈ amb.traps) with
  | some condition => .error condition
  | none => .ok result

/-- A condition, if it holds. -/
def conditionIf (p : Prop) [Decidable p] (condition : Condition) : List Condition :=
  if p then [condition] else []

/-- The largest number. -/
def largest (neg : Bool) : Number :=
  .finite ⟨neg, 10 ^ amb.prec - 1, amb.etop⟩

/-- `Overflow.handle`. -/
def overflowed (neg : Bool) : Number :=
  match amb.rounding with
  | .halfUp | .halfEven | .halfDown | .up => .infinite neg
  | .ceiling => if neg then amb.largest neg else .infinite neg
  | .floor => if neg then .infinite neg else amb.largest neg
  | .down | .zeroFiveUp => amb.largest neg

/-- The coefficient rounded to the exponent `exp`, which is larger than that of `d`. -/
def shortened (d : Decimal) (exp : ℤ) : Decimal :=
  let coeff := amb.rounding.drop d.neg d.coeff (exp - d.exp).toNat
  if coeff < 10 ^ amb.prec then ⟨d.neg, coeff, exp⟩ else ⟨d.neg, coeff / 10, exp + 1⟩

/-- A zero in the context. -/
def fixZero (d : Decimal) : Except Condition Number :=
  let exp := min (max d.exp amb.etiny) (if amb.clamp then amb.etop else amb.emax)
  amb.signal (conditionIf (exp ≠ d.exp) .clamped) (.finite { d with exp := exp })

/-- A number with more digits than the context has at `exp`. -/
def fixLong (d : Decimal) (exp : ℤ) (subnormal : Bool) : Except Condition Number :=
  let r := amb.shortened d exp
  let changed := d.coeff % 10 ^ (exp - d.exp).toNat ≠ 0
  amb.signal
    (conditionIf (amb.etop < r.exp) .overflow ++ conditionIf (changed ∧ subnormal) .underflow ++
      conditionIf subnormal .subnormal ++ conditionIf changed .inexact ++ [Condition.rounded] ++
      conditionIf (r.coeff = 0) .clamped)
    (if amb.etop < r.exp then amb.overflowed d.neg else .finite r)

/-- A number with no more digits than the context has. -/
def fixShort (d : Decimal) (subnormal : Bool) : Except Condition Number :=
  amb.signal
    (conditionIf subnormal .subnormal ++ conditionIf (amb.clamp ∧ amb.etop < d.exp) .clamped)
    (.finite (if amb.clamp ∧ amb.etop < d.exp then
      ⟨d.neg, d.coeff * 10 ^ (d.exp - amb.etop).toNat, amb.etop⟩ else d))

/-- `_fix`. -/
def fix (d : Decimal) : Except Condition Number :=
  if d.coeff = 0 then amb.fixZero d
  else
    let low := d.digits + d.exp - amb.prec
    if amb.etop < low then
      amb.signal [.overflow, .inexact, .rounded] (amb.overflowed d.neg)
    else if d.exp < max low amb.etiny then amb.fixLong d (max low amb.etiny) (low < amb.etiny)
    else amb.fixShort d (low < amb.etiny)

/-! ## Operations -/

/-- `abs`. -/
def abs : Number → Except Condition Number
  | .finite d => amb.fix { d with neg := false }
  | .infinite _ => .ok (.infinite false)
  | .nan => .ok .nan

/-- The opposite, not rounded. -/
def negate : Number → Number
  | .finite d => .finite { d with neg := !d.neg }
  | .infinite neg => .infinite !neg
  | .nan => .nan

/-- A sum of opposite numbers is negative if the context rounds down. -/
def add : Number → Number → Except Condition Number
  | .finite a, .finite b =>
    let exp := min a.exp b.exp
    let sum := a.aligned exp + b.aligned exp
    let neg :=
      if sum = 0 then
        (a.coeff = 0 && b.coeff = 0 && a.neg && b.neg) ||
          (amb.rounding = .floor && a.neg != b.neg)
      else sum < 0
    amb.fix ⟨neg, sum.natAbs, exp⟩
  | .nan, _ => .ok .nan
  | _, .nan => .ok .nan
  | .infinite neg, .infinite neg' =>
    if neg = neg' then .ok (.infinite neg) else amb.signal [.invalidOperation] .nan
  | .infinite neg, .finite _ => .ok (.infinite neg)
  | .finite _, .infinite neg => .ok (.infinite neg)

/-- `a - b` in the context. -/
def sub (a b : Number) : Except Condition Number :=
  amb.add a (negate b)

/-- `a * b` in the context. -/
def mul : Number → Number → Except Condition Number
  | .finite a, .finite b => amb.fix ⟨a.neg ^^ b.neg, a.coeff * b.coeff, a.exp + b.exp⟩
  | .nan, _ => .ok .nan
  | _, .nan => .ok .nan
  | .infinite neg, .infinite neg' => .ok (.infinite (neg ^^ neg'))
  | .infinite neg, .finite d =>
    if d.coeff = 0 then amb.signal [.invalidOperation] .nan else .ok (.infinite (neg ^^ d.neg))
  | .finite d, .infinite neg =>
    if d.coeff = 0 then amb.signal [.invalidOperation] .nan else .ok (.infinite (d.neg ^^ neg))

/-- Drop trailing zeros, down to the ideal exponent. -/
def idealize (ideal : ℤ) : ℕ → ℕ → ℤ → ℕ × ℤ
  | 0, coeff, exp => (coeff, exp)
  | fuel + 1, coeff, exp =>
    if exp < ideal ∧ coeff % 10 = 0 then idealize ideal fuel (coeff / 10) (exp + 1)
    else (coeff, exp)

/-- The quotient of two numbers that are not zero, with a digit more than the context has. A
quotient that is not exact does not end with `0` or `5`. -/
def quotient (a b : Decimal) : ℕ × ℤ :=
  let shift := b.digits - a.digits + amb.prec + 1
  let exp := a.exp - b.exp - shift
  let num := a.coeff * 10 ^ shift.toNat
  let den := b.coeff * 10 ^ (-shift).toNat
  if num % den = 0 then
    idealize (a.exp - b.exp) (a.exp - b.exp - exp).toNat (num / den) exp
  else (if num / den % 5 = 0 then num / den + 1 else num / den, exp)

/-- `a / b` in the context. -/
def div : Number → Number → Except Condition Number
  | .finite a, .finite b =>
    if b.coeff = 0 then
      if a.coeff = 0 then amb.signal [.invalidOperation] .nan
      else amb.signal [.divisionByZero] (.infinite (a.neg ^^ b.neg))
    else if a.coeff = 0 then amb.fix ⟨a.neg ^^ b.neg, 0, a.exp - b.exp⟩
    else amb.fix ⟨a.neg ^^ b.neg, (amb.quotient a b).1, (amb.quotient a b).2⟩
  | .nan, _ => .ok .nan
  | _, .nan => .ok .nan
  | .infinite _, .infinite _ => amb.signal [.invalidOperation] .nan
  | .infinite neg, .finite d => .ok (.infinite (neg ^^ d.neg))
  | .finite d, .infinite neg => amb.signal [.clamped] (.finite ⟨d.neg ^^ neg, 0, amb.etiny⟩)

/-- `normalize` : the number without its trailing zeros, as far as the largest exponent. -/
def normalize (d : Decimal) : Except Condition Number :=
  (amb.fix d).map fun
    | .finite r =>
      if r.coeff = 0 then .finite ⟨r.neg, 0, 0⟩
      else
        let reduced := idealize (if amb.clamp then amb.etop else amb.emax) r.digits.toNat r.coeff
          r.exp
        .finite ⟨r.neg, reduced.1, reduced.2⟩
    | .infinite neg => .infinite neg
    | .nan => .nan

/-- `a < b`. -/
def lt : Number → Number → Except Condition Bool
  | .nan, _ => amb.signal [.invalidOperation] false
  | _, .nan => amb.signal [.invalidOperation] false
  | .finite a, .finite b => .ok (a.value < b.value)
  | .infinite neg, .infinite neg' => .ok (neg && !neg')
  | .infinite neg, .finite _ => .ok neg
  | .finite _, .infinite neg => .ok !neg

/-- `max(a, b)` : the first one, unless the second is larger. -/
def larger (a b : Number) : Except Condition Number := do
  let less ← amb.lt a b
  return if less then b else a

/-- `min(a, b)`. -/
def smaller (a b : Number) : Except Condition Number := do
  let less ← amb.lt b a
  return if less then b else a

/-! ## Signals -/

variable {amb} {α : Type}

theorem signal_quiet {conditions : List Condition} {result : α}
    (h : ∀ c ∈ conditions, c ∉ amb.traps) : amb.signal conditions result = .ok result := by
  have hnone : conditions.find? (· ∈ amb.traps) = none :=
    List.find?_eq_none.mpr fun c hc => by simpa using h c hc
  rw [signal, hnone]

theorem signal_first {condition : Condition} {conditions : List Condition} {result : α}
    (h : condition ∈ amb.traps) :
    amb.signal (condition :: conditions) result = .error condition := by
  have hsome : (condition :: conditions).find? (· ∈ amb.traps) = some condition :=
    List.find?_cons_of_pos (by simpa using h)
  rw [signal, hsome]

/-- Where there is a result, none of the conditions is trapped. -/
theorem signal_eq_ok {conditions : List Condition} {result r : α}
    (h : amb.signal conditions result = .ok r) :
    r = result ∧ ∀ c ∈ conditions, c ∉ amb.traps := by
  unfold signal at h
  cases hfind : conditions.find? (· ∈ amb.traps) with
  | none =>
    rw [hfind] at h
    refine ⟨(Except.ok.inj h).symm, fun c hc => ?_⟩
    simpa using List.find?_eq_none.mp hfind c hc
  | some c =>
    rw [hfind] at h
    cases h

theorem mem_conditionIf {p : Prop} [Decidable p] {c condition : Condition} :
    c ∈ conditionIf p condition ↔ p ∧ c = condition := by
  unfold conditionIf
  split_ifs with h <;> simp [h]

/-- Zeros in the place of a large exponent do not change the number. -/
theorem value_padded (amb : Ambient) (d : Decimal) :
    (if amb.clamp ∧ amb.etop < d.exp then
      ⟨d.neg, d.coeff * 10 ^ (d.exp - amb.etop).toNat, amb.etop⟩ else d : Decimal).value =
        d.value := by
  split_ifs with hclamp
  · refine value_congr ?_
    have hsplit : (10 : ℚ) ^ d.exp = 10 ^ (d.exp - amb.etop).toNat * 10 ^ amb.etop := by
      rw [← zpow_natCast, ← zpow_add₀ (by norm_num)]
      congr 1
      omega
    rw [hsplit]
    push_cast
    ring
  · rfl

/-! ## Contexts that round to nearest -/

end Ambient

/-- The rounding of a context, among all of them. -/
def Rounding.mode : Rounding → RoundingMode
  | .halfUp => .halfUp
  | .halfEven => .halfEven

theorem Rounding.drop_mode (rounding : Rounding) (neg : Bool) (c n : ℕ) :
    rounding.mode.drop neg c n = rounding.drop c n := by
  cases rounding <;> rfl

namespace Ambient

/-- The conditions of a finite result. -/
def finiteConditions : List Condition :=
  [.underflow, .subnormal, .inexact, .rounded, .clamped]

/-- The context computes as `ctx`, up to the exponents of its results. -/
structure Like (amb : Ambient) (ctx : Context) : Prop where
  prec : amb.prec = ctx.prec
  rounding : amb.rounding = ctx.rounding.mode
  emin : amb.emin = ctx.emin
  emax : amb.emax = ctx.emax
  overflow : .overflow ∈ amb.traps
  quiet : ∀ c ∈ finiteConditions, c ∉ amb.traps

/-- An overflow, or the rounded value. -/
def Rounds (ctx : Context) (x : ℚ) (result : Except Condition Number) : Prop :=
  (result = .error .overflow ∧ ctx.Overflows x) ∨
    ∃ r : Decimal, result = .ok (.finite r) ∧ r.value = ctx.round x ∧ ¬ctx.Overflows x

/-- A result that is not too large is the rounded one. -/
theorem Rounds.of_le {ctx : Context} {x : ℚ} {result : Except Condition Number}
    (h : Rounds ctx x result) (hprec : 1 ≤ ctx.prec) (hlimits : ctx.emin ≤ ctx.emax)
    (hx : |x| ≤ 10 ^ ctx.emax) :
    ∃ r : Decimal, result = .ok (.finite r) ∧ r.value = ctx.round x := by
  rcases h with ⟨-, hover⟩ | ⟨r, hr, hvalue, -⟩
  · exact absurd hover (Context.not_overflows hprec hlimits hx)
  · exact ⟨r, hr, hvalue⟩

namespace Like

variable {amb : Ambient} {ctx : Context}

theorem prec_pos (h : amb.Like ctx) : 1 ≤ ctx.prec :=
  h.prec ▸ amb.prec_pos

theorem limits (h : amb.Like ctx) : ctx.emin ≤ ctx.emax := by
  have hemin := amb.emin_le
  have hemax := amb.emax_nonneg
  rw [h.emin] at hemin
  rw [h.emax] at hemax
  omega

theorem etiny (h : amb.Like ctx) : amb.etiny = ctx.etiny := by
  rw [Ambient.etiny, Context.etiny, h.emin, h.prec]

theorem etop (h : amb.Like ctx) : amb.etop = ctx.etop := by
  rw [Ambient.etop, Context.etop, h.emax, h.prec]

theorem fixZero (h : amb.Like ctx) {d : Decimal} (hd : d.coeff = 0) :
    Rounds ctx d.value (amb.fixZero d) := by
  have hzero : d.value = 0 := value_eq_zero.mpr hd
  refine .inr ⟨_, signal_quiet fun c hc => h.quiet c ?_, ?_, ?_⟩
  · rw [(mem_conditionIf.mp hc).2]
    decide
  · rw [hzero, Context.round_zero]
    exact value_eq_zero.mpr hd
  · rw [hzero, Context.Overflows, Context.round_zero, abs_zero, not_le]
    positivity

theorem fixLong (h : amb.Like ctx) (d : Decimal) (exp : ℤ) (subnormal : Bool) :
    amb.fixLong d exp subnormal =
      if ctx.etop < (amb.shortened d exp).exp then .error .overflow
      else .ok (.finite (amb.shortened d exp)) := by
  unfold Ambient.fixLong
  dsimp only
  rw [h.etop]
  split_ifs with hover
  · rw [conditionIf, if_pos hover]
    exact signal_first h.overflow
  · refine signal_quiet fun c hc => h.quiet c ?_
    simp only [List.mem_append, mem_conditionIf, List.mem_singleton] at hc
    rcases hc with (((((⟨hc, -⟩ | ⟨-, rfl⟩) | ⟨-, rfl⟩) | ⟨-, rfl⟩) | rfl) | ⟨-, rfl⟩)
    · exact absurd hc hover
    all_goals decide

theorem fixShort (h : amb.Like ctx) (d : Decimal) (subnormal : Bool) :
    ∃ r : Decimal, amb.fixShort d subnormal = .ok (.finite r) ∧ r.value = d.value := by
  refine ⟨_, signal_quiet fun c hc => h.quiet c ?_, value_padded amb d⟩
  simp only [List.mem_append, mem_conditionIf] at hc
  rcases hc with ⟨-, rfl⟩ | ⟨-, rfl⟩ <;> decide

theorem shortened (h : amb.Like ctx) (d : Decimal) (exp : ℤ) :
    amb.shortened d exp =
      if ctx.rounding.drop d.coeff (exp - d.exp).toNat < 10 ^ ctx.prec then
        ⟨d.neg, ctx.rounding.drop d.coeff (exp - d.exp).toNat, exp⟩
      else ⟨d.neg, ctx.rounding.drop d.coeff (exp - d.exp).toNat / 10, exp + 1⟩ := by
  unfold Ambient.shortened
  rw [h.rounding, h.prec, Rounding.drop_mode]

/-- A result that is returned is rounded as in `ctx`, an overflow is raised. -/
theorem fix (h : amb.Like ctx) (d : Decimal) : Rounds ctx d.value (amb.fix d) := by
  by_cases hd : d.coeff = 0
  · rw [Ambient.fix, if_pos hd]
    exact h.fixZero hd
  have hcases := Context.fix_cases (ε := Signal) h.prec_pos h.limits d
  unfold Ambient.fix
  rw [if_neg hd]
  unfold Context.fix at hcases
  rw [if_neg hd] at hcases
  dsimp only at hcases ⊢
  rw [h.etop, h.etiny, h.prec]
  by_cases hover : ctx.etop < d.digits + d.exp - ctx.prec
  · rw [if_pos hover] at hcases ⊢
    rcases hcases with ⟨-, hcases⟩ | ⟨r, hr, -⟩
    · exact .inl ⟨signal_first h.overflow, hcases⟩
    · cases hr
  rw [if_neg hover] at hcases ⊢
  have hexp : max (d.digits + d.exp - ctx.prec) ctx.etiny ≤ ctx.etop := by
    have hlimits := h.limits
    exact max_le (not_lt.mp hover) (by rw [Context.etiny, Context.etop]; omega)
  by_cases hlong : d.exp < max (d.digits + d.exp - ctx.prec) ctx.etiny
  · rw [if_neg (not_le.mpr hlong)] at hcases
    rw [if_pos hlong, h.fixLong, h.shortened]
    by_cases hfits : ctx.rounding.drop d.coeff
        (max (d.digits + d.exp - ctx.prec) ctx.etiny - d.exp).toNat < 10 ^ ctx.prec
    · rw [if_pos hfits] at hcases ⊢
      rw [if_neg (not_lt.mpr hexp)]
      rcases hcases with ⟨hcases, -⟩ | ⟨r, hr, hround, hcases⟩
      · cases hcases
      · exact .inr ⟨_, rfl, by rw [Except.ok.inj hr, hround], hcases⟩
    rw [if_neg hfits] at hcases ⊢
    by_cases hlarge : ctx.etop < max (d.digits + d.exp - ctx.prec) ctx.etiny + 1
    · rw [if_pos hlarge] at hcases ⊢
      rcases hcases with ⟨-, hcases⟩ | ⟨r, hr, -⟩
      · exact .inl ⟨rfl, hcases⟩
      · cases hr
    · rw [if_neg hlarge] at hcases ⊢
      rcases hcases with ⟨hcases, -⟩ | ⟨r, hr, hround, hcases⟩
      · cases hcases
      · exact .inr ⟨_, rfl, by rw [Except.ok.inj hr, hround], hcases⟩
  · rw [if_pos (not_lt.mp hlong)] at hcases
    rw [if_neg hlong]
    obtain ⟨r, hr, hvalue⟩ := h.fixShort d (d.digits + d.exp - ctx.prec < ctx.etiny)
    rcases hcases with ⟨hcases, -⟩ | ⟨r', hr', hround, hcases⟩
    · cases hcases
    · obtain rfl := Except.ok.inj hr'
      exact .inr ⟨r, hr, hvalue.trans hround, hcases⟩

theorem abs (h : amb.Like ctx) (a : Decimal) : Rounds ctx |a.value| (amb.abs (.finite a)) := by
  rw [← value_copyAbs]
  exact h.fix _

theorem mul (h : amb.Like ctx) (a b : Decimal) :
    Rounds ctx (a.value * b.value) (amb.mul (.finite a) (.finite b)) := by
  rw [← value_mul]
  exact h.fix _

theorem add (h : amb.Like ctx) (a b : Decimal) :
    Rounds ctx (a.value + b.value) (amb.add (.finite a) (.finite b)) := by
  unfold Ambient.add
  dsimp only
  rw [← value_aligned_sum]
  · exact h.fix _
  · by_cases hsum : a.aligned (min a.exp b.exp) + b.aligned (min a.exp b.exp) = 0
    · exact .inr hsum
    · exact .inl (if_neg hsum)

theorem sub (h : amb.Like ctx) (a b : Decimal) :
    Rounds ctx (a.value - b.value) (amb.sub (.finite a) (.finite b)) := by
  rw [sub_eq_add_neg, ← value_copyNegate]
  exact h.add a _

end Like

/-! ## Quotients -/

theorem Rounds.congr {ctx : Context} {x y : ℚ} {result : Except Condition Number}
    (h : Rounds ctx x result) (hround : ctx.round x = ctx.round y) : Rounds ctx y result := by
  unfold Rounds Context.Overflows at h ⊢
  rwa [hround] at h

/-- Trailing zeros do not change the number. -/
theorem idealize_value (ideal : ℤ) : ∀ (fuel coeff : ℕ) (exp : ℤ),
    ((idealize ideal fuel coeff exp).1 : ℚ) * 10 ^ (idealize ideal fuel coeff exp).2 =
      coeff * 10 ^ exp
  | 0, _, _ => rfl
  | fuel + 1, coeff, exp => by
    unfold idealize
    split_ifs with h
    · have hcoeff : (coeff : ℚ) = (coeff / 10 : ℕ) * 10 := by
        exact_mod_cast (Nat.div_mul_cancel (Nat.dvd_of_mod_eq_zero h.2)).symm
      rw [idealize_value ideal fuel, zpow_add_one₀ (by norm_num), hcoeff]
      ring
    · rfl

section

variable (amb : Ambient) (a b : Decimal)

/-- The power of ten that gives a quotient its digits. -/
def shift : ℤ :=
  b.digits - a.digits + amb.prec + 1

/-- The exact quotient, in units of the last digit of `quotient`. -/
theorem ratio_eq (hb : b.coeff ≠ 0) :
    (a.coeff : ℚ) * 10 ^ a.exp / (b.coeff * 10 ^ b.exp) =
      (a.coeff * 10 ^ (amb.shift a b).toNat : ℕ) / (b.coeff * 10 ^ (-amb.shift a b).toNat : ℕ) *
        10 ^ (a.exp - b.exp - amb.shift a b) := by
  have hcoeff : (b.coeff : ℚ) ≠ 0 := by exact_mod_cast hb
  have hshift : (10 : ℚ) ^ (amb.shift a b).toNat =
      10 ^ (-amb.shift a b).toNat * 10 ^ amb.shift a b := by
    rw [← zpow_natCast, ← zpow_natCast, ← zpow_add₀ (by norm_num)]
    congr 1
    omega
  rw [zpow_sub₀ (by norm_num), zpow_sub₀ (by norm_num)]
  push_cast
  rw [hshift]
  field_simp

/-- A quotient has a digit more than the context. -/
theorem pow_prec_le (ha : a.coeff ≠ 0) (hb : b.coeff ≠ 0) :
    10 ^ amb.prec ≤ a.coeff * 10 ^ (amb.shift a b).toNat /
      (b.coeff * 10 ^ (-amb.shift a b).toNat) := by
  have hpos : 0 < b.coeff * 10 ^ (-amb.shift a b).toNat := by positivity
  rw [Nat.le_div_iff_mul_le hpos]
  have hlow : 10 ^ Nat.log 10 a.coeff ≤ a.coeff := Nat.pow_log_le_self 10 ha
  have hhigh : b.coeff < 10 ^ (Nat.log 10 b.coeff + 1) :=
    Nat.lt_pow_succ_log_self (by norm_num) b.coeff
  have hexp : amb.prec + (Nat.log 10 b.coeff + 1) + (-amb.shift a b).toNat =
      Nat.log 10 a.coeff + (amb.shift a b).toNat := by
    unfold shift digits
    omega
  calc 10 ^ amb.prec * (b.coeff * 10 ^ (-amb.shift a b).toNat)
      ≤ 10 ^ amb.prec * (10 ^ (Nat.log 10 b.coeff + 1) * 10 ^ (-amb.shift a b).toNat) :=
        Nat.mul_le_mul_left _ (Nat.mul_le_mul_right _ hhigh.le)
    _ = 10 ^ Nat.log 10 a.coeff * 10 ^ (amb.shift a b).toNat := by
        rw [← mul_assoc, ← pow_add, ← pow_add, ← pow_add, hexp]
    _ ≤ a.coeff * 10 ^ (amb.shift a b).toNat := Nat.mul_le_mul_right _ hlow

end

variable {amb : Ambient} {ctx : Context} {a b : Decimal}

/-- A quotient that is not exact lies between multiples of five of its last digit. -/
theorem Like.round_inexact (h : amb.Like ctx) {num den k : ℕ} {exp : ℤ} (hden : 0 < den)
    (hinexact : num % den ≠ 0) (hlarge : 10 ^ amb.prec ≤ num / den)
    (hlow : 5 * (num / den / 5) < k) (hhigh : k < 5 * (num / den / 5 + 1)) :
    ctx.round (k * 10 ^ exp) = ctx.round (num / den * 10 ^ exp) := by
  have hprec := h.prec_pos
  have hpow : (0 : ℚ) < 10 ^ exp := by positivity
  have hdenQ : (0 : ℚ) < den := by exact_mod_cast hden
  have hsplit := Nat.div_add_mod num den
  have hmod := Nat.mod_lt num hden
  -- the quotient is strictly between its integer part and the next integer
  have hleft : ((5 * (num / den / 5) : ℕ) : ℚ) < num / den := by
    rw [lt_div_iff₀ hdenQ]
    have hfive : 5 * (num / den / 5) ≤ num / den := Nat.mul_div_le _ _
    have hnat : 5 * (num / den / 5) * den < num := by
      calc 5 * (num / den / 5) * den ≤ num / den * den := Nat.mul_le_mul_right _ hfive
        _ < num := by rw [mul_comm]; omega
    exact_mod_cast hnat
  have hright : (num : ℚ) / den < (5 * (num / den / 5 + 1) : ℕ) := by
    rw [div_lt_iff₀ hdenQ]
    have hfive : num / den + 1 ≤ 5 * (num / den / 5 + 1) := by omega
    have hnat : num < 5 * (num / den / 5 + 1) * den := by
      calc num < (num / den + 1) * den := by rw [add_mul, mul_comm (num / den)]; omega
        _ ≤ 5 * (num / den / 5 + 1) * den := Nat.mul_le_mul_right _ hfive
    exact_mod_cast hnat
  have hfloor : 10 ^ amb.prec ≤ 5 * (num / den / 5) := by
    obtain ⟨p, hp⟩ : ∃ p, amb.prec = p + 1 := ⟨amb.prec - 1, by have := amb.prec_pos; omega⟩
    rw [hp, pow_succ] at hlarge ⊢
    omega
  have hround := @Context.round_between ctx hprec exp (num / den / 5 : ℕ)
  refine hround ?_ ⟨?_, ?_⟩ ⟨?_, ?_⟩
  · rw [zpow_add₀ (by norm_num), zpow_natCast, mul_comm, ← h.prec]
    refine mul_le_mul_of_nonneg_right ?_ hpow.le
    exact_mod_cast hfloor
  · refine mul_lt_mul_of_pos_right ?_ hpow
    exact_mod_cast hlow
  · refine mul_lt_mul_of_pos_right ?_ hpow
    exact_mod_cast hhigh
  · refine mul_lt_mul_of_pos_right ?_ hpow
    exact_mod_cast hleft
  · refine mul_lt_mul_of_pos_right ?_ hpow
    exact_mod_cast hright

/-- A quotient is rounded as the exact one is. -/
theorem Like.round_quotient (h : amb.Like ctx) (ha : a.coeff ≠ 0) (hb : b.coeff ≠ 0) :
    ctx.round ((amb.quotient a b).1 * 10 ^ (amb.quotient a b).2) =
      ctx.round (a.coeff * 10 ^ a.exp / (b.coeff * 10 ^ b.exp)) := by
  have hprec := h.prec_pos
  have hlarge := amb.pow_prec_le a b ha hb
  rw [amb.ratio_eq a b hb]
  unfold quotient
  dsimp only
  rw [← shift]
  set num := a.coeff * 10 ^ (amb.shift a b).toNat with hnum
  set den := b.coeff * 10 ^ (-amb.shift a b).toNat with hden
  set exp := a.exp - b.exp - amb.shift a b with hexp
  have hpos : 0 < den := by positivity
  have hposQ : (0 : ℚ) < den := by exact_mod_cast hpos
  have hpow : (0 : ℚ) < 10 ^ exp := by positivity
  split_ifs with hexact hfive
  · rw [idealize_value]
    congr 2
    rw [eq_div_iff hposQ.ne']
    exact_mod_cast Nat.div_mul_cancel (Nat.dvd_of_mod_eq_zero hexact)
  · exact h.round_inexact hpos hexact hlarge (by omega) (by omega)
  · exact h.round_inexact hpos hexact hlarge (by omega) (by omega)

theorem Like.div (h : amb.Like ctx) (a : Decimal) {b : Decimal} (hb : b.coeff ≠ 0) :
    Rounds ctx (a.value / b.value) (amb.div (.finite a) (.finite b)) := by
  unfold Ambient.div
  dsimp only
  rw [if_neg hb]
  by_cases ha : a.coeff = 0
  · rw [if_pos ha]
    refine (h.fix _).congr ?_
    rw [value_eq_zero.mpr ha, zero_div]
    exact congrArg ctx.round (value_eq_zero.mpr rfl)
  rw [if_neg ha]
  refine (h.fix _).congr ?_
  have hround := h.round_quotient ha hb
  rw [value_eq, value_eq a, value_eq b]
  cases a.neg <;> cases b.neg <;>
    simp only [Bool.false_xor, Bool.true_xor, Bool.not_true, Bool.not_false, if_true, if_false,
      Bool.false_eq_true, one_mul, neg_one_mul, neg_div, div_neg, neg_neg, Context.round_neg,
      hround]

end Ambient

/-! ## Results on the rationals -/

instance (ctx : Context) (x : ℚ) : Decidable (ctx.Overflows x) :=
  inferInstanceAs (Decidable (_ ≤ _))

/-- The rounded value of `x`, if the context has it. -/
def Context.evaluate (ctx : Context) (x : ℚ) : Except Condition ℚ :=
  if ctx.Overflows x then .error .overflow else .ok (ctx.round x)

theorem Context.evaluate_of_le {ctx : Context} (hprec : 1 ≤ ctx.prec)
    (hlimits : ctx.emin ≤ ctx.emax) {x : ℚ} (h : |x| ≤ 10 ^ ctx.emax) :
    ctx.evaluate x = .ok (ctx.round x) :=
  if_neg (not_overflows hprec hlimits h)

namespace Ambient

/-- A result has the value of `x`. -/
inductive Shows : Except Condition Number → Except Condition ℚ → Prop
  | ok (d : Decimal) : Shows (.ok (.finite d)) (.ok d.value)
  | error (condition : Condition) : Shows (.error condition) (.error condition)

namespace Shows

theorem of_eq {d : Decimal} {x : ℚ} (h : d.value = x) : Shows (.ok (.finite d)) (.ok x) :=
  h ▸ .ok d

theorem value {r : Except Condition Number} {x : ℚ} (h : Shows r (.ok x)) :
    ∃ d : Decimal, r = .ok (.finite d) ∧ d.value = x := by
  cases h with
  | ok d => exact ⟨d, rfl, rfl⟩

/-- One operation after another. -/
theorem bind {r : Except Condition Number} {x : Except Condition ℚ}
    {f : Number → Except Condition Number} {g : ℚ → Except Condition ℚ} (h : Shows r x)
    (hf : ∀ d : Decimal, x = .ok d.value → Shows (f (.finite d)) (g d.value)) :
    Shows (r >>= f) (x >>= g) := by
  cases h with
  | ok d => exact hf d rfl
  | error condition => exact .error condition

end Shows

theorem Rounds.shows {ctx : Context} {x : ℚ} {r : Except Condition Number} (h : Rounds ctx x r) :
    Shows r (ctx.evaluate x) := by
  rcases h with ⟨rfl, hover⟩ | ⟨d, rfl, hvalue, hover⟩
  · rw [Context.evaluate, if_pos hover]
    exact .error _
  · rw [Context.evaluate, if_neg hover]
    exact .of_eq hvalue

theorem larger_finite (amb : Ambient) (a b : Decimal) : amb.larger (.finite a) (.finite b) =
    .ok (.finite (if a.value < b.value then b else a)) := by
  change Except.ok (if decide (a.value < b.value) then Number.finite b else .finite a) = _
  simp only [decide_eq_true_eq]
  split_ifs <;> rfl

theorem smaller_finite (amb : Ambient) (a b : Decimal) : amb.smaller (.finite a) (.finite b) =
    .ok (.finite (if b.value < a.value then b else a)) := by
  change Except.ok (if decide (b.value < a.value) then Number.finite b else .finite a) = _
  simp only [decide_eq_true_eq]
  split_ifs <;> rfl

theorem larger_shows (amb : Ambient) (a b : Decimal) :
    Shows (amb.larger (.finite a) (.finite b)) (.ok (max a.value b.value)) := by
  rw [larger_finite]
  split_ifs with h
  · rw [max_eq_right h.le]
    exact .ok b
  · rw [max_eq_left (not_lt.mp h)]
    exact .ok a

theorem smaller_shows (amb : Ambient) (a b : Decimal) :
    Shows (amb.smaller (.finite a) (.finite b)) (.ok (min a.value b.value)) := by
  rw [smaller_finite]
  split_ifs with h
  · rw [min_eq_right h.le]
    exact .ok b
  · rw [min_eq_left (not_lt.mp h)]
    exact .ok a

end Ambient

/-! ## What an operation says of its context -/

namespace Ambient

variable {amb : Ambient} {α β : Type}

/-- Only a trapped condition is raised. -/
def Raises (amb : Ambient) (x : Except Condition α) : Prop :=
  ∀ condition, x = .error condition → condition ∈ amb.traps

namespace Raises

theorem ok (a : α) : Raises amb (.ok a) :=
  fun _ h => nomatch h

theorem signal (conditions : List Condition) (result : α) :
    Raises amb (amb.signal conditions result) := by
  intro condition h
  unfold Ambient.signal at h
  cases hfind : conditions.find? (· ∈ amb.traps) with
  | none =>
    rw [hfind] at h
    cases h
  | some c =>
    rw [hfind] at h
    obtain rfl := Except.error.inj h
    simpa using List.find?_some hfind

theorem bind {x : Except Condition α} {f : α → Except Condition β} (hx : Raises amb x)
    (hf : ∀ a, Raises amb (f a)) : Raises amb (x >>= f) := by
  cases x with
  | error c => exact fun condition h => hx condition (congrArg Except.error (Except.error.inj h))
  | ok a => exact hf a

theorem fix (d : Decimal) : Raises amb (amb.fix d) := by
  unfold Ambient.fix
  dsimp only
  split_ifs <;> exact signal _ _

theorem abs (a : Number) : Raises amb (amb.abs a) := by
  cases a with
  | finite d => exact fix _
  | infinite neg => exact ok _
  | nan => exact ok _

theorem add (a b : Number) : Raises amb (amb.add a b) := by
  cases a <;> cases b <;> unfold Ambient.add <;> dsimp only <;> try split_ifs
  all_goals first | exact fix _ | exact ok _ | exact signal _ _

theorem sub (a b : Number) : Raises amb (amb.sub a b) :=
  add _ _

theorem mul (a b : Number) : Raises amb (amb.mul a b) := by
  cases a <;> cases b <;> unfold Ambient.mul <;> dsimp only <;> try split_ifs
  all_goals first | exact fix _ | exact ok _ | exact signal _ _

theorem div (a b : Number) : Raises amb (amb.div a b) := by
  cases a <;> cases b <;> unfold Ambient.div <;> dsimp only <;> try split_ifs
  all_goals first | exact fix _ | exact ok _ | exact signal _ _

theorem lt (a b : Number) : Raises amb (amb.lt a b) := by
  cases a <;> cases b <;> unfold Ambient.lt <;> first | exact ok _ | exact signal _ _

theorem larger (a b : Number) : Raises amb (amb.larger a b) :=
  (lt a b).bind fun _ => ok _

theorem smaller (a b : Number) : Raises amb (amb.smaller a b) :=
  (lt b a).bind fun _ => ok _

end Raises

/-! ### Results that are returned -/

theorem etiny_le_etop : amb.etiny ≤ amb.etop := by
  have hemin := amb.emin_le
  have hemax := amb.emax_nonneg
  rw [etiny, etop]
  omega

/-- A zero stays one. -/
theorem of_fix_zero {d : Decimal} {n : Number} (hd : d.coeff = 0) (h : amb.fix d = .ok n) :
    ∃ r : Decimal, n = .finite r ∧ r.coeff = 0 := by
  rw [fix, if_pos hd] at h
  obtain ⟨rfl, -⟩ := signal_eq_ok h
  exact ⟨_, rfl, hd⟩

variable {d : Decimal} {n : Number} (hover : .overflow ∈ amb.traps) (hd : d.coeff ≠ 0)

include hover hd

/-- Where an overflow is raised, a number has no more digits before its point than there are. -/
theorem le_of_fix (h : amb.fix d = .ok n) : d.digits + d.exp - amb.prec ≤ amb.etop := by
  by_contra hlow
  rw [fix, if_neg hd] at h
  dsimp only at h
  rw [if_pos (not_le.mp hlow), signal_first hover] at h
  cases h

/-- A number that fits keeps its value. -/
theorem of_fix_short (hlow : max (d.digits + d.exp - amb.prec) amb.etiny ≤ d.exp)
    (h : amb.fix d = .ok n) : ∃ r : Decimal, n = .finite r ∧ r.value = d.value ∧
      amb.etiny ≤ r.exp ∧ r.coeff < 10 ^ amb.prec := by
  have htop := le_of_fix hover hd h
  rw [fix, if_neg hd] at h
  dsimp only at h
  rw [if_neg (not_lt.mpr htop), if_neg (not_lt.mpr hlow)] at h
  obtain ⟨rfl, -⟩ := signal_eq_ok h
  refine ⟨_, rfl, value_padded amb d, ?_⟩
  have hdigits : d.coeff < 10 ^ (Nat.log 10 d.coeff + 1) :=
    Nat.lt_pow_succ_log_self (by norm_num) d.coeff
  have htiny := amb.etiny_le_etop
  unfold digits at hlow htop
  split_ifs with hclamp
  · refine ⟨htiny, ?_⟩
    calc d.coeff * 10 ^ (d.exp - amb.etop).toNat
        < 10 ^ (Nat.log 10 d.coeff + 1) * 10 ^ (d.exp - amb.etop).toNat :=
          Nat.mul_lt_mul_of_pos_right hdigits (by positivity)
      _ ≤ 10 ^ amb.prec := by
          rw [← pow_add]
          exact Nat.pow_le_pow_right (by norm_num) (by omega)
  · exact ⟨(le_max_right _ _).trans hlow,
      hdigits.trans_le (Nat.pow_le_pow_right (by norm_num) (by omega))⟩

/-- A number that does not is rounded, and no condition of that is trapped. -/
theorem of_fix_long (hlow : d.exp < max (d.digits + d.exp - amb.prec) amb.etiny)
    (h : amb.fix d = .ok n) :
    let exp := max (d.digits + d.exp - amb.prec) amb.etiny
    n = .finite (amb.shortened d exp) ∧ .rounded ∉ amb.traps ∧
      (d.coeff % 10 ^ (exp - d.exp).toNat ≠ 0 → .inexact ∉ amb.traps ∧
        (d.digits + d.exp - amb.prec < amb.etiny → .underflow ∉ amb.traps)) ∧
      (d.digits + d.exp - amb.prec < amb.etiny → .subnormal ∉ amb.traps) ∧
      ((amb.shortened d exp).coeff = 0 → .clamped ∉ amb.traps) := by
  have htop := le_of_fix hover hd h
  rw [fix, if_neg hd] at h
  dsimp only at h
  rw [if_neg (not_lt.mpr htop), if_pos hlow] at h
  obtain ⟨rfl, hquiet⟩ := signal_eq_ok h
  dsimp only at hquiet ⊢
  have hexp : ¬amb.etop <
      (amb.shortened d (max (d.digits + d.exp - amb.prec) amb.etiny)).exp := fun hexp =>
    hquiet .overflow (by simp [mem_conditionIf, hexp]) hover
  rw [if_neg hexp]
  refine ⟨rfl, hquiet _ (by simp), fun hchanged => ⟨hquiet _ ?_, fun hsubnormal => hquiet _ ?_⟩,
    fun hsubnormal => hquiet _ ?_, fun hzero => hquiet _ ?_⟩
  all_goals simp [mem_conditionIf, *]

omit hover hd in
/-- One of the two integers next to the quotient. -/
theorem drop_cases (mode : RoundingMode) (neg : Bool) (c n : ℕ) :
    mode.drop neg c n = c / 10 ^ n ∨ mode.drop neg c n = c / 10 ^ n + 1 := by
  unfold RoundingMode.drop
  split_ifs
  · exact .inr rfl
  · exact .inl rfl

omit hover hd in
theorem shortened_eq {exp : ℤ} (hfits : amb.rounding.drop d.neg d.coeff (exp - d.exp).toNat <
    10 ^ amb.prec) : amb.shortened d exp =
      ⟨d.neg, amb.rounding.drop d.neg d.coeff (exp - d.exp).toNat, exp⟩ :=
  if_pos hfits

omit hover hd in
theorem shortened_fits {exp : ℤ} (hlow : d.digits + d.exp - amb.prec ≤ exp) (hexp : d.exp ≤ exp) :
    (amb.shortened d exp).coeff < 10 ^ amb.prec ∧ exp ≤ (amb.shortened d exp).exp := by
  have hdigits : d.coeff < 10 ^ (Nat.log 10 d.coeff + 1) :=
    Nat.lt_pow_succ_log_self (by norm_num) d.coeff
  have hquotient : d.coeff / 10 ^ (exp - d.exp).toNat < 10 ^ amb.prec := by
    rw [Nat.div_lt_iff_lt_mul (by positivity), ← pow_add]
    refine hdigits.trans_le (Nat.pow_le_pow_right (by norm_num) ?_)
    unfold digits at hlow
    omega
  have hdrop : amb.rounding.drop d.neg d.coeff (exp - d.exp).toNat ≤ 10 ^ amb.prec := by
    rcases drop_cases amb.rounding d.neg d.coeff (exp - d.exp).toNat with h | h <;> omega
  have hpos : 0 < 10 ^ amb.prec := by positivity
  unfold shortened
  dsimp only
  split_ifs with hfits
  · exact ⟨hfits, le_rfl⟩
  · dsimp only
    omega

omit hd in
/-- Where an overflow is raised, a result is finite, with no more digits than the context has. -/
theorem of_fix (h : amb.fix d = .ok n) : ∃ r : Decimal, n = .finite r ∧
    (r.coeff = 0 ∨ amb.etiny ≤ r.exp ∧ r.coeff < 10 ^ amb.prec) := by
  by_cases hd : d.coeff = 0
  · obtain ⟨r, rfl, hr⟩ := of_fix_zero hd h
    exact ⟨r, rfl, .inl hr⟩
  by_cases hlow : d.exp < max (d.digits + d.exp - amb.prec) amb.etiny
  · obtain ⟨rfl, -⟩ := of_fix_long hover hd hlow h
    obtain ⟨hfits, hexp⟩ := shortened_fits (le_max_left _ amb.etiny) hlow.le
    exact ⟨_, rfl, .inr ⟨(le_max_right _ _).trans hexp, hfits⟩⟩
  · obtain ⟨r, rfl, -, hr⟩ := of_fix_short hover hd (not_lt.mp hlow) h
    exact ⟨r, rfl, .inr hr⟩

/-! ### Division by one -/

omit hover hd

theorem idealize_pow (ideal : ℤ) (c : ℕ) :
    ∀ n : ℕ, idealize ideal n (c * 10 ^ n) (ideal - n) = (c, ideal)
  | 0 => by simp [idealize]
  | n + 1 => by
    have hdrop : c * 10 ^ (n + 1) / 10 = c * 10 ^ n := by
      rw [pow_succ, ← mul_assoc, Nat.mul_div_cancel _ (by norm_num)]
    have hmod : c * 10 ^ (n + 1) % 10 = 0 := by
      rw [pow_succ, ← mul_assoc, Nat.mul_mod_left]
    have hexp : ideal - ((n + 1 : ℕ) : ℤ) + 1 = ideal - n := by
      push_cast
      ring
    rw [idealize, if_pos ⟨by push_cast; omega, hmod⟩, hdrop, hexp, idealize_pow ideal c n]

/-- A number over one is the number, rounded once more. -/
theorem div_one (hd : d.coeff ≠ 0) (hfits : d.coeff < 10 ^ amb.prec) :
    amb.div (.finite d) (.finite .one) = amb.fix d := by
  have hlog : Nat.log 10 d.coeff < amb.prec := Nat.log_lt_of_lt_pow hd hfits
  have hcoeff : coeff .one = 1 := rfl
  have hone : digits .one = 1 := by decide +kernel
  obtain ⟨k, hk⟩ : ∃ k : ℕ, digits .one - d.digits + amb.prec + 1 = k := by
    refine ⟨amb.prec + 1 - Nat.log 10 d.coeff, ?_⟩
    rw [hone]
    unfold digits
    omega
  have hnone : (-(k : ℤ)).toNat = 0 := by omega
  have hfuel : (d.exp - exp .one - (d.exp - exp .one - k)).toNat = k := by omega
  have hquotient : amb.quotient d .one = (d.coeff, d.exp) := by
    unfold quotient
    dsimp only
    rw [hk, Int.toNat_natCast, hnone, hfuel, pow_zero, mul_one, hcoeff, if_pos (Nat.mod_one _),
      Nat.div_one, idealize_pow]
    exact congrArg (Prod.mk d.coeff) (sub_zero d.exp)
  unfold div
  dsimp only
  rw [if_neg (by decide), if_neg hd, hquotient]
  simp [one]

end Ambient

end Decimal
