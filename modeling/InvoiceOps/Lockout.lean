import Mathlib.Data.List.Induction
import Mathlib.Data.Int.Order.Basic
import Mathlib.Order.Basic

/-!
# Lockout after failures

A lock counts the failures since the last success. From the `limit`-th on, every failure locks for a
`period`, in which nothing is tested. `Path` is a sequence of attempts, each with the lock that was
stored before and after it.

A window of one period without a success has at most `limit` failures (`Path.window`) : the failure
that reaches the limit locks until the window is over. After that, failures are at least a period
apart (`Path.apart`).
-/

namespace Lockout

/-- So many failures lock for so long. -/
structure Policy where
  limit : ℕ
  period : ℤ
  limit_pos : 0 < limit
  period_pos : 0 < period

/-- What is stored : the failures in a row, and the end of the lock. -/
structure Lock where
  failures : ℕ
  lockedUntil : Option ℤ
  deriving DecidableEq, Repr

/-- The lock of a new account, and after every success. -/
def Lock.fresh : Lock :=
  ⟨0, none⟩

/-- The lock is over. -/
def Lock.Open (lock : Lock) (time : ℤ) : Prop :=
  ∀ l ∈ lock.lockedUntil, l ≤ time

/-- What comes of an attempt : nothing is tested while the lock holds, and a void attempt is as if
it had not been made. -/
inductive Outcome where
  | locked | wrong | right | void
  deriving DecidableEq, Repr

/-- An attempt, with the lock before and after it. -/
structure Attempt where
  time : ℤ
  outcome : Outcome
  before : Lock
  after : Lock
  deriving DecidableEq, Repr

variable (policy : Policy)

/-- The lock after one more failure. -/
def Lock.fail (lock : Lock) (time : ℤ) : Lock :=
  ⟨lock.failures + 1,
    if policy.limit ≤ lock.failures + 1 then some (time + policy.period) else none⟩

/-- What an attempt does to the lock. -/
inductive Attempt.Sound (a : Attempt) : Prop where
  | locked (h : a.outcome = .locked) {l : ℤ} (hl : a.before.lockedUntil = some l) (ht : a.time < l)
      (ha : a.after = a.before)
  | wrong (h : a.outcome = .wrong) (hopen : a.before.Open a.time)
      (ha : a.after = a.before.fail policy a.time)
  | right (h : a.outcome = .right) (hopen : a.before.Open a.time) (ha : a.after = .fresh)
  | void (h : a.outcome = .void) (ha : a.after = a.before)

/-- Attempts from one lock to another. -/
inductive Path : Lock → List Attempt → Lock → Prop where
  | nil (lock : Lock) : Path lock [] lock
  | cons {a : Attempt} {attempts : List Attempt} {lock lock' : Lock} (before : a.before = lock)
      (h : a.Sound policy) (path : Path a.after attempts lock') : Path lock (a :: attempts) lock'

/-- The attempts are in the order of their times. -/
def Ordered (attempts : List Attempt) : Prop :=
  attempts.Pairwise fun a b => a.time ≤ b.time

/-- The failures since the last success. -/
def consecutive (attempts : List Attempt) : ℕ :=
  attempts.foldl (fun n a =>
    match a.outcome with
    | .wrong => n + 1
    | .right => 0
    | .locked | .void => n) 0

/-- A failure in the period from a time on. -/
def Attempt.wrongIn (a : Attempt) (start : ℤ) : Bool :=
  a.outcome = .wrong && start ≤ a.time && a.time < start + policy.period

variable {policy}

/-- A path goes through a middle. -/
theorem Path.append {lock lock' : Lock} {as bs : List Attempt}
    (h : Path policy lock (as ++ bs) lock') :
    ∃ middle, Path policy lock as middle ∧ Path policy middle bs lock' := by
  induction as generalizing lock with
  | nil => exact ⟨lock, .nil lock, h⟩
  | cons a as ih =>
    cases h with
    | cons before hsound path =>
      obtain ⟨middle, hfirst, hlast⟩ := ih path
      exact ⟨middle, .cons before hsound hfirst, hlast⟩

/-- One more sound attempt. -/
theorem Path.snoc {lock : Lock} {as : List Attempt} {a : Attempt}
    (h : Path policy lock as a.before) (ha : a.Sound policy) :
    Path policy lock (as ++ [a]) a.after := by
  generalize hb : a.before = before at h
  induction h with
  | nil lock => exact .cons hb ha (.nil _)
  | cons before hsound path ih => exact .cons before hsound (ih hb)

/-- The wrong passwords in a row after one more attempt. -/
theorem consecutive_snoc (as : List Attempt) (a : Attempt) :
    consecutive (as ++ [a]) =
      match a.outcome with
      | .wrong => consecutive as + 1
      | .right => 0
      | .locked | .void => consecutive as := by
  unfold consecutive
  rw [List.foldl_append]
  rfl

/-- The count that is stored is that of the failures in a row. -/
theorem Path.failures {as : List Attempt} {lock : Lock} (h : Path policy .fresh as lock) :
    lock.failures = consecutive as := by
  induction as using List.reverseRecOn generalizing lock with
  | nil =>
    cases h
    rfl
  | append_singleton as a ih =>
    obtain ⟨middle, hfirst, hlast⟩ := h.append
    have hcount := ih hfirst
    rw [consecutive_snoc]
    cases hlast with
    | cons before hsound path =>
      cases path
      subst before
      cases hsound with
      | locked h _ _ ha => rw [h, ha, hcount]
      | wrong h _ ha => rw [h, ha, Lock.fail, hcount]
      | right h _ ha => rw [h, ha, Lock.fresh]
      | void h ha => rw [h, ha, hcount]

/-- Attempts after the window are not in it. -/
theorem filter_eq_nil_of_late {attempts : List Attempt} {start : ℤ}
    (h : ∀ a ∈ attempts, start + policy.period ≤ a.time) :
    attempts.filter (fun a => a.wrongIn policy start) = [] := by
  rw [List.filter_eq_nil_iff]
  intro a ha hw
  simp only [Attempt.wrongIn, Bool.and_eq_true, decide_eq_true_eq] at hw
  have := h a ha
  omega

/-- With `k` failures of the window made, the rest of it has no more than are left. -/
theorem Path.rest_of_window {start : ℤ} {attempts : List Attempt} :
    ∀ {lock lock' : Lock} {k : ℕ}, Path policy lock attempts lock' → Ordered attempts →
      (∀ a ∈ attempts, a.outcome = .right →
        ¬(start ≤ a.time ∧ a.time < start + policy.period)) →
      k ≤ policy.limit → k ≤ lock.failures → (0 < k → ∀ a ∈ attempts, start ≤ a.time) →
      (policy.limit ≤ k → ∃ l ∈ lock.lockedUntil, start + policy.period ≤ l) →
      k + (attempts.filter fun a => a.wrongIn policy start).length ≤ policy.limit := by
  induction attempts with
  | nil => exact fun _ _ _ hk _ _ _ => hk
  | cons a as ih =>
    intro lock lock' k h hordered hright hk hfailures hstarted hlocked
    obtain ⟨hlater, hordered⟩ := List.pairwise_cons.mp hordered
    have hright' := fun b hb => hright b (List.mem_cons_of_mem a hb)
    have hstarted' : 0 < k → ∀ b ∈ as, start ≤ b.time := fun h0 b hb =>
      hstarted h0 b (List.mem_cons_of_mem a hb)
    by_cases hlate : start + policy.period ≤ a.time
    · -- the window is over
      rw [filter_eq_nil_of_late, List.length_nil, Nat.add_zero]
      · exact hk
      · intro b hb
        rcases List.mem_cons.mp hb with rfl | hb
        · exact hlate
        · exact hlate.trans (hlater b hb)
    cases h with
    | cons before hsound path =>
    subst before
    cases hsound with
    | locked h _ _ ha =>
      rw [ha] at path
      rw [List.filter_cons_of_neg (by simp [Attempt.wrongIn, h])]
      exact ih path hordered hright' hk hfailures hstarted' hlocked
    | void h ha =>
      rw [ha] at path
      rw [List.filter_cons_of_neg (by simp [Attempt.wrongIn, h])]
      exact ih path hordered hright' hk hfailures hstarted' hlocked
    | right h _ ha =>
      rw [ha] at path
      rw [List.filter_cons_of_neg (by simp [Attempt.wrongIn, h])]
      have hearly : ¬start ≤ a.time := fun hs =>
        hright a List.mem_cons_self h ⟨hs, by omega⟩
      obtain rfl : k = 0 := by
        by_contra h0
        exact hearly (hstarted (Nat.pos_of_ne_zero h0) a List.mem_cons_self)
      have hpos := policy.limit_pos
      exact ih path hordered hright' hk (Nat.zero_le _) (fun h0 => absurd h0 (by omega))
        fun h0 => absurd h0 (by omega)
    | wrong h hopen ha =>
      rw [ha] at path
      by_cases hearly : start ≤ a.time
      · -- the failure is in the window : if it were one too many, it would have been locked out
        have hless : k < policy.limit := by
          by_contra hmax
          obtain ⟨l, hl, hle⟩ := hlocked (by omega)
          have := hopen l hl
          omega
        rw [List.filter_cons_of_pos (by simp [Attempt.wrongIn, h, hearly]; omega),
          List.length_cons]
        have hrest := @ih _ _ (k + 1) path hordered hright' hless (Nat.succ_le_succ hfailures)
          (fun _ b hb => hearly.trans (hlater b hb)) (fun hmax => by
            refine ⟨a.time + policy.period, ?_, by omega⟩
            rw [Lock.fail, if_pos (by omega)]
            exact rfl)
        omega
      · obtain rfl : k = 0 := by
          by_contra h0
          exact hearly (hstarted (Nat.pos_of_ne_zero h0) a List.mem_cons_self)
        have hpos := policy.limit_pos
        rw [List.filter_cons_of_neg (by simp [Attempt.wrongIn, hearly])]
        exact ih path hordered hright' hk (Nat.zero_le _) (fun h0 => absurd h0 (by omega))
          fun h0 => absurd h0 (by omega)

/-- A window of one period without a success has at most `limit` failures. -/
theorem Path.window {attempts : List Attempt} {lock : Lock} (h : Path policy .fresh attempts lock)
    (hordered : Ordered attempts) {start : ℤ}
    (hright : ∀ a ∈ attempts, a.outcome = .right →
      ¬(start ≤ a.time ∧ a.time < start + policy.period)) :
    (attempts.filter fun a => a.wrongIn policy start).length ≤ policy.limit := by
  have hpos := policy.limit_pos
  have hrest := h.rest_of_window hordered hright (Nat.zero_le _) (Nat.zero_le _)
    (fun h0 => absurd h0 (Nat.lt_irrefl 0)) fun h0 => absurd h0 (by omega)
  rwa [Nat.zero_add] at hrest

/-- A lock that holds for a time holds as long as there is no success. -/
theorem Path.held {attempts : List Attempt} {time : ℤ} :
    ∀ {lock lock' : Lock}, Path policy lock attempts lock' → policy.limit ≤ lock.failures →
      (∃ l ∈ lock.lockedUntil, time ≤ l) → (∀ a ∈ attempts, a.outcome ≠ .right) →
      ∃ l ∈ lock'.lockedUntil, time ≤ l := by
  induction attempts with
  | nil =>
    intro lock lock' h _ hheld _
    cases h
    exact hheld
  | cons a as ih =>
    intro lock lock' h hmax hheld hright
    have hright' := fun b hb => hright b (List.mem_cons_of_mem a hb)
    cases h with
    | cons before hsound path =>
    subst before
    cases hsound with
    | locked _ _ _ ha | void _ ha =>
      rw [ha] at path
      exact ih path hmax hheld hright'
    | right h _ _ => exact absurd h (hright a List.mem_cons_self)
    | wrong h hopen ha =>
      rw [ha] at path
      refine ih path (Nat.le_succ_of_le hmax) ?_ hright'
      obtain ⟨l, hl, hle⟩ := hheld
      have := hopen l hl
      have hperiod := policy.period_pos
      refine ⟨a.time + policy.period, ?_, by omega⟩
      rw [Lock.fail, if_pos (Nat.le_succ_of_le hmax)]
      exact rfl

/-- What holds of the attempts at an account that was new at their start. -/
structure Guarded (policy : Policy) (attempts : List Attempt) : Prop where
  /-- No success while the lock holds, and a success resets it. -/
  right : ∀ a ∈ attempts, a.outcome = .right → a.before.Open a.time ∧ a.after = .fresh
  /-- No failure is counted while the lock holds. -/
  wrong : ∀ a ∈ attempts, a.outcome = .wrong → a.before.Open a.time
  /-- In every period without a success at most `limit` failures are counted. -/
  window : ∀ start, (∀ a ∈ attempts, a.outcome = .right →
      ¬(start ≤ a.time ∧ a.time < start + policy.period)) →
    (attempts.filter fun a => a.wrongIn policy start).length ≤ policy.limit
  /-- From the `limit`-th failure in a row on, every failure locks for a period. -/
  relocked : ∀ (first : List Attempt) (a : Attempt) (rest : List Attempt),
    attempts = first ++ a :: rest → a.outcome = .wrong →
    policy.limit ≤ consecutive (first ++ [a]) →
      a.after.lockedUntil = some (a.time + policy.period)
  /-- And the next failure comes after the lock. -/
  apart : ∀ (first : List Attempt) (a : Attempt) (middle : List Attempt) (b : Attempt)
    (rest : List Attempt), attempts = first ++ a :: (middle ++ b :: rest) →
    a.outcome = .wrong → policy.limit ≤ consecutive (first ++ [a]) → b.outcome = .wrong →
    (∀ c ∈ middle, c.outcome ≠ .right) → a.time + policy.period ≤ b.time

/-- Every attempt on a path is sound. -/
theorem Path.sound {lock lock' : Lock} {attempts : List Attempt}
    (h : Path policy lock attempts lock') : ∀ a ∈ attempts, a.Sound policy := by
  induction h with
  | nil => exact fun _ => nofun
  | cons _ hsound _ ih => exact List.forall_mem_cons.mpr ⟨hsound, ih⟩

/-- The failure that reaches the limit locks for a period. -/
theorem Path.relocked {first rest : List Attempt} {a : Attempt} {lock : Lock}
    (h : Path policy .fresh (first ++ a :: rest) lock) (hwrong : a.outcome = .wrong)
    (hmax : policy.limit ≤ consecutive (first ++ [a])) :
    policy.limit ≤ a.after.failures ∧ a.after.lockedUntil = some (a.time + policy.period) ∧
      Path policy a.after rest lock := by
  obtain ⟨middle, hfirst, hlast⟩ := h.append
  have hcount := hfirst.failures
  rw [consecutive_snoc, hwrong] at hmax
  dsimp only at hmax
  cases hlast with
  | cons before hsound path =>
  rw [← hcount, ← before] at hmax
  cases hsound with
  | wrong _ _ ha =>
    refine ⟨?_, ?_, path⟩
    · rw [ha]
      exact hmax
    · rw [ha, Lock.fail, if_pos hmax]
  | locked h _ _ _ | right h _ _ | void h _ =>
    rw [hwrong] at h
    cases h

/-- A path from a fresh lock is guarded. -/
theorem Path.guarded {attempts : List Attempt} {lock : Lock}
    (h : Path policy .fresh attempts lock) (hordered : Ordered attempts) :
    Guarded policy attempts where
  right a ha hright := by
    cases h.sound a ha with
    | right _ hopen hafter => exact ⟨hopen, hafter⟩
    | locked hout _ _ _ | wrong hout _ _ | void hout _ =>
      rw [hright] at hout
      cases hout
  wrong a ha hwrong := by
    cases h.sound a ha with
    | wrong _ hopen _ => exact hopen
    | locked hout _ _ _ | right hout _ _ | void hout _ =>
      rw [hwrong] at hout
      cases hout
  window start := h.window hordered
  relocked first a rest heq hwrong hmax := by
    subst heq
    exact (h.relocked hwrong hmax).2.1
  apart first a middle b rest heq hwrong hmax hb hmiddle := by
    subst heq
    obtain ⟨hfailures, hlock, hrest⟩ := h.relocked hwrong hmax
    obtain ⟨last, hmid, hend⟩ := hrest.append
    obtain ⟨l, hl, hle⟩ := hmid.held hfailures ⟨_, hlock, le_rfl⟩ hmiddle
    cases hend with
    | cons before hsound _ =>
    subst before
    cases hsound with
    | wrong _ hopen _ => exact hle.trans (hopen l hl)
    | locked hout _ _ _ | right hout _ _ | void hout _ =>
      rw [hb] at hout
      cases hout

end Lockout
