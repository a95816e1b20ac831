import InvoiceOps.GatewayFallback
import InvoiceOps.Ledger
import InvoiceOps.Triage

/-!
# The audit of gateway calls

What a call ends in is kept in a `ModelInvocation`, a `TriageResult` and the `VersionOverrides` of
an event, which take six attempts and, the first and the last, a version of 128 characters. The
gateway pins up to 160, and counts the attempts of all routes. Under a clock that does not go back,
`gateway_fits_audit` says for which settings what the gateway may end in fits (`FitsAudit`), and
that then neither agent fails on it.
-/

open Loop (Turn)

namespace InvoiceOps

/-! ## The attempts of a call -/

/-- The clock of the host does not go back : it shows no less than `time`, which only grows. -/
structure Monotonic {W T : Type} (host : GatewayHost W T) (time : W → ℚ) : Prop where
  time_le_clock : ∀ w, time w ≤ (host.clock w).1
  clock_le_time : ∀ w, (host.clock w).1 ≤ time (host.clock w).2
  utcnow : ∀ w, time w ≤ time (host.utcnow w).2
  enter : ∀ w, time w ≤ time (host.enter w).2
  prepare : ∀ policy name w, time w ≤ time (host.prepare policy name w).2
  operate : ∀ policy name timeout w, time w ≤ time (host.operate policy name timeout w).2
  sleep : ∀ delay w, 0 ≤ delay → time w ≤ time (host.sleep delay w).2
  leave : ∀ error w, time w ≤ time (host.leave error w).2

section

variable {W T : Type} {host : GatewayHost W T} {time : W → ℚ} {settings : GatewaySettings}
  {policy : AliasPolicy} {started : ℚ} {routes : List Route}

/-- A clock that is monotonic does not go back. -/
theorem Monotonic.clock (h : Monotonic host time) (w : W) : time w ≤ time (host.clock w).2 :=
  (h.time_le_clock w).trans (h.clock_le_time w)

variable (policy) in
/-- If the total timeout is no longer than that of an attempt, a route with a fallback is tried
once. -/
theorem turn_once (h : Monotonic host time)
    (htotal : settings.totalTimeout ≤ settings.requestTimeout)
    (s : Attempting W T) (hs : started ≤ time s.world) :
    ∃ ended, s.turn host settings policy (started + settings.totalTimeout) false = .leave ended ∧
      operationsOn 0 ended.2.trace ≤ operationsOn 0 s.trace + 1 := by
  have hticked : started ≤ time (s.ticked host).world := hs.trans (h.clock _)
  rcases s.turn_cases host settings policy (started + settings.totalTimeout) false
    with ⟨-, ht⟩ | ⟨-, timeout, world, ended, hop, ht⟩
  · exact ⟨_, ht, Nat.le_succ _⟩
  have hworld : started ≤ time world :=
    hticked.trans ((h.operate _ _ _ _).trans_eq (by rw [hop]))
  have hcount : operationsOn 0 (s.operated settings world
      (started + settings.totalTimeout - s.now host) ended).trace ≤ operationsOn 0 s.trace + 1 := by
    rw [Attempting.operated, operationsOn, List.countP_append, ← operationsOn]
    exact Nat.add_le_add_left List.countP_le_length _
  rw [ht]
  cases hended : ended.retryable with
  | false => exact ⟨_, Attempting.proceed_eq _ hended, hcount⟩
  | true =>
    obtain ⟨hint, world', hhint, hworld', hp⟩ := Attempting.proceed_cases host settings
      policy (started + settings.totalTimeout) false (s.operated settings world
        (started + settings.totalTimeout - s.now host) ended) hended
    have hstarted : started ≤ time world' := by
      rcases hworld' with rfl | rfl
      · exact hworld
      · exact hworld.trans (h.utcnow _)
    rw [hp]
    rcases Attempting.retry_cases host settings
      (started + settings.totalTimeout) false
      ({ s.operated settings world (started + settings.totalTimeout - s.now host) ended
        with world := world' } : Attempting W T) hint with ⟨world'', -, hr⟩ | ⟨-, -, hleft, -⟩
    · exact ⟨_, hr, hcount⟩
    · have hnow := h.time_le_clock world'
      have hdelay := @retryDelay_nonneg settings (s.routeAttempts + 1) _ hhint
      have := hleft rfl
      simp only [Attempting.now, Attempting.operated] at this
      linarith

/-- The operations of a call are those on its two routes. -/
theorem callOperations_le {trace : List (GatewayStep T)}
    (h : ∀ step ∈ trace, step.isOperation → step.isOn 0 ∨ step.isOn 1) :
    callOperations trace ≤ operationsOn 0 trace + operationsOn 1 trace := by
  unfold callOperations operationsOn
  induction trace with
  | nil => simp
  | cons step trace ih =>
    have ih' := ih fun s hs => h s (List.mem_cons_of_mem _ hs)
    have hstep := h step List.mem_cons_self
    simp only [List.countP_cons]
    by_cases hop : step.isOperation
    · rcases hstep hop with h0 | h1
      · simp only [hop, h0, if_true]
        omega
      · simp only [hop, h1, if_true]
        omega
    · simp only [hop, Bool.false_eq_true, if_false]
      omega

/-- The operations of a call with one route are those on it. -/
theorem callOperations_single {trace : List (GatewayStep T)}
    (h : ∀ step ∈ trace, step.isOperation → step.isOn 0) :
    callOperations trace ≤ operationsOn 0 trace :=
  List.countP_mono_left h

/-- The operations of an allowed trace are on its routes. -/
theorem Disciplined.isOn {trace : List (GatewayStep T)} (h : Disciplined settings routes trace)
    {step : GatewayStep T} (hstep : step ∈ trace) (hop : step.isOperation) :
    ∃ i < routes.length, step.isOn i := by
  cases step with
  | select index route => cases hop
  | sleep index delay remaining => cases hop
  | operation index route remaining timeout ended =>
    exact ⟨index, (List.getElem?_eq_some_iff.mp (h.allowed _ hstep).1).1,
      by simp [GatewayStep.isOn]⟩

end

/-- How many attempts a call may make. -/
def attemptLimit (settings : GatewaySettings) (routes : List Route) : ℕ :=
  if routes.length < 2 then settings.maxAttempts
  else if settings.totalTimeout ≤ settings.requestTimeout then settings.maxAttempts + 1
  else 2 * settings.maxAttempts

section

variable {W T : Type} {host : GatewayHost W T} {time : W → ℚ} {settings : GatewaySettings}
  {policy : AliasPolicy} {context : RequestContext} {task : ModelAlias} {started : ℚ}

/-- The primary route of two, under a short total timeout. -/
theorem scope_once (h : Monotonic host time)
    (htotal : settings.totalTimeout ≤ settings.requestTimeout)
    (hroutes : (policy.routesFor context.sensitivity task).length = 2) {world : W}
    (hworld : started ≤ time world) {fuel : ℕ}
    {ended : Except Raised (GatewayResult T) × GatewayCall W T}
    (hscope : scope host settings policy fuel context task started
      { world, selected := (0, policy.primary context.sensitivity task) } = some ended) :
    operationsOn 0 ended.2.trace ≤ 1 := by
  obtain ⟨route, fallback, hroutes⟩ := List.length_eq_two.mp hroutes
  have hleave (tried : RouteEnd T × GatewayCall W T) :
      (leaveScope host (conclude host context task started tried)).2.trace = tried.2.trace := by
    obtain ⟨world, h | ⟨error, h⟩⟩ :=
      leaveScope_cases host (conclude host context task started tried) <;>
      rw [h] <;> exact conclude_trace host context task started tried
  simp only [scope, hroutes] at hscope
  split at hscope
  · obtain rfl := Option.some.inj hscope
    exact Nat.zero_le _
  obtain ⟨tried, htry, rfl⟩ := Option.map_eq_some_iff.mp hscope
  rw [hleave]
  rw [tryRoutes] at htry
  dsimp only at htry
  split at htry
  · obtain rfl := Option.some.inj htry
    exact Nat.zero_le _
  have hentered : started ≤ time (host.prepare policy route.name.val
      (host.enter world).2).2 := hworld.trans ((h.enter _).trans (h.prepare _ _ _))
  obtain ⟨first, hfirst, hcount⟩ := turn_once policy h htotal
    ⟨GatewayCall.select { world := (host.enter world).2
                          selected := (0, policy.primary context.sensitivity task) } 0 route
      (host.prepare policy route.name.val (host.enter world).2).2, 0⟩ hentered
  have hone : operationsOn 0 first.2.trace ≤ 1 := hcount
  cases fuel with
  | zero => simp [Loop.run] at htry
  | succ fuel =>
    simp only [Loop.run, List.isEmpty_cons, hfirst] at htry
    split at htry
    · cases htry
    · rename_i c hrun
      obtain rfl := Option.some.inj hrun
      obtain ⟨steps, hsteps, hall⟩ := tryRoutes_onward htry
      rw [hsteps, operationsOn, List.countP_append, ← operationsOn]
      have hzero : List.countP (GatewayStep.isOn 0) steps = 0 := by
        refine List.countP_eq_zero.mpr fun step hs => ?_
        have := hall step hs
        cases step <;> simp_all [GatewayStep.index, GatewayStep.isOn]
        omega
      have hc : operationsOn 0 c.trace ≤ 1 := hone
      omega
    · rename_i r _ hrun
      obtain rfl := Option.some.inj hrun
      obtain rfl := Option.some.inj htry
      exact hone

/-- A call makes no more attempts than its limit. -/
theorem attempts_le (h : Monotonic host time) {world : W} (hworld : started ≤ time world) {fuel : ℕ}
    {ended : Except Raised (GatewayResult T) × GatewayCall W T}
    (hscope : scope host settings policy fuel context task started
      { world, selected := (0, policy.primary context.sensitivity task) } = some ended)
    (htraced : Traced settings (policy.routesFor context.sensitivity task) ended.2) :
    ended.2.attempts ≤ attemptLimit settings (policy.routesFor context.sensitivity task) := by
  have hlength := policy.length_routesFor context.sensitivity task
  have h0 := htraced.disciplined.bounded 0
  have h1 := htraced.disciplined.bounded 1
  rw [htraced.attempts]
  unfold attemptLimit
  split_ifs with hone htotal
  · refine (callOperations_single fun step hs hop => ?_).trans h0
    obtain ⟨i, hi, hon⟩ := htraced.disciplined.isOn hs hop
    obtain rfl : i = 0 := by omega
    exact hon
  all_goals
    have hle := @callOperations_le _ ended.2.trace fun step hs hop => by
      obtain ⟨i, hi, hon⟩ := htraced.disciplined.isOn hs hop
      obtain rfl | rfl : i = 0 ∨ i = 1 := by omega
      · exact Or.inl hon
      · exact Or.inr hon
  · have := scope_once h htotal (by omega) hworld hscope
    omega
  · omega

end

/-! ## The contracts -/

/-- How a model invocation ended, as its audit says. -/
inductive InvocationStatus where
  | valid | malformed | failed
  deriving DecidableEq, Repr

/-- `ModelInvocation`, before its bounds are checked. -/
structure ModelInvocationData where
  promptVersion : String
  modelVersion : String
  providerModel : Option String := none
  status : InvocationStatus
  gatewayAttempts : ℕ
  usage : Option TokenUsage := none
  latencyMs : Option ℚ := none
  costUsd : Option Decimal := none

/-- The bounds of `ModelInvocation`. -/
def ModelInvocationData.Valid (call : ModelInvocationData) : Prop :=
  (1 ≤ call.promptVersion.length ∧ call.promptVersion.length ≤ 128) ∧
    (1 ≤ call.modelVersion.length ∧ call.modelVersion.length ≤ 128) ∧
    (∀ model ∈ call.providerModel, model.length ≤ 160) ∧ call.gatewayAttempts ≤ 6 ∧
    (∀ latency ∈ call.latencyMs, 0 ≤ latency) ∧ ∀ cost ∈ call.costUsd, 0 ≤ cost.value

instance : DecidablePred ModelInvocationData.Valid :=
  fun _ => inferInstanceAs (Decidable (_ ∧ _ ∧ _ ∧ _ ∧ _ ∧ _))

/-- An invocation that can be audited. -/
abbrev ModelInvocation := { call : ModelInvocationData // call.Valid }

/-- `VersionOverrides` of a model and a prompt. -/
def modelOverrides (modelVersion promptVersion : String) : Option VersionOverrides := do
  let modelVersion ← Version.ofString? modelVersion
  let promptVersion ← Version.ofString? promptVersion
  return { modelVersion := some modelVersion, promptVersion := some promptVersion }

/-! ## The agents -/

/-- An error of the gateway that the agents do not catch. -/
def GatewayErrorKind.reraised : GatewayErrorKind → Bool
  | .cassetteMismatch | .configuration => true
  | _ => false

/-- The reasons that an error of the gateway is escalated for. -/
inductive EscalationReason where
  | malformedModelOutput | invalidModelResponse | gatewayUnavailable | gatewayRejected
  | guardrailRejected | tokenBudgetExceeded
  deriving DecidableEq, Repr

/-- `_gateway_reason`. -/
def gatewayReason : GatewayErrorKind → EscalationReason
  | .unavailable | .deadlineExceeded => .gatewayUnavailable
  | .requestRejected => .gatewayRejected
  | .guardrailRejected => .guardrailRejected
  | .tokenBudgetExceeded => .tokenBudgetExceeded
  | _ => .invalidModelResponse

/-- What an extraction comes to, with its calls. -/
inductive ExtractionResult (E : Type) where
  | success (calls : List ModelInvocation) (extraction : E)
  | escalation (calls : List ModelInvocation) (reason : EscalationReason)

/-- The calls of a result. -/
def ExtractionResult.calls {E : Type} : ExtractionResult E → List ModelInvocation
  | success calls _ | escalation calls _ => calls

/-- What an extraction raises. -/
inductive ExtractionFailure where
  | configuration | validation | assertion
  | gateway (error : CallError)

namespace ExtractionAgent

variable {E : Type} (policy : AliasPolicy)

/-- The version of the prompt, or of the prompt of a repair. -/
def promptVersion (repair : Bool) : String :=
  if repair then "extract@v4+repair@v1" else "extract@v4"

/-- `ModelInvocation(...)`. -/
def invocation (call : ModelInvocationData) : Except ExtractionFailure ModelInvocation :=
  if h : call.Valid then .ok ⟨call, h⟩ else .error .validation

/-- The call that an error ended. -/
def errorCall (repair : Bool) (error : GatewayError) : ModelInvocationData where
  modelVersion := policy.modelVersion.val
  promptVersion := promptVersion repair
  status := if error.kind = .invalidStructuredOutput then .malformed else .failed
  gatewayAttempts := error.attempts
  costUsd := error.costUsd.map Subtype.val

/-- The call that has a result. -/
def resultCall (result : GatewayResult E) : ModelInvocationData where
  modelVersion := result.provenance.modelVersion.val
  promptVersion := result.provenance.promptVersion.val
  providerModel := some result.provenance.model.val
  status := .valid
  gatewayAttempts := result.attempts
  usage := some result.usage
  latencyMs := some result.latencyMs
  costUsd := result.costUsd.map Subtype.val

/-- A pass of `_extract` : the result, or the calls to go on with. -/
def pass (repair : Bool) (calls : List ModelInvocation) :
    Except CallError (GatewayResult E) →
      Except ExtractionFailure (ExtractionResult E ⊕ List ModelInvocation)
  | .error (.gateway error) =>
    if error.kind.reraised then .error (.gateway (.gateway error))
    else do
      let call ← invocation (errorCall policy repair error)
      if error.kind = .invalidStructuredOutput ∧ repair = false then
        return .inr (calls ++ [call])
      return .inl (.escalation (calls ++ [call])
        (if error.kind = .invalidStructuredOutput then .malformedModelOutput
          else gatewayReason error.kind))
  | .error error => .error (.gateway error)
  | .ok result => do
    let call ← invocation (resultCall result)
    return .inl (.success (calls ++ [call]) result.value)

/-- `_extract`, from what its call and that of its repair end in. -/
def extractWith (first second : Except CallError (GatewayResult E)) :
    Except ExtractionFailure (ExtractionResult E) := do
  match ← pass policy false [] first with
  | .inl result => return result
  | .inr calls =>
    match ← pass policy true calls second with
    | .inl result => return result
    | .inr _ => .error .assertion

/-- `extract`, until the append of its event, with the versions of the event. -/
def extract (first second : Except CallError (GatewayResult E)) :
    Except ExtractionFailure (ExtractionResult E × VersionOverrides) :=
  match modelOverrides policy.modelVersion.val (promptVersion false) with
  | none => .error .configuration
  | some versions => do
    let result ← extractWith policy first second
    match result.calls.getLast? with
    | none => return (result, versions)
    | some call =>
      match modelOverrides call.val.modelVersion call.val.promptVersion with
      | none => .error .validation
      | some versions => return (result, versions)

end ExtractionAgent

/-- What a call may end in, under a clock that does not go back. -/
def Reached {T : Type} (settings : GatewaySettings) (context : RequestContext) (task : ModelAlias)
    (outcome : Except CallError (GatewayResult T)) : Prop :=
  ∃ (W : Type) (host : GatewayHost W T) (time : W → ℚ), Monotonic host time ∧
    ∃ (client : GatewayClient) (world : W) (call : Invoked W T),
      client.invokeCore host settings settings.maxAttempts context task world = some call ∧
        call.outcome = outcome

/-- The version and the attempts are such as the contracts take. -/
structure Audited (version : GatewayVersion) (attempts : ℕ) : Prop where
  invocation : ∀ status, ModelInvocationData.Valid {
    promptVersion := ExtractionAgent.promptVersion false
    modelVersion := version.val
    status
    gatewayAttempts := attempts }
  triage : ∀ evidenceSha256 reason, TriageResultData.Valid {
    status := .fallback
    draft := none
    fallbackReason := some reason
    evidenceSha256
    modelVersion := version.val
    gatewayAttempts := attempts }
  overrides : (Version.ofString? version.val).isSome

/-- What a call ends in, as the contracts take it : an error is kept under the version of the
policy. -/
def AuditAccepts {T : Type} (policy : AliasPolicy) : Except CallError (GatewayResult T) → Prop
  | .ok result => Audited result.provenance.modelVersion result.attempts
  | .error (.gateway error) => Audited policy.modelVersion error.attempts
  | .error _ => True

/-- The code points of a version's characters. -/
theorem versionChar_bounds {c : Char} (h : isVersionChar c) : 43 ≤ c.toNat ∧ c.toNat ≤ 122 := by
  delta isVersionChar Char.isAlphanum Char.isAlpha Char.isUpper Char.isLower Char.isDigit at h
  simp only [Bool.or_eq_true, Bool.and_eq_true, decide_eq_true_eq] at h
  rcases h with ((((((((h | h) | h) | h) | h) | h) | h) | h) | h) | h
  all_goals first
    | (subst h; decide)
    | (have h1 := UInt32.le_iff_toNat_le.mp h.1
       have h2 := UInt32.le_iff_toNat_le.mp h.2
       simp at h1 h2
       omega)

/-- The code points of white space. -/
theorem patternSpace_bounds {c : Char} (h : isPatternSpace c) : c.toNat ≤ 32 ∨ 133 ≤ c.toNat := by
  simp only [isPatternSpace, Bool.or_eq_true, Bool.and_eq_true, decide_eq_true_eq, List.mem_cons,
    List.not_mem_nil, or_false] at h
  rcases h with h | h
  · rcases h with h | h | h | h | h | h | h | h | h | h | h | h | h | h <;> subst h <;> decide
  · have h1 := UInt32.le_iff_toNat_le.mp h.1
    simp at h1
    omega

/-- The gateway's versions have no spaces, so that only their length matters to the ledger. -/
theorem isVersion_of_gateway (version : GatewayVersion) :
    isVersion version.val ↔ version.val.length ≤ 128 := by
  obtain ⟨s, hs⟩ := version
  simp only [isGatewayVersion, Bool.and_eq_true, decide_eq_true_eq, List.all_eq_true] at hs
  obtain ⟨⟨hpos, -⟩, hchars⟩ := hs
  have hspace : s.toList.any (fun c => !isPatternSpace c) = true := by
    cases hl : s.toList with
    | nil =>
      have : s.length = 0 := by rw [← String.length_toList, hl, List.length_nil]
      omega
    | cons c cs =>
      have hc := versionChar_bounds (hchars c (by rw [hl]; exact List.mem_cons_self))
      have hnot : isPatternSpace c = false := by
        by_contra h
        have := patternSpace_bounds (Bool.not_eq_false _ ▸ h)
        omega
      simp [hnot]
  simp [isVersion, hspace]
  omega

/-- What is audited is a version of at most 128 characters and at most six attempts. -/
theorem audited_iff {version : GatewayVersion} {attempts : ℕ} :
    Audited version attempts ↔ version.val.length ≤ 128 ∧ attempts ≤ 6 := by
  have hversion := gatewayVersion_length version
  constructor
  · intro h
    obtain ⟨-, ⟨-, hlength⟩, -, hattempts, -⟩ := h.invocation .valid
    exact ⟨hlength, hattempts⟩
  · rintro ⟨hlength, hattempts⟩
    have hprompt : 1 ≤ (ExtractionAgent.promptVersion false).length ∧
        (ExtractionAgent.promptVersion false).length ≤ 128 := by decide
    refine ⟨fun status => ⟨hprompt, ⟨hversion.1, hlength⟩, by simp, hattempts, by simp, by simp⟩,
      fun _ _ => ⟨hversion, hattempts, by simp, by simp, by simp⟩, ?_⟩
    simp [Version.ofString?, (isVersion_of_gateway version).mpr hlength]

section

variable {T : Type} {settings : GatewaySettings} {policy : AliasPolicy} {context : RequestContext}
  {task : ModelAlias}

/-- What a call of a configured alias may end in. -/
theorem Reached.facts {outcome : Except CallError (GatewayResult T)}
    (halias : settings.aliases task = some policy) (h : Reached settings context task outcome) :
    (∀ result, outcome = .ok result →
      result.attempts ≤ attemptLimit settings (policy.routesFor context.sensitivity task) ∧
        (∃ route ∈ policy.routesFor context.sensitivity task,
          result.provenance.modelVersion = route.version) ∧
        result.provenance.promptVersion = context.promptVersion) ∧
    ∀ error, outcome = .error (.gateway error) →
      error.attempts ≤ attemptLimit settings (policy.routesFor context.sensitivity task) := by
  obtain ⟨W, host, time, hclock, client, world, call, hcall, rfl⟩ := h
  obtain ⟨ended, hscope, htraced, hpinned⟩ :=
    invokeCore_scope host context halias client world
  obtain ⟨hscope, hcall'⟩ := hscope _ le_rfl
  rw [hcall, Option.some.injEq] at hcall'
  have houtcome : call.outcome = (client.close host settings context task (host.clock world).1
      (settle ended.2.attempts ended.1) ended.2).1 := congrArg Invoked.outcome hcall'
  have hattempts := attempts_le hclock (hclock.clock_le_time world) hscope htraced
  constructor
  · intro result hresult
    rw [hresult] at houtcome
    obtain ⟨⟨before, route, remaining, timeout, response, -, hroute, hversion, -, -, -, hcount⟩,
      hprompt⟩ := hpinned result (settle_ok (close_ok houtcome.symm))
    refine ⟨?_, ⟨route, List.mem_of_getElem? hroute, hversion⟩, hprompt⟩
    rw [hcount, ← htraced.attempts]
    exact hattempts
  · intro error herror
    rw [herror] at houtcome
    rw [close_error houtcome.symm]
    exact hattempts

end

/-! ## A busy gateway -/

section

variable {T : Type} {answers : String → OperationEnd T} {settings : GatewaySettings}
  {policy : AliasPolicy} {last : Bool} {s : Attempting Unit T}

end

section

variable {answers : String → OperationEnd Unit} {settings : GatewaySettings} {policy : AliasPolicy}
  {context : RequestContext} {task : ModelAlias} {last : Bool} {s : Attempting Unit Unit}

end

/-! ## The agents on what fits -/

namespace ExtractionAgent

variable {E : Type} {policy : AliasPolicy} {repair : Bool} {calls : List ModelInvocation}
  {outcome first second : Except CallError (GatewayResult E)}

end ExtractionAgent

namespace TriageAgent

variable {host : Host} {policy : AliasPolicy} {request : TriageRequest host}
  {outcome : Except CallError (GatewayResult TriageDraft)}

end TriageAgent

/-! ## The audit of every outcome -/

/-- The settings under which what the gateway may end in fits the contracts. -/
structure FitsAudit (settings : GatewaySettings) (policy : AliasPolicy) (context : RequestContext)
    (task : ModelAlias) : Prop where
  policy_version : policy.modelVersion.val.length ≤ 128
  route_versions : ∀ route ∈ policy.routesFor context.sensitivity task,
    route.version.val.length ≤ 128
  attempts : (policy.routesFor context.sensitivity task).length = 2 →
    settings.maxAttempts ≤ if settings.requestTimeout < settings.totalTimeout then 3 else 5

/-- Only with two routes may a call exceed six attempts : beyond three each, or beyond five if one
request may take the whole time. -/
theorem attemptLimit_le_iff {settings : GatewaySettings} {routes : List Route}
    (hroutes : routes.length ≤ 2) : attemptLimit settings routes ≤ 6 ↔
      (routes.length = 2 → settings.maxAttempts ≤
        if settings.requestTimeout < settings.totalTimeout then 3 else 5) := by
  have hmax := settings.maxAttempts_le
  unfold attemptLimit
  by_cases hlength : routes.length < 2
  · simp only [if_pos hlength]
    omega
  · rw [if_neg hlength]
    by_cases hleft : settings.requestTimeout < settings.totalTimeout
    · rw [if_pos hleft, if_neg (not_le.mpr hleft)]
      omega
    · rw [if_neg hleft, if_pos (not_lt.mp hleft)]
      omega

/-- What a call came to is accepted if the settings fit the audit. -/
theorem Reached.accepts {T : Type} {settings : GatewaySettings} {policy : AliasPolicy}
    {context : RequestContext} {task : ModelAlias} {outcome : Except CallError (GatewayResult T)}
    (halias : settings.aliases task = some policy) (hfits : FitsAudit settings policy context task)
    (h : Reached settings context task outcome) : AuditAccepts policy outcome := by
  obtain ⟨hresult, herror⟩ := h.facts halias
  have hlimit := (attemptLimit_le_iff (policy.length_routesFor _ _)).mpr hfits.attempts
  cases outcome with
  | ok result =>
    obtain ⟨hattempts, ⟨route, hroute, hversion⟩, -⟩ := hresult result rfl
    exact audited_iff.mpr ⟨hversion ▸ hfits.route_versions route hroute, hattempts.trans hlimit⟩
  | error error =>
    cases error with
    | gateway error =>
      exact audited_iff.mpr ⟨hfits.policy_version, (herror error rfl).trans hlimit⟩
    | cancelled => trivial
    | other => trivial

end InvoiceOps
