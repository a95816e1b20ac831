import InvoiceOps.Budgets
import InvoiceOps.Loop

/-!
# The gateway client

`invokeCore` is one logical call : the attempts of the routes of its alias, with the delays between
them, until a route answers or the call fails. What is outside of it is a `GatewayHost`, on a world
of its own : the clocks, the guards that prepare a request, the request with the validation of its
response, the sleep, and the scope of the cassettes. The `while` of a route is a loop with fuel.

`GatewayCall.trace` has the routes that were tried, the operations and the sleeps, each with the
seconds that were left of the call when it began. `GatewayClient` has what the calls told the budget
tracker (`observed`) and the telemetry (`events`).
-/

open Loop (Turn)

namespace InvoiceOps

/-! ## Errors -/

/-- The errors of the gateway. -/
inductive GatewayErrorKind where
  | configuration | guardrailRejected | tokenBudgetExceeded | unavailable | deadlineExceeded
  | requestRejected | invalidResponse | invalidStructuredOutput | cassetteMismatch
  deriving DecidableEq, Repr

/-- The code of an error. -/
def GatewayErrorKind.code : GatewayErrorKind → String
  | configuration => "gateway_configuration"
  | guardrailRejected => "gateway_guardrail_rejected"
  | tokenBudgetExceeded => "gateway_budget_exceeded"
  | unavailable => "gateway_unavailable"
  | deadlineExceeded => "gateway_deadline_exceeded"
  | requestRejected => "gateway_request_rejected"
  | invalidResponse => "gateway_invalid_response"
  | invalidStructuredOutput => "gateway_invalid_structured_output"
  | cassetteMismatch => "gateway_cassette_mismatch"

/-- `GatewayError`, with the attempts that were made and what they cost. -/
structure GatewayError where
  kind : GatewayErrorKind
  attempts : ℕ := 0
  costUsd : Option Cost := none
  deriving DecidableEq

/-- What is raised in the `try` of a call, by the clause that catches it. A `timeout` is that of the
total deadline ; `invalid` are the errors of validation and of values. -/
inductive Raised where
  | gateway (error : GatewayError)
  | bodyTooLarge | cassetteMismatch | timeout | invalid | cancelled | other
  deriving DecidableEq

/-- What a call raises. -/
inductive CallError where
  | gateway (error : GatewayError)
  | cancelled
  | other
  deriving DecidableEq

/-! ## Retries -/

/-- The body of an error : the texts and the dictionaries of its JSON. -/
inductive ErrorBody where
  | text (s : String)
  | dict (fields : List (String × ErrorBody))
  | other

/-- The value of a key, if the body is a dictionary that has it. -/
def ErrorBody.get? : ErrorBody → String → Option ErrorBody
  | dict fields, key => (fields.find? fun f => f.1 = key).map Prod.snd
  | _, _ => none

/-- What `float` and `parsedate_to_datetime` read in a `Retry-After` header. -/
inductive RetryAfter where
  | seconds (seconds : ℚ)
  | notFinite
  | date (deadline : ℚ)
  | unreadable

/-- An error that the model's server answered with. -/
structure APIStatusError where
  statusCode : ℕ
  body : ErrorBody := .other
  retryAfter : Option RetryAfter := none

/-- An `APIConnectionError` or an `APIStatusError`. -/
inductive APIError where
  | connection
  | status (error : APIStatusError)

/-- `_NONRETRYABLE_CODES`. -/
def nonretryableCodes : List String :=
  ["insufficient_quota", "billing_hard_limit_reached", "billing_not_active", "account_deactivated",
    "invalid_api_key", "quota_exceeded", "budget_exceeded", "spend_limit_exceeded",
    "model_not_found", "context_length_exceeded"]

/-- Whether the `code` or the `type` of the error is one of `nonretryableCodes`. -/
def ErrorBody.nonretryable (body : ErrorBody) : Bool :=
  let nested := (body.get? "error").getD body
  ["code", "type"].any fun field =>
    match nested.get? field with
    | some (.text s) => s ∈ nonretryableCodes
    | _ => false

/-- `is_retryable`. -/
def isRetryable : APIError → Bool
  | .connection => true
  | .status error =>
    !error.body.nonretryable &&
      (error.statusCode = 408 || error.statusCode = 429 ||
        (500 ≤ error.statusCode && error.statusCode < 600))

/-- `retry_after`. -/
def retryAfter (error : APIStatusError) (now : ℚ) : Option ℚ :=
  match error.retryAfter with
  | some (.seconds seconds) => if seconds < 0 then none else some seconds
  | some (.date deadline) => if deadline - now < 0 then none else some (deadline - now)
  | _ => none

theorem retryAfter_nonneg {error : APIStatusError} {now seconds : ℚ}
    (h : retryAfter error now = some seconds) : 0 ≤ seconds := by
  unfold retryAfter at h
  split at h <;> simp at h
  · exact h.2 ▸ h.1
  · exact h.2 ▸ sub_nonneg.mpr h.1

/-! ## Operations -/

/-- A response of a model. -/
structure Response (T : Type) where
  value : T
  usage : TokenUsage
  model : String
  costUsd : Option Cost

/-- What an operation ends in. An error of the API may have been caused by a mismatch of a
cassette ; an operation that is not timed out but raises `timeout` ran into the total deadline. -/
inductive OperationEnd (T : Type) where
  | answered (response : Response T)
  | apiError (error : APIError) (mismatch : Bool)
  | timedOut
  | raised (error : Raised)

/-- Whether the operation failed with a retryable error of the API or with a timeout. -/
def OperationEnd.retryable {T : Type} : OperationEnd T → Bool
  | .apiError error mismatch => !mismatch && isRetryable error
  | .timedOut => true
  | _ => false

/-- A step of a call, on the route with the index. `remaining` is what was left of the total timeout
by the clock read before it. -/
inductive GatewayStep (T : Type) where
  | select (index : ℕ) (route : Route)
  | operation (index : ℕ) (route : Route) (remaining timeout : ℚ) (ended : OperationEnd T)
  | sleep (index : ℕ) (delay remaining : ℚ)

/-- What is outside of a call, on the world `W`. -/
structure GatewayHost (W T : Type) where
  clock : W → ℚ × W
  utcnow : W → ℚ × W
  /-- The entry of the scope of the cassettes. -/
  enter : W → Option Raised × W
  prepare : AliasPolicy → String → W → Option Raised × W
  operate : AliasPolicy → String → ℚ → W → OperationEnd T × W
  sleep : ℚ → W → Option Raised × W
  /-- The exit of that scope, with what was raised in it. -/
  leave : Option Raised → W → Option Raised × W

/-! ## The loop of a route -/

/-- The variables of a call. -/
structure GatewayCall (W T : Type) where
  world : W
  attempts : ℕ := 0
  selected : ℕ × Route
  response : Option (Response T) := none
  trace : List (GatewayStep T) := []

/-- The state of a call within a route, with the attempts made on it. -/
structure Attempting (W T : Type) extends GatewayCall W T where
  routeAttempts : ℕ

/-- How a route ends. -/
inductive RouteEnd (T : Type) where
  | answered (response : Response T)
  | exhausted
  | raised (error : Raised)

section

variable {W T : Type} (host : GatewayHost W T) (settings : GatewaySettings) (policy : AliasPolicy)
  (deadline : ℚ) (last : Bool)

/-- The delay after the attempt of a route with the number `routeAttempts`. -/
def retryDelay (routeAttempts : ℕ) (hint : Option ℚ) : ℚ :=
  hint.getD (min (settings.backoff * 2 ^ (routeAttempts - 1)) settings.maxRetryDelay)

namespace Attempting

/-- The clock, read by the call. -/
def now (s : Attempting W T) : ℚ :=
  (host.clock s.world).1

/-- The call after it read the clock. -/
def ticked (s : Attempting W T) : Attempting W T :=
  { s with world := (host.clock s.world).2 }

/-- The turn that ends with the error. -/
def fail (s : Attempting W T) (kind : GatewayErrorKind) (costUsd : Option Cost := none) :
    Turn (Attempting W T) (RouteEnd T × GatewayCall W T) :=
  .leave (.raised (.gateway ⟨kind, s.attempts, costUsd⟩), s.toGatewayCall)

/-- Sleep and try again, if the delay ends before the deadline. -/
def pause (s : Attempting W T) (delay : ℚ) : Turn (Attempting W T) (RouteEnd T × GatewayCall W T) :=
  let remaining := deadline - s.now host
  let s := s.ticked host
  if remaining ≤ delay then s.fail .deadlineExceeded
  else
    let slept := host.sleep delay s.world
    let s := { s with
      world := slept.2
      trace := s.trace ++ [GatewayStep.sleep s.selected.1 delay remaining] }
    match slept.1 with
    | none => .again s
    | some error => .leave (.raised error, s.toGatewayCall)

/-- What follows a failure that may be retried. -/
def retry (s : Attempting W T) (hint : Option ℚ) :
    Turn (Attempting W T) (RouteEnd T × GatewayCall W T) :=
  let delay := retryDelay settings s.routeAttempts hint
  if settings.maxAttempts ≤ s.routeAttempts then .leave (.exhausted, s.toGatewayCall)
  else if settings.maxRetryDelay < delay then .leave (.exhausted, s.toGatewayCall)
  else if last then s.pause host deadline delay
  else if deadline - s.now host ≤ settings.requestTimeout + delay then
    .leave (.exhausted, (s.ticked host).toGatewayCall)
  else (s.ticked host).pause host deadline delay

/-- What follows an operation. -/
def proceed (s : Attempting W T) : OperationEnd T →
    Turn (Attempting W T) (RouteEnd T × GatewayCall W T)
  | .answered response =>
    let s := { s with response := some response }
    if policy.inputTokenLimit < response.usage.inputTokens ∨
        policy.totalTokenLimit < response.usage.totalTokens then
      s.fail .tokenBudgetExceeded response.costUsd
    else .leave (.answered response, s.toGatewayCall)
  | .apiError error mismatch =>
    if mismatch then s.fail .cassetteMismatch
    else if !isRetryable error then s.fail .requestRejected
    else
      match error with
      | .connection => s.retry host settings deadline last none
      | .status error =>
        let utc := host.utcnow s.world
        { s with world := utc.2 }.retry host settings deadline last (retryAfter error utc.1)
  | .timedOut => s.retry host settings deadline last none
  | .raised .cassetteMismatch => s.fail .cassetteMismatch
  | .raised error => .leave (.raised error, s.toGatewayCall)

/-- A turn of the `while`. -/
def turn (s : Attempting W T) : Turn (Attempting W T) (RouteEnd T × GatewayCall W T) :=
  let remaining := deadline - s.now host
  let s := s.ticked host
  if remaining ≤ 0 then s.fail .deadlineExceeded
  else
    let timeout := min remaining settings.requestTimeout
    let ended := host.operate policy s.selected.2.name.val timeout s.world
    let s : Attempting W T := { s with
      world := ended.2
      attempts := s.attempts + 1
      routeAttempts := s.routeAttempts + 1
      trace := s.trace ++
        [GatewayStep.operation s.selected.1 s.selected.2 remaining timeout ended.1] }
    s.proceed host settings policy deadline last ended.1

end Attempting

/-! ## The routes -/

/-- The call on the route with the index. -/
def GatewayCall.select (c : GatewayCall W T) (index : ℕ) (route : Route)
    (world : W) : GatewayCall W T :=
  { c with
    world
    selected := (index, route)
    trace := c.trace ++ [GatewayStep.select index route] }

/-- The `for` over the routes, from the one with the index. -/
def tryRoutes (fuel : ℕ) : ℕ → List Route → GatewayCall W T → Option (RouteEnd T × GatewayCall W T)
  | _, [], c => some (.exhausted, c)
  | index, route :: rest, c =>
    let prepared := host.prepare policy route.name.val c.world
    let c := c.select index route prepared.2
    match prepared.1 with
    | some error => some (.raised error, c)
    | none =>
      match Loop.run (Attempting.turn host settings policy deadline rest.isEmpty) fuel
          ⟨c, 0⟩ with
      | none => none
      | some (.exhausted, c) => tryRoutes fuel (index + 1) rest c
      | some ended => some ended

/-- The result of an answer, if it is valid. -/
def gatewayResult (context : RequestContext) (task : ModelAlias) (response : Response T)
    (c : GatewayCall W T) (latencyMs : ℚ) : Except Raised (GatewayResult T) :=
  if h : isGatewayVersion response.model ∧ 0 ≤ latencyMs ∧ c.attempts ≠ 0 then
    .ok {
      value := response.value
      provenance := ⟨task, ⟨response.model, h.1⟩, c.selected.2.version, context.promptVersion⟩
      usage := response.usage
      attempts := c.attempts
      latencyMs
      costUsd := response.costUsd
      routeIndex := c.selected.1
      latencyMs_nonneg := h.2.1
      validate_cache_attempts := (decide_eq_false h.2.2).symm }
  else .error .invalid

/-- `latency_ms`, by the clock. -/
def latencyMs (started : ℚ) (world : W) : ℚ :=
  max 0 ((host.clock world).1 - started) * 1000

/-- What the scope of a call leaves, once its routes were tried. -/
def conclude (context : RequestContext) (task : ModelAlias) (started : ℚ) :
    RouteEnd T × GatewayCall W T → Except Raised (GatewayResult T) × GatewayCall W T
  | (.answered response, c) =>
    (gatewayResult context task response c (latencyMs host started c.world),
      { c with world := (host.clock c.world).2 })
  | (.exhausted, c) => (.error (.gateway ⟨.unavailable, c.attempts, none⟩), c)
  | (.raised error, c) => (.error error, c)

/-- The exit of the scope : what is raised there takes the place of what was. -/
def leaveScope (ended : Except Raised (GatewayResult T) × GatewayCall W T) :
    Except Raised (GatewayResult T) × GatewayCall W T :=
  let left := host.leave (match ended.1 with | .ok _ => none | .error error => some error)
    ended.2.world
  let c := { ended.2 with world := left.2 }
  match left.1 with
  | none => (ended.1, c)
  | some error => (.error error, c)

/-- The scope of a call. -/
def scope (fuel : ℕ) (context : RequestContext) (task : ModelAlias)
    (started : ℚ) (c : GatewayCall W T) :
    Option (Except Raised (GatewayResult T) × GatewayCall W T) :=
  let entered := host.enter c.world
  let c := { c with world := entered.2 }
  match entered.1 with
  | some error => some (.error error, c)
  | none =>
    (tryRoutes host settings policy (started + settings.totalTimeout) fuel 0
      (policy.routesFor context.sensitivity task) c).map fun ended =>
        leaveScope host (conclude host context task started ended)

end

/-! ## The call -/

/-- How a call ended, as its event says. -/
inductive CallStatus where
  | succeeded | failed | cancelled
  deriving DecidableEq, Repr

/-- The event of a call. -/
structure GatewayEvent where
  runId : Uuid
  «alias» : ModelAlias
  requestedModel : GatewayVersion
  model : Option String
  modelVersion : GatewayVersion
  status : CallStatus
  attempts : ℕ
  latencyMs : ℚ
  errorCode : Option String
  usage : Option TokenUsage
  costUsd : Option Cost
  routeIndex : ℕ
  observedRunCostUsd : Option Decimal
  budgetAlert : Bool

/-- The state of a client, with the calls of `observe` and of `record`. -/
structure GatewayClient where
  budgets : BudgetAlertTracker := {}
  observed : List (Uuid × Option Cost) := []
  events : List GatewayEvent := []

/-- What a call ends in, before it is accounted for. `observes` is what the budget tracker is
given. -/
structure Settlement (T : Type) where
  outcome : Except CallError (GatewayResult T)
  status : CallStatus := .failed
  errorCode : Option String := none
  failedCallCostUsd : Option Cost := none
  observes : Option (Option Cost) := none

/-- The clauses of the `try`. -/
def settle {T : Type} (attempts : ℕ) : Except Raised (GatewayResult T) → Settlement T
  | .ok result => { outcome := .ok result, status := .succeeded, observes := some result.costUsd }
  | .error .bodyTooLarge => fails .tokenBudgetExceeded
  | .error .cassetteMismatch => fails .cassetteMismatch
  | .error .timeout => fails .deadlineExceeded
  | .error .invalid => fails .invalidResponse
  | .error (.gateway error) =>
    { outcome := .error (.gateway { error with attempts })
      errorCode := some error.kind.code
      failedCallCostUsd := error.costUsd
      observes := error.costUsd.map some }
  | .error .cancelled => { outcome := .error .cancelled, status := .cancelled }
  | .error .other => { outcome := .error .other }
where
  fails (kind : GatewayErrorKind) : Settlement T :=
    { outcome := .error (.gateway ⟨kind, attempts, none⟩), errorCode := some kind.code }

/-- What a call came to. -/
structure Invoked (W T : Type) where
  outcome : Except CallError (GatewayResult T)
  client : GatewayClient
  trace : List (GatewayStep T)
  world : W

namespace GatewayClient

/-- `_budgets.observe`. -/
def observe (settings : GatewaySettings) (client : GatewayClient) (runId : Uuid)
    (costUsd : Option Cost) : Except Decimal.Signal (Option Decimal × Bool) × GatewayClient :=
  let client := { client with observed := client.observed ++ [(runId, costUsd)] }
  match client.budgets.observe settings.budgetAlertUsd runId costUsd with
  | .ok (total, budgets) => (.ok total, { client with budgets })
  | .error signal => (.error signal, client)

section

variable {W T : Type} (host : GatewayHost W T) (settings : GatewaySettings)

/-- `_telemetry.record`, in the `finally` of a call. -/
def record (client : GatewayClient) (context : RequestContext) (task : ModelAlias) (started : ℚ)
    (s : Settlement T) (c : GatewayCall W T) (total : Option Decimal × Bool) : GatewayClient :=
  { client with
    events := client.events ++ [{
      runId := context.runId
      «alias» := task
      requestedModel := c.selected.2.name
      model := if s.status = .succeeded then c.response.map Response.model else none
      modelVersion := c.selected.2.version
      status := s.status
      attempts := c.attempts
      latencyMs := latencyMs host started c.world
      errorCode := s.errorCode
      usage := c.response.map Response.usage
      costUsd := (c.response.map Response.costUsd).getD s.failedCallCostUsd
      routeIndex := c.selected.1
      observedRunCostUsd := total.1
      budgetAlert := total.2 }] }

/-- The end of a call : the cost is observed and the event recorded. -/
def close (client : GatewayClient) (context : RequestContext) (task : ModelAlias) (started : ℚ)
    (s : Settlement T) (c : GatewayCall W T) : Except CallError (GatewayResult T) × GatewayClient :=
  match s.observes with
  | none => (s.outcome, client.record host context task started s c (none, false))
  | some costUsd =>
    let observed := client.observe settings context.runId costUsd
    match observed.1 with
    | .ok total => (s.outcome, observed.2.record host context task started s c total)
    | .error _ => (.error .other, observed.2.record host context task started s c (none, false))

/-- `configured_policy`. -/
def configuredPolicy (task : ModelAlias) : Except CallError AliasPolicy :=
  match settings.aliases task with
  | none => .error (.gateway ⟨.configuration, 0, none⟩)
  | some policy => .ok policy

/-- `_invoke_core`. -/
def invokeCore (fuel : ℕ) (client : GatewayClient) (context : RequestContext) (task : ModelAlias)
    (world : W) : Option (Invoked W T) :=
  match configuredPolicy settings task with
  | .error error => some { outcome := .error error, client, trace := [], world }
  | .ok policy =>
    let read := host.clock world
    let c : GatewayCall W T :=
      { world := read.2, selected := (0, policy.primary context.sensitivity task) }
    (scope host settings policy fuel context task read.1 c).map fun ended =>
      let closed := client.close host settings context task read.1
        (settle ended.2.attempts ended.1) ended.2
      { outcome := closed.1
        client := closed.2
        trace := ended.2.trace
        world := (host.clock ended.2.world).2 }

end

end GatewayClient

end InvoiceOps
