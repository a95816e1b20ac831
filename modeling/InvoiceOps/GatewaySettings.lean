import InvoiceOps.Decimal
import InvoiceOps.Values

/-!
# The settings and schemas of the gateway

`GatewaySettings` has a policy for some of the aliases, and bounds for the attempts and the times
of a call, in seconds. `AliasPolicy.routesFor` are the routes of a call : the primary one and, where
the policy names another model for the sensitivity of the data, the fallback. Each route is the name
a model is requested by and the version an answer is pinned to.
-/

namespace InvoiceOps

/-! ## Schemas -/

/-- The tasks a model is called for. -/
inductive ModelAlias where
  | extractVision | triageReasoner | evalJudge | embed
  deriving DecidableEq, Repr

/-- The name of a task. -/
def ModelAlias.name : ModelAlias → String
  | extractVision => "extract-vision"
  | triageReasoner => "triage-reasoner"
  | evalJudge => "eval-judge"
  | embed => "embed"

/-- Who may see the input of a call. -/
inductive DataSensitivity where
  | restricted | «public»
  deriving DecidableEq, Repr

/-- `[A-Za-z0-9_.:@/+\-]`. -/
def isVersionChar (c : Char) : Bool :=
  c.isAlphanum || c = '_' || c = '.' || c = ':' || c = '@' || c = '/' || c = '+' || c = '-'

/-- The gateway's `Version` : 1 to 160 characters of a name. -/
def isGatewayVersion (s : String) : Bool :=
  1 ≤ s.length && s.length ≤ 160 && s.toList.all isVersionChar

/-- A version the gateway accepts. -/
abbrev GatewayVersion := { s : String // isGatewayVersion s }

theorem gatewayVersion_length (version : GatewayVersion) :
    1 ≤ version.val.length ∧ version.val.length ≤ 160 := by
  have h := version.property
  simp only [isGatewayVersion, Bool.and_eq_true, decide_eq_true_eq] at h
  exact h.1

/-- The name a task's model is requested by, if its policy gives none. -/
def ModelAlias.version (task : ModelAlias) : GatewayVersion :=
  ⟨task.name, by cases task <;> decide⟩

/-- What a call is made for. -/
structure RequestContext where
  runId : Uuid
  traceId : String
  promptVersion : GatewayVersion
  scenario : String
  sensitivity : DataSensitivity

/-- The tokens of a call, which add up. -/
structure TokenUsage where
  inputTokens : ℕ
  outputTokens : ℕ
  totalTokens : ℕ
  validate_total : totalTokens = inputTokens + outputTokens
  deriving DecidableEq

/-- No tokens. -/
def TokenUsage.zero : TokenUsage := ⟨0, 0, 0, rfl⟩

/-- What a result was made by. -/
structure GatewayProvenance where
  «alias» : ModelAlias
  model : GatewayVersion
  modelVersion : GatewayVersion
  promptVersion : GatewayVersion
  deriving DecidableEq

/-- A finite cost, which is not negative. -/
abbrev Cost := { cost : Decimal // 0 ≤ cost.value }

/-- The result of a call. -/
structure GatewayResult (T : Type) where
  value : T
  provenance : GatewayProvenance
  usage : TokenUsage
  attempts : ℕ
  latencyMs : ℚ
  costUsd : Option Cost := none
  cacheHit : Bool := false
  routeIndex : ℕ := 0
  latencyMs_nonneg : 0 ≤ latencyMs
  validate_cache_attempts : cacheHit = decide (attempts = 0)

/-! ## Policies -/

/-- A name a model is requested by, with the version of its answers. -/
structure Route where
  name : GatewayVersion
  version : GatewayVersion
  deriving DecidableEq

/-- The models of a task, and the limits of its tokens. -/
structure AliasPolicy where
  modelVersion : GatewayVersion
  modelName : Option GatewayVersion := none
  publicModelName : Option GatewayVersion := none
  fallbackModelName : Option GatewayVersion := none
  publicFallbackModelName : Option GatewayVersion := none
  inputTokenLimit : ℕ := 32768
  outputTokenLimit : ℕ := 4096
  totalTokenLimit : ℕ := 36864
  input_pos : 0 < inputTokenLimit
  output_pos : 0 < outputTokenLimit
  /-- `validate_limits`. -/
  validate_limits : outputTokenLimit < totalTokenLimit

namespace AliasPolicy

variable (policy : AliasPolicy)

/-- The first route of `routes_for`. -/
def primary (sensitivity : DataSensitivity) (task : ModelAlias) : Route :=
  match sensitivity, policy.publicModelName with
  | .public, some model => ⟨model, model⟩
  | _, _ => ⟨policy.modelName.getD task.version, policy.modelVersion⟩

/-- The model that `routes_for` falls back on. -/
def fallback (sensitivity : DataSensitivity) : Option GatewayVersion :=
  match sensitivity with
  | .public => policy.publicFallbackModelName.or policy.fallbackModelName
  | .restricted => policy.fallbackModelName

/-- `routes_for`. -/
def routesFor (sensitivity : DataSensitivity) (task : ModelAlias) : List Route :=
  let primary := policy.primary sensitivity task
  match policy.fallback sensitivity with
  | none => [primary]
  | some model => if model = primary.name then [primary] else [primary, ⟨model, model⟩]

variable (sensitivity : DataSensitivity) (task : ModelAlias)

theorem routesFor_cons : ∃ rest, policy.routesFor sensitivity task =
    policy.primary sensitivity task :: rest := by
  unfold routesFor
  cases policy.fallback sensitivity with
  | none => exact ⟨_, rfl⟩
  | some model =>
    by_cases h : model = (policy.primary sensitivity task).name
    · exact ⟨[], by simp [h]⟩
    · exact ⟨[⟨model, model⟩], by simp [h]⟩

theorem length_routesFor : (policy.routesFor sensitivity task).length ≤ 2 := by
  unfold routesFor
  cases policy.fallback sensitivity with
  | none => simp
  | some model => by_cases h : model = (policy.primary sensitivity task).name <;> simp [h]

variable {policy} {sensitivity} {task}

theorem mem_routesFor {route : Route} : route ∈ policy.routesFor sensitivity task ↔
    route = policy.primary sensitivity task ∨
      ∃ model, policy.fallback sensitivity = some model ∧
        model ≠ (policy.primary sensitivity task).name ∧ route = ⟨model, model⟩ := by
  unfold routesFor
  cases policy.fallback sensitivity with
  | none => simp
  | some model => by_cases h : model = (policy.primary sensitivity task).name <;> simp [h]

/-- A restricted call is routed to the model of the policy, or to its alias, and to the restricted
fallback. -/
theorem restricted_route {route : Route} (h : route ∈ policy.routesFor .restricted task) :
    route.name = policy.modelName.getD task.version ∨
      some route.name = policy.fallbackModelName := by
  rcases mem_routesFor.mp h with rfl | ⟨model, hm, -, rfl⟩
  · exact Or.inl rfl
  · exact Or.inr hm.symm

end AliasPolicy

/-! ## Settings -/

/-- `GatewaySettings`, within its bounds. -/
structure GatewaySettings where
  aliases : ModelAlias → Option AliasPolicy
  requestTimeout : ℚ := 40
  totalTimeout : ℚ := 120
  maxAttempts : ℕ := 3
  backoff : ℚ := 1 / 2
  maxRetryDelay : ℚ := 10
  budgetAlertUsd : Decimal := ⟨false, 4, -2⟩
  aliases_nonempty : ∃ task, aliases task ≠ none
  requestTimeout_pos : 0 < requestTimeout
  requestTimeout_le : requestTimeout ≤ 300
  totalTimeout_pos : 0 < totalTimeout
  totalTimeout_le : totalTimeout ≤ 600
  maxAttempts_pos : 1 ≤ maxAttempts
  maxAttempts_le : maxAttempts ≤ 6
  backoff_nonneg : 0 ≤ backoff
  backoff_le : backoff ≤ 30
  maxRetryDelay_pos : 0 < maxRetryDelay
  maxRetryDelay_le : maxRetryDelay ≤ 120
  budgetAlertUsd_pos : 0 < budgetAlertUsd.value

end InvoiceOps
