import InvoiceOps.GatewayFallback

/-!
# The cost of a call

The operations of `complete` and of `embed`. The cost of a response is read from its headers before
its body (`cost`), and what the body comes to, whatever it cost, is its `Verdict`. `Doorway` is what
is outside of a call, with the answers of the upstream, and `Doorway.host` the host of the calls
that are made through it.

A response ends its call. Its cost is kept unless its content was accepted and then the usage or the
model it names is not valid (`Verdict.Accountable`) : these are the errors that have no cost.
-/

namespace InvoiceOps

/-! ## Headers -/

/-- What `Decimal` reads in the text of a header. -/
inductive CostText where
  | finite (d : Decimal)
  | notFinite
  | unreadable
  deriving DecidableEq

/-- The cost headers of a response. -/
structure CostHeaders where
  responseCost : Option CostText := none
  original : Option CostText := none
  discountAmount : Option CostText := none
  marginAmount : Option CostText := none
  deriving DecidableEq

/-- The clauses that catch the errors of a sum. -/
instance Raised.arithmetic : Decimal.Arithmetic Raised :=
  letI : Decimal.OfSignal Raised := ⟨fun
    | .invalidOperation => .invalid
    | .overflow => .other⟩
  BudgetAlertTracker.context.arithmetic Raised

/-- A sum of what is not finite is not finite, or no sum. -/
def CostText.amount : CostText → Except Raised Decimal
  | .finite d => .ok d
  | .notFinite | .unreadable => .error .invalid

/-- The amount the headers name. -/
def CostHeaders.amount (headers : CostHeaders) : Except Raised (Option Decimal) :=
  match headers.responseCost with
  | some value => value.amount.map some
  | none =>
    match headers.original, headers.discountAmount, headers.marginAmount with
    | some original, some discount, some margin => do
      let rest ← Decimal.Arithmetic.sub (← original.amount) (← discount.amount)
      some <$> Decimal.Arithmetic.add rest (← margin.amount)
    | _, _, _ => .ok none

/-- `_cost`. -/
def cost (headers : CostHeaders) : Except Raised (Option Cost) := do
  match ← headers.amount with
  | none => return none
  | some d => if h : 0 ≤ d.value then return some ⟨d, h⟩ else throw .invalid

/-! ## Bodies -/

/-- What a body comes to. The usage of one that is `misreported` is not valid. -/
inductive Verdict (T : Type) where
  | rejected (kind : GatewayErrorKind)
  | misreported
  | accepted (value : T) (usage : TokenUsage) (model : String)

/-- The tokens add up as natural numbers too. -/
theorem TokenUsage.toNat_total {input output total : ℤ}
    (h : (0 ≤ input ∧ 0 ≤ output ∧ 0 ≤ total) ∧ total = input + output) :
    total.toNat = input.toNat + output.toNat := by
  omega

/-- `TokenUsage`, of what a body names. -/
def TokenUsage.validate (input output total : ℤ) : Option TokenUsage :=
  if h : (0 ≤ input ∧ 0 ≤ output ∧ 0 ≤ total) ∧ total = input + output then
    some ⟨input.toNat, output.toNat, total.toNat, TokenUsage.toNat_total h⟩
  else none

/-- The message of a choice. -/
structure ChatMessage where
  content : Option String
  refusal : Option String := none
  toolCalls : List String := []
  functionCall : Option String := none
  deriving DecidableEq

/-- A choice of a completion. -/
structure ChatChoice where
  finishReason : String
  message : ChatMessage
  deriving DecidableEq

/-- The usage a completion reports, as it is reported. -/
structure CompletionUsage where
  promptTokens : ℤ
  completionTokens : ℤ
  totalTokens : ℤ
  deriving DecidableEq

/-- The body of a completion. -/
structure ChatCompletion where
  choices : List ChatChoice
  usage : Option CompletionUsage
  model : String
  deriving DecidableEq

/-- The content of a choice that ended on its own, without a refusal or a call. -/
def ChatChoice.content? (choice : ChatChoice) : Option String :=
  if choice.finishReason ≠ "stop" ∨ choice.message.refusal.getD "" ≠ "" ∨
      choice.message.toolCalls ≠ [] ∨ choice.message.functionCall.isSome then none
  else choice.message.content.filter fun content => content ≠ ""

section

variable {T : Type}

/-- What `complete` makes of a body, if it can be parsed. -/
def judgeCompletion (validate : String → Option T) (outputTokens : ℕ) :
    Option ChatCompletion → Verdict T
  | none => .rejected .invalidResponse
  | some completion =>
    match completion.choices, completion.usage with
    | [choice], some usage =>
      match choice.content? with
      | none => .rejected .invalidResponse
      | some content =>
        match validate content with
        | none => .rejected .invalidStructuredOutput
        | some value =>
          match TokenUsage.validate usage.promptTokens usage.completionTokens usage.totalTokens with
          | none => .misreported
          | some usage =>
            if outputTokens < usage.outputTokens then .rejected .tokenBudgetExceeded
            else .accepted value usage completion.model
    | _, _ => .rejected .invalidResponse

/-- A vector of an embedding, with the index of its input. -/
structure EmbeddingItem (C : Type) where
  index : ℤ
  embedding : List C

/-- The body of an embedding. -/
structure EmbeddingCompletion (C : Type) where
  data : List (EmbeddingItem C)
  promptTokens : ℤ
  totalTokens : ℤ
  model : String

/-- What `embed` makes of a body, if it can be parsed : one vector for each input, all of one
length. -/
def judgeEmbedding {C : Type} (isFinite : C → Bool) (inputs : ℕ) :
    Option (EmbeddingCompletion C) → Verdict (List (List C))
  | none => .rejected .invalidResponse
  | some completion =>
    let ordered := completion.data.mergeSort fun a b => a.index ≤ b.index
    let vectors := ordered.map EmbeddingItem.embedding
    let width := (vectors.head?.map List.length).getD 0
    if ordered.map EmbeddingItem.index ≠ (List.range inputs).map Int.ofNat ∨ width = 0 ∨
        (vectors.any fun vector => vector.length ≠ width) ∨
        (vectors.any fun vector => vector.any fun value => !isFinite value) then
      .rejected .invalidResponse
    else
      match TokenUsage.validate completion.promptTokens 0 completion.totalTokens with
      | none => .misreported
      | some usage => .accepted vectors usage completion.model

/-! ## Operations -/

/-- What a request comes to. A body is there if it can be parsed. -/
inductive Upstream (R : Type) where
  | responded (headers : CostHeaders) (body : Option R)
  | apiError (error : APIError) (mismatch : Bool)
  | timedOut
  | raised (error : Raised)

variable {W R : Type} (judge : Option R → Verdict T)

/-- What the operation ends in, at this cost. -/
def Verdict.ended (costUsd : Option Cost) : Verdict T → OperationEnd T
  | .rejected kind => .raised (.gateway ⟨kind, 0, costUsd⟩)
  | .misreported => .raised .invalid
  | .accepted value usage model => .answered ⟨value, usage, model, costUsd⟩

/-- `operation`. -/
def Upstream.operation : Upstream R → OperationEnd T
  | .responded headers body =>
    match cost headers with
    | .error error => .raised error
    | .ok costUsd => (judge body).ended costUsd
  | .apiError error mismatch => .apiError error mismatch
  | .timedOut => .timedOut
  | .raised error => .raised error

/-- What is outside of a call, on the world `W`, but for what is made of a response. -/
structure Doorway (W R : Type) where
  clock : W → ℚ × W
  utcnow : W → ℚ × W
  enter : W → Option Raised × W
  prepare : AliasPolicy → String → W → Option Raised × W
  request : AliasPolicy → String → ℚ → W → Upstream R × W
  sleep : ℚ → W → Option Raised × W
  leave : Option Raised → W → Option Raised × W

/-- The host of a call, which keeps what its requests came to. -/
def Doorway.host (doorway : Doorway W R) : GatewayHost (W × List (Upstream R)) T where
  clock w := (doorway.clock w.1).map id (·, w.2)
  utcnow w := (doorway.utcnow w.1).map id (·, w.2)
  enter w := (doorway.enter w.1).map id (·, w.2)
  prepare policy name w := (doorway.prepare policy name w.1).map id (·, w.2)
  operate policy name timeout w :=
    (doorway.request policy name timeout w.1).map (Upstream.operation judge)
      (·, w.2 ++ [(doorway.request policy name timeout w.1).1])
  sleep delay w := (doorway.sleep delay w.1).map id (·, w.2)
  leave error w := (doorway.leave error w.1).map id (·, w.2)

/-! ## What is kept -/

/-- The headers and the body of an answer, if there was one. -/
def Upstream.response? : Upstream R → Option (CostHeaders × Option R)
  | .responded headers body => some (headers, body)
  | _ => none

/-- The model's server answered. -/
def Upstream.isResponse (answer : Upstream R) : Bool :=
  answer.response?.isSome

/-- The cost of the body reaches the end of its call : it was rejected before its usage was read, or
its usage is valid, and then it exceeds a limit or its model is named by a version. -/
def Verdict.Accountable (policy : AliasPolicy) : Verdict T → Prop
  | .rejected _ => True
  | .misreported => False
  | .accepted _ usage model =>
    (policy.inputTokenLimit < usage.inputTokens ∨ policy.totalTokenLimit < usage.totalTokens) ∨
      isGatewayVersion model

/-- The cost that the `try` of a call ends with. -/
def spent : Except Raised (GatewayResult T) → Option Cost
  | .ok result => result.costUsd
  | .error (.gateway error) => error.costUsd
  | .error _ => none

/-- The cost that a call tells its caller. -/
def callCost : Except CallError (GatewayResult T) → Option Cost
  | .ok result => result.costUsd
  | .error (.gateway error) => error.costUsd
  | .error _ => none

/-- The caller and, once, the budget tracker are told the cost. -/
def Retained (client : GatewayClient) (runId : Uuid) (call : Invoked W T) (costUsd : Cost) : Prop :=
  callCost call.outcome = some costUsd ∧
    call.client.observed = client.observed ++ [(runId, some costUsd)]

/-- The requests before the last one came to no response, and the last one to the operation that
ended. -/
def LastOf (ended : OperationEnd T) (answers : List (Upstream R)) : Prop :=
  ∃ earlier last, answers = earlier ++ [last] ∧ (∀ u ∈ earlier, u.isResponse = false) ∧
    ended = last.operation judge

variable {judge} {doorway : Doorway W R} {settings : GatewaySettings} {policy : AliasPolicy}

/-- A response is not tried again. -/
theorem Upstream.isResponse_of_retryable {answer : Upstream R}
    (h : (answer.operation judge).retryable) : answer.isResponse = false := by
  cases answer with
  | responded headers body =>
    simp only [operation] at h
    split at h
    · simp [OperationEnd.retryable] at h
    · cases hbody : judge body <;> simp [hbody, Verdict.ended, OperationEnd.retryable] at h
  | apiError error mismatch => rfl
  | timedOut => rfl
  | raised error => rfl

/-- Until a request comes to a response, the call may go on. -/
theorem Doorway.worldInvariant :
    WorldInvariant (doorway.host judge) (fun w => ∀ u ∈ w.2, u.isResponse = false)
      (fun ended w => LastOf judge ended w.2) where
  clock _ h := h
  utcnow _ h := h
  enter _ h := h
  prepare _ _ _ h := h
  sleep _ _ h := h
  operate policy name timeout w h := by
    split
    · rename_i hretry
      have hlast := Upstream.isResponse_of_retryable hretry
      intro u hu
      rcases List.mem_append.mp hu with hu | hu
      · exact h u hu
      · exact List.mem_singleton.mp hu ▸ hlast
    · exact ⟨w.2, _, rfl, h, rfl⟩

/-- A call ends with the cost of its response if that can be accounted for. -/
theorem spent_iff {context : RequestContext} {task : ModelAlias} {started : ℚ}
    {headers : CostHeaders} {body : Option R} {costUsd : Cost}
    (hcost : cost headers = .ok (some costUsd))
    {left : RouteEnd T × GatewayCall (W × List (Upstream R)) T} (hattempts : 0 < left.2.attempts)
    (hleft : left.1 =
      ((Upstream.responded headers body).operation judge).settled policy left.2.attempts) :
    spent (conclude (doorway.host judge) context task started left).1 = some costUsd ↔
      (judge body).Accountable policy := by
  obtain ⟨ended, c⟩ := left
  simp only [Upstream.operation, hcost] at hleft
  subst hleft
  cases judge body with
  | rejected kind =>
    simp [Verdict.ended, OperationEnd.settled, conclude, spent, Verdict.Accountable]
  | misreported => simp [Verdict.ended, OperationEnd.settled, conclude, spent, Verdict.Accountable]
  | accepted value usage model =>
    by_cases hlimit : policy.inputTokenLimit < usage.inputTokens ∨
        policy.totalTokenLimit < usage.totalTokens
    · simp [Verdict.ended, OperationEnd.settled, hlimit, conclude, spent, Verdict.Accountable]
    · have hlatency : 0 ≤ latencyMs (doorway.host judge) started c.world := by
        unfold latencyMs
        positivity
      have hne : c.attempts ≠ 0 := hattempts.ne'
      by_cases hmodel : isGatewayVersion model
      · simp [Verdict.ended, OperationEnd.settled, hlimit, conclude, spent, Verdict.Accountable,
          gatewayResult, hlatency, hne, hmodel]
      · simp [Verdict.ended, OperationEnd.settled, hlimit, conclude, spent, Verdict.Accountable,
          gatewayResult, hmodel]

/-- What a call tells the tracker it tells its caller. -/
theorem settle_spent (attempts : ℕ) (tried : Except Raised (GatewayResult T)) :
    (settle attempts tried).observes = none ∧ spent tried = none ∨
      (settle attempts tried).observes = some (spent tried) ∧
        callCost (settle attempts tried).outcome = spent tried := by
  cases tried with
  | ok result => exact Or.inr ⟨rfl, rfl⟩
  | error raised =>
    cases raised with
    | gateway error =>
      cases hcost : error.costUsd with
      | none => exact Or.inl ⟨by simp [settle, hcost], hcost⟩
      | some costUsd => exact Or.inr ⟨by simp [settle, hcost, spent], rfl⟩
    | _ => exact Or.inl ⟨rfl, rfl⟩

/-- One observation, of the run and its cost. -/
theorem observe_spec (client : GatewayClient) (runId : Uuid) (costUsd : Option Cost) :
    (client.observe settings runId costUsd).2.observed = client.observed ++ [(runId, costUsd)] ∧
      (client.observe settings runId costUsd).1 =
        (client.budgets.observe settings.budgetAlertUsd runId costUsd).map Prod.fst := by
  unfold GatewayClient.observe
  dsimp only
  split <;> rename_i hobserve <;> exact ⟨rfl, by rw [hobserve]; rfl⟩

/-- What the call of `close` came to. -/
def GatewayClient.closed (host : GatewayHost W T) (settings : GatewaySettings)
    (client : GatewayClient) (context : RequestContext) (task : ModelAlias) (started : ℚ)
    (ended : Except Raised (GatewayResult T) × GatewayCall W T) : Invoked W T :=
  let closed := client.close host settings context task started
    (settle ended.2.attempts ended.1) ended.2
  { outcome := closed.1
    client := closed.2
    trace := ended.2.trace
    world := (host.clock ended.2.world).2 }

/-- A call tells the cost it ended with, if the tracker can add it. -/
theorem retained_iff {host : GatewayHost W T} {client : GatewayClient} {context : RequestContext}
    {task : ModelAlias} {started : ℚ} {costUsd : Cost}
    (ended : Except Raised (GatewayResult T) × GatewayCall W T) :
    Retained client context.runId (client.closed host settings context task started ended) costUsd ↔
      spent ended.1 = some costUsd ∧
        ∃ told, client.budgets.observe (ε := Decimal.Signal) settings.budgetAlertUsd context.runId
          (some costUsd) = .ok told := by
  unfold Retained GatewayClient.closed GatewayClient.close
  rcases settle_spent ended.2.attempts ended.1 with ⟨hobserves, hspent⟩ | ⟨hobserves, hcaller⟩
  · simp [hobserves, hspent, GatewayClient.record]
  obtain ⟨hobserved, htold⟩ := @observe_spec settings client context.runId (spent ended.1)
  simp only [hobserves, htold]
  by_cases hspent : spent ended.1 = some costUsd
  · rw [hspent] at hobserved hcaller ⊢
    cases client.budgets.observe (ε := Decimal.Signal) settings.budgetAlertUsd context.runId
        (some costUsd) with
    | ok told => simp [Except.map, GatewayClient.record, hobserved, hcaller]
    | error signal => simp [Except.map, callCost]
  · have hother : ¬client.observed ++ [(context.runId, spent ended.1)] =
        client.observed ++ [(context.runId, some costUsd)] := by
      simpa using hspent
    cases client.budgets.observe (ε := Decimal.Signal) settings.budgetAlertUsd context.runId
        (spent ended.1) <;>
      simp [Except.map, GatewayClient.record, hobserved, hother, hspent]

/-- What the scope of a call leaves, if its exit raises nothing : no request came to a response, or
the call ends as its last operation did. -/
theorem scope_left (hquiet : ∀ error w, (doorway.leave error w).1 = none) {context : RequestContext}
    {task : ModelAlias} {started : ℚ} {fuel : ℕ} {c : GatewayCall (W × List (Upstream R)) T}
    {ended : Except Raised (GatewayResult T) × GatewayCall (W × List (Upstream R)) T}
    (hc : ∀ u ∈ c.world.2, u.isResponse = false)
    (h : scope (doorway.host judge) settings policy fuel context task started c = some ended) :
    (∀ u ∈ ended.2.world.2, u.isResponse = false) ∨
      ∃ last left, LastOf judge last ended.2.world.2 ∧ 0 < left.2.attempts ∧
        left.1 = last.settled policy left.2.attempts ∧
        ended.1 = (conclude (doorway.host judge) context task started left).1 := by
  have hleave (error : Option Raised) (w : W × List (Upstream R)) :
      ((doorway.host judge).leave error w).1 = none := hquiet error w.1
  unfold scope at h
  dsimp only at h
  split at h
  · obtain rfl := Option.some.inj h
    exact Or.inl hc
  · obtain ⟨left, htry, rfl⟩ := Option.map_eq_some_iff.mp h
    have hworld : (leaveScope (doorway.host judge)
        (conclude (doorway.host judge) context task started left)).2.world.2 = left.2.world.2 := by
      unfold leaveScope
      simp only [hleave]
      obtain ⟨_ | _ | _, c'⟩ := left <;> rfl
    have hended : (leaveScope (doorway.host judge)
        (conclude (doorway.host judge) context task started left)).1 =
          (conclude (doorway.host judge) context task started left).1 := by
      unfold leaveScope
      simp only [hleave]
    rw [hworld, hended]
    have hentered : ∀ u ∈ ((doorway.host (T := T) judge).enter c.world).2.2, u.isResponse = false :=
      hc
    have hleft := Doorway.worldInvariant.tryRoutes_holds (c := { c with
      world := ((doorway.host judge).enter c.world).2 }) hentered htry
    rcases hleft with ⟨hnone, -⟩ | ⟨last, -, hlast, hattempts, hleft⟩
    · exact Or.inl hnone
    · exact Or.inr ⟨last, left, hlast, hattempts, hleft, rfl⟩

variable (doorway judge settings policy) in
/-- Of a call through the doorway : a response ends it, and its cost is kept exactly if the body can
be accounted for and the tracker can add it. -/
def CostKept (client : GatewayClient) (context : RequestContext) (task : ModelAlias) (world : W) :
    Prop :=
  ∃ call : Invoked (W × List (Upstream R)) T, (∀ fuel, settings.maxAttempts ≤ fuel →
      client.invokeCore (doorway.host judge) settings fuel context task (world, []) = some call) ∧
    ∀ headers body, Upstream.responded headers body ∈ call.world.2 →
      (∃ earlier, call.world.2 = earlier ++ [Upstream.responded headers body] ∧
        ∀ u ∈ earlier, u.isResponse = false) ∧
      ∀ costUsd, cost headers = .ok (some costUsd) →
        (Retained client context.runId call costUsd ↔
          (judge body).Accountable policy ∧
            ∃ told, client.budgets.observe (ε := Decimal.Signal) settings.budgetAlertUsd
              context.runId (some costUsd) = .ok told)

/-- The cost of a call is kept wherever leaving the cassettes does not fail. -/
theorem costKept (hquiet : ∀ error w, (doorway.leave error w).1 = none) {task : ModelAlias}
    (halias : settings.aliases task = some policy) (client : GatewayClient)
    (context : RequestContext) (world : W) :
    CostKept judge doorway settings policy client context task world := by
  obtain ⟨ended, hcall, -, -⟩ :=
    invokeCore_scope (doorway.host judge) context halias client (world, [])
  refine ⟨client.closed (doorway.host judge) settings context task _ ended,
    fun fuel hfuel => (hcall fuel hfuel).2, fun headers body hmem => ?_⟩
  have hmem : .responded headers body ∈ ended.2.world.2 := hmem
  rcases scope_left hquiet (by simp [Doorway.host]) (hcall _ le_rfl).1
    with hnone | ⟨last, left, ⟨earlier, answer, hworld, hearlier, rfl⟩, hattempts, hleft, hended⟩
  · cases hnone _ hmem
  obtain rfl : .responded headers body = answer := by
    rw [hworld] at hmem
    rcases List.mem_append.mp hmem with hmem | hmem
    · cases hearlier _ hmem
    · exact List.mem_singleton.mp hmem
  refine ⟨⟨earlier, hworld, hearlier⟩, fun costUsd hcost => ?_⟩
  rw [retained_iff, hended, spent_iff hcost hattempts hleft]

end

/-- A response of the gateway ends its call, and an observed cost is lost only after the content was
accepted : if the usage it reports is not valid, or if the model it names is none and no limit is
exceeded. Else the caller and, once, the tracker are told it. -/
theorem cost_retained_iff {W C T : Type} {settings : GatewaySettings} {policy : AliasPolicy}
    {task : ModelAlias} (halias : settings.aliases task = some policy) (client : GatewayClient)
    (context : RequestContext) (world : W) :
    (∀ (doorway : Doorway W ChatCompletion) (validate : String → Option T) (outputTokens : ℕ),
      (∀ error w, (doorway.leave error w).1 = none) →
        CostKept (judgeCompletion validate outputTokens) doorway settings policy client context task
          world) ∧
    ∀ (doorway : Doorway W (EmbeddingCompletion C)) (isFinite : C → Bool) (inputs : ℕ),
      (∀ error w, (doorway.leave error w).1 = none) →
        CostKept (judgeEmbedding isFinite inputs) doorway settings policy client context task
          world :=
  ⟨fun _ _ _ hquiet => costKept hquiet halias client context world,
    fun _ _ _ hquiet => costKept hquiet halias client context world⟩

/-! ## A total that does not add up -/

/-- A response that cost two cents. -/
def sampleCost : CostHeaders where
  responseCost := some (.finite ⟨false, 2, -2⟩)

/-- One choice, with the usage 1 + 1 = 3. -/
def sampleCompletion : ChatCompletion where
  choices := [⟨"stop", ⟨some "a", none, [], none⟩⟩]
  usage := some ⟨1, 1, 3⟩
  model := "m"

/-- A host that gives that response at once. -/
def sampleDoorway : Doorway Unit ChatCompletion where
  clock _ := (0, ())
  utcnow _ := (0, ())
  enter _ := (none, ())
  prepare _ _ _ := (none, ())
  request _ _ _ _ := (.responded sampleCost (some sampleCompletion), ())
  sleep _ _ := (none, ())
  leave _ _ := (none, ())

/-- The sample header is two cents. -/
theorem sampleCost_cost : cost sampleCost = .ok (some ⟨⟨false, 2, -2⟩, cents_nonneg⟩) :=
  dif_pos cents_nonneg

/-- The sample answer's usage does not add up. -/
theorem sampleCompletion_misreported : judgeCompletion (T := String) some 100
    (some sampleCompletion) = .misreported := by
  rfl

/-- The sample call ends in the error of its usage. -/
theorem sampleDoorway_responds :
    (({} : GatewayClient).invokeCore (sampleDoorway.host (judgeCompletion (T := String) some 100))
      fallbackSettings 3 extractionContext .extractVision ((), [])).map (fun call =>
        call.world.2.map Upstream.response?) =
      some [some (sampleCost, some sampleCompletion)] := by
  decide +kernel

/-- The theorem applies to the sample call. -/
theorem cost_retained_sample :
    ∃ call : Invoked (Unit × List (Upstream ChatCompletion)) String,
      ({} : GatewayClient).invokeCore (sampleDoorway.host (judgeCompletion some 100))
        fallbackSettings 3 extractionContext .extractVision ((), []) = some call ∧
      ¬Retained {} extractionContext.runId call ⟨⟨false, 2, -2⟩, cents_nonneg⟩ := by
  obtain ⟨call, hcall, hkept⟩ := (@cost_retained_iff Unit Unit String fallbackSettings
    fallbackPolicy .extractVision rfl {} extractionContext ()).1 sampleDoorway some 100 fun _ _ =>
      rfl
  have hanswers : call.world.2.map Upstream.response? =
      [some (sampleCost, some sampleCompletion)] := by
    simpa [hcall 3 le_rfl] using sampleDoorway_responds
  obtain ⟨answer, hmem, hanswer⟩ : ∃ answer ∈ call.world.2,
      answer.response? = some (sampleCost, some sampleCompletion) :=
    List.mem_map.mp (hanswers ▸ List.mem_singleton_self _)
  cases answer with
  | responded headers body =>
    obtain ⟨rfl, rfl⟩ := Prod.mk.inj (Option.some.inj hanswer)
    refine ⟨call, hcall 3 le_rfl, fun hretained => ?_⟩
    have hjudged := (((hkept _ _ hmem).2 _ sampleCost_cost).mp hretained).1
    rwa [sampleCompletion_misreported] at hjudged
  | _ => cases hanswer

end InvoiceOps
