import InvoiceOps.GatewayClient

/-!
# The discipline of a call

What a call may do, whatever its host answers (`Disciplined`) : the routes are those of its policy,
each has at most `max_attempts` operations, only retryable failures come before another step, every
operation begins before the deadline, and a sleep is within the limits and ends before it. The
invariant of the loop of a route is `Running`, and what the loop leaves is `Tried`.

`gateway_call_discipline` : with fuel for the attempts of a route a call ends, it is disciplined,
and it records one event.
-/

open Loop (Turn)

namespace InvoiceOps

/-! ## Traces -/

namespace GatewayStep

variable {T : Type}

/-- The index of the route of the step. -/
def index : GatewayStep T → ℕ
  | .select i _ | .operation i _ _ _ _ | .sleep i _ _ => i

/-- Whether the step is an operation on the route with the index. -/
def isOn (index : ℕ) : GatewayStep T → Bool
  | .operation i _ _ _ _ => i = index
  | _ => false

/-- Whether the step is an operation. -/
def isOperation : GatewayStep T → Bool
  | .operation _ _ _ _ _ => true
  | _ => false

/-- The step may be followed by another one : an operation only if it failed with a retryable error
or a timeout. -/
def Retryable : GatewayStep T → Prop
  | .operation _ _ _ _ ended => ended.retryable
  | _ => True

/-- The step is one that the settings and the routes allow. -/
def Allowed (settings : GatewaySettings) (routes : List Route) : GatewayStep T → Prop
  | .select index route => routes[index]? = some route
  | .operation index route remaining timeout _ =>
    routes[index]? = some route ∧ 0 < remaining ∧ timeout = min remaining settings.requestTimeout
  | .sleep _ delay remaining => 0 ≤ delay ∧ delay ≤ settings.maxRetryDelay ∧ delay < remaining

end GatewayStep

/-- The operations of the route with the index. -/
def operationsOn {T : Type} (index : ℕ) (trace : List (GatewayStep T)) : ℕ :=
  trace.countP (GatewayStep.isOn index)

/-- The operations of all routes. -/
def callOperations {T : Type} (trace : List (GatewayStep T)) : ℕ :=
  trace.countP GatewayStep.isOperation

/-- Every step is allowed, only what may be retried is followed by another step, and no route has
more attempts than it may. -/
structure Disciplined {T : Type} (settings : GatewaySettings) (routes : List Route)
    (trace : List (GatewayStep T)) : Prop where
  allowed : ∀ step ∈ trace, step.Allowed settings routes
  retryable : trace.Pairwise fun earlier _ => earlier.Retryable
  bounded : ∀ index, operationsOn index trace ≤ settings.maxAttempts

section

variable {W T : Type} {host : GatewayHost W T} {settings : GatewaySettings} {policy : AliasPolicy}
  {deadline : ℚ} {last : Bool} {routes : List Route} {index : ℕ}

/-- One more step on the same terms. -/
theorem Disciplined.snoc {trace : List (GatewayStep T)} {step : GatewayStep T}
    (h : Disciplined settings routes trace) (hretry : ∀ s ∈ trace, s.Retryable)
    (hstep : step.Allowed settings routes)
    (hbound : ∀ i, step.isOn i → operationsOn i trace < settings.maxAttempts) :
    Disciplined settings routes (trace ++ [step]) where
  allowed := by simpa [or_imp, forall_and] using ⟨h.allowed, hstep⟩
  retryable := List.pairwise_append.mpr ⟨h.retryable, by simp, fun s hs _ _ => hretry s hs⟩
  bounded i := by
    have := h.bounded i
    rw [operationsOn, List.countP_append, ← operationsOn]
    by_cases hi : step.isOn i
    · have := hbound i hi
      simp [hi]
      omega
    · simpa [hi] using this

/-! ## One route -/

/-- The variables of a call are those of its trace. -/
structure Traced (settings : GatewaySettings) (routes : List Route)
    (c : GatewayCall W T) : Prop where
  route : routes[c.selected.1]? = some c.selected.2
  disciplined : Disciplined settings routes c.trace
  attempts : c.attempts = callOperations c.trace

/-- The call is on the route with the index. -/
structure Tried (settings : GatewaySettings) (routes : List Route) (index : ℕ)
    (c : GatewayCall W T) :
    Prop extends Traced settings routes c where
  index_eq : c.selected.1 = index
  later : ∀ i, index < i → operationsOn i c.trace = 0

/-- The call may try its route again. -/
structure Running (settings : GatewaySettings) (routes : List Route) (index : ℕ)
    (s : Attempting W T) : Prop where
  tried : Tried settings routes index s.toGatewayCall
  retryable : ∀ step ∈ s.trace, step.Retryable
  routeAttempts : s.routeAttempts = operationsOn index s.trace

/-- What the loop of a route leaves. -/
def Left (settings : GatewaySettings) (routes : List Route) (index : ℕ) :
    RouteEnd T × GatewayCall W T → Prop
  | (.answered response, c) => Tried settings routes index c ∧
    ∃ before remaining timeout, c.trace = before ++
      [.operation c.selected.1 c.selected.2 remaining timeout (.answered response)]
  | (.exhausted, c) => Tried settings routes index c ∧ ∀ step ∈ c.trace, step.Retryable
  | (.raised _, c) => Tried settings routes index c

/-- The response that a call holds does not matter to it. -/
theorem Tried.withResponse {c : GatewayCall W T} (h : Tried settings routes index c)
    (response : Option (Response T)) : Tried settings routes index { c with response } :=
  ⟨⟨h.route, h.disciplined, h.attempts⟩, h.index_eq, h.later⟩

namespace Running

variable {s : Attempting W T}

/-- Nor does the world. -/
theorem world (h : Running settings routes index s) (world : W) :
    Running settings routes index { s with world } :=
  ⟨⟨⟨h.tried.route, h.tried.disciplined, h.tried.attempts⟩, h.tried.index_eq, h.tried.later⟩,
    h.retryable, h.routeAttempts⟩

/-- Reading the clock keeps an attempt running. -/
theorem ticked (h : Running settings routes index s) :
    Running settings routes index (s.ticked host) :=
  h.world _

/-- A running attempt may leave its route as exhausted. -/
theorem exhausted (h : Running settings routes index s) :
    Left settings routes index (.exhausted, s.toGatewayCall) :=
  ⟨h.tried, h.retryable⟩

end Running

/-- The delay is one that a sleep may have. -/
theorem retryDelay_nonneg {n : ℕ} {hint : Option ℚ} (h : ∀ d ∈ hint, 0 ≤ d) :
    0 ≤ retryDelay settings n hint := by
  cases hint with
  | some d => exact h d rfl
  | none =>
    have := settings.backoff_nonneg
    exact le_min (by positivity) settings.maxRetryDelay_pos.le

/-! ## What a turn does -/

/-- What an operation that is not retried leaves, after so many attempts. -/
def OperationEnd.settled (policy : AliasPolicy) (attempts : ℕ) : OperationEnd T → RouteEnd T
  | .answered response =>
    if policy.inputTokenLimit < response.usage.inputTokens ∨
        policy.totalTokenLimit < response.usage.totalTokens then
      .raised (.gateway ⟨.tokenBudgetExceeded, attempts, response.costUsd⟩)
    else .answered response
  | .apiError _ mismatch =>
    .raised (.gateway ⟨if mismatch then .cassetteMismatch else .requestRejected, attempts, none⟩)
  | .timedOut => .exhausted
  | .raised .cassetteMismatch => .raised (.gateway ⟨.cassetteMismatch, attempts, none⟩)
  | .raised error => .raised error

/-- An operation that is not retried has an answer or an error. -/
theorem OperationEnd.settled_cases {ended : OperationEnd T} (policy : AliasPolicy) (attempts : ℕ)
    (h : ended.retryable = false) :
    (∃ response, ended = .answered response ∧ ended.settled policy attempts = .answered response) ∨
      ∃ error, ended.settled policy attempts = .raised error := by
  cases ended with
  | answered response =>
    by_cases hlimit : policy.inputTokenLimit < response.usage.inputTokens ∨
        policy.totalTokenLimit < response.usage.totalTokens
    · exact Or.inr ⟨_, if_pos hlimit⟩
    · exact Or.inl ⟨response, rfl, if_neg hlimit⟩
  | apiError error mismatch => exact Or.inr ⟨_, rfl⟩
  | timedOut => simp [retryable] at h
  | raised error => cases error <;> exact Or.inr ⟨_, rfl⟩

/-- The response of an operation, if there was one. -/
def OperationEnd.response? : OperationEnd T → Option (Response T)
  | .answered response => some response
  | _ => none

namespace Attempting

variable (s : Attempting W T) (delay : ℚ) (hint : Option ℚ) {ended : OperationEnd T}

variable (host deadline) in
/-- A pause ends the call at its deadline, or sleeps. -/
theorem pause_cases :
    (deadline - s.now host ≤ delay ∧
      s.pause host deadline delay = (s.ticked host).fail .deadlineExceeded) ∨
    (delay < deadline - s.now host ∧ ∃ slept : Attempting W T,
      slept = { s with
        world := (host.sleep delay (s.ticked host).world).2
        trace := s.trace ++ [GatewayStep.sleep s.selected.1 delay (deadline - s.now host)] } ∧
      (s.pause host deadline delay = .again slept ∨
        ∃ error, s.pause host deadline delay = .leave (.raised error, slept.toGatewayCall))) := by
  by_cases h : deadline - s.now host ≤ delay
  · exact Or.inl ⟨h, by simp [pause, h]⟩
  · refine Or.inr ⟨not_le.mp h, _, rfl, ?_⟩
    simp only [pause, if_neg h]
    cases (host.sleep delay (s.ticked host).world).1 with
    | none => exact Or.inl rfl
    | some error => exact Or.inr ⟨error, rfl⟩

variable (host settings deadline last) in
/-- A retry exhausts the route, or pauses and goes on. -/
theorem retry_cases :
    (∃ world, (world = s.world ∨ world = (s.ticked host).world) ∧
      s.retry host settings deadline last hint =
        .leave (.exhausted, { s.toGatewayCall with world })) ∨
    (s.routeAttempts < settings.maxAttempts ∧
      retryDelay settings s.routeAttempts hint ≤ settings.maxRetryDelay ∧
      (last = false →
        settings.requestTimeout + retryDelay settings s.routeAttempts hint <
          deadline - s.now host) ∧
      ∃ world, (world = s.world ∨ world = (s.ticked host).world) ∧
        s.retry host settings deadline last hint =
          { s with world }.pause host deadline (retryDelay settings s.routeAttempts hint)) := by
  unfold retry
  by_cases hmax : settings.maxAttempts ≤ s.routeAttempts
  · exact Or.inl ⟨s.world, Or.inl rfl, by simp [hmax]⟩
  by_cases hdelay : settings.maxRetryDelay < retryDelay settings s.routeAttempts hint
  · exact Or.inl ⟨s.world, Or.inl rfl, by simp [hmax, hdelay]⟩
  cases last with
  | true =>
    exact Or.inr ⟨by omega, not_lt.mp hdelay, by simp, s.world, Or.inl rfl, by simp [hmax, hdelay]⟩
  | false =>
    by_cases hleft : deadline - s.now host ≤
        settings.requestTimeout + retryDelay settings s.routeAttempts hint
    · exact Or.inl ⟨_, Or.inr rfl, by simp [hmax, hdelay, hleft]; rfl⟩
    · exact Or.inr ⟨by omega, not_lt.mp hdelay, fun _ => not_le.mp hleft, _, Or.inr rfl,
        by simp [hmax, hdelay, hleft]; rfl⟩

variable (host settings policy deadline last) in
/-- An operation that failed may be tried again, after a look at the time of day. -/
theorem proceed_cases (h : ended.retryable) :
    ∃ hint world, (∀ d ∈ hint, 0 ≤ d) ∧ (world = s.world ∨ world = (host.utcnow s.world).2) ∧
      s.proceed host settings policy deadline last ended =
        { s with world }.retry host settings deadline last hint := by
  cases ended with
  | answered response => simp [OperationEnd.retryable] at h
  | timedOut => exact ⟨none, s.world, by simp, Or.inl rfl, rfl⟩
  | raised error => simp [OperationEnd.retryable] at h
  | apiError error mismatch =>
    obtain ⟨rfl, hretry⟩ : mismatch = false ∧ isRetryable error = true := by
      simpa [OperationEnd.retryable] using h
    cases error with
    | connection => exact ⟨none, s.world, by simp, Or.inl rfl, by simp [proceed, isRetryable]⟩
    | status error =>
      exact ⟨retryAfter error (host.utcnow s.world).1, (host.utcnow s.world).2,
        fun d hd => retryAfter_nonneg hd, Or.inr rfl, by simp [proceed, hretry]⟩

/-- An operation that is not retried ends the loop. -/
theorem proceed_eq (h : ended.retryable = false) :
    s.proceed host settings policy deadline last ended =
      .leave (ended.settled policy s.attempts,
        { s.toGatewayCall with response := ended.response?.or s.response }) := by
  cases ended with
  | answered response =>
    simp only [proceed, OperationEnd.settled, OperationEnd.response?, fail]
    split <;> rfl
  | timedOut => simp [OperationEnd.retryable] at h
  | raised error => cases error <;> rfl
  | apiError error mismatch =>
    cases mismatch with
    | true => rfl
    | false =>
      have : isRetryable error = false := by simpa [OperationEnd.retryable] using h
      simp [proceed, this, OperationEnd.settled, OperationEnd.response?, fail]

variable (settings) in
/-- The call after an operation of its route. -/
def operated (world : W) (remaining : ℚ) (ended : OperationEnd T) : Attempting W T :=
  { s with
    world
    attempts := s.attempts + 1
    routeAttempts := s.routeAttempts + 1
    trace := s.trace ++ [GatewayStep.operation s.selected.1 s.selected.2 remaining
      (min remaining settings.requestTimeout) ended] }

variable (host settings policy deadline last) in
/-- A turn ends at the deadline, or operates and proceeds. -/
theorem turn_cases :
    (deadline - s.now host ≤ 0 ∧
      s.turn host settings policy deadline last = (s.ticked host).fail .deadlineExceeded) ∨
    (0 < deadline - s.now host ∧ ∃ timeout world ended,
      host.operate policy s.selected.2.name.val timeout (s.ticked host).world = (ended, world) ∧
      s.turn host settings policy deadline last =
        (s.operated settings world (deadline - s.now host) ended).proceed host settings
          policy deadline last ended) := by
  by_cases h : deadline - s.now host ≤ 0
  · exact Or.inl ⟨h, by simp only [turn, if_pos h]⟩
  · exact Or.inr ⟨not_le.mp h, _, _, _, rfl, by simp only [turn, if_neg h]; rfl⟩

end Attempting

/-! ## The steps of a loop -/

/-- The call has gone on from `s`, on the route of it. -/
def Attempting.Onward (s : Attempting W T) (c : GatewayCall W T) : Prop :=
  c.selected = s.selected ∧
    ∃ steps, c.trace = s.trace ++ steps ∧ ∀ step ∈ steps, step.index = s.selected.1

namespace Attempting.Onward

variable {s s' : Attempting W T}

/-- A trace goes on from itself. -/
theorem refl (s : Attempting W T) : s.Onward s.toGatewayCall :=
  ⟨rfl, [], by simp, by simp⟩

/-- One more step on the same route. -/
theorem snoc {c : GatewayCall W T} (h : s.Onward c) (step : GatewayStep T)
    (hstep : step.index = c.selected.1) {c' : GatewayCall W T}
    (hselected : c'.selected = c.selected)
    (htrace : c'.trace = c.trace ++ [step]) : s.Onward c' := by
  obtain ⟨hsel, steps, hsteps, hall⟩ := h
  refine ⟨hselected.trans hsel, steps ++ [step], by simp [htrace, hsteps], ?_⟩
  simpa [or_imp, forall_and] using ⟨hall, hstep.trans (by rw [hsel])⟩

/-- A pause goes on with the trace. -/
theorem pause_holds (h : s.Onward s'.toGatewayCall) {delay : ℚ} :
    (s'.pause host deadline delay).Holds (fun s'' => s.Onward s''.toGatewayCall)
      (fun r => s.Onward r.2) := by
  rcases s'.pause_cases host deadline delay
    with ⟨-, hp⟩ | ⟨-, slept, rfl, hp | ⟨error, hp⟩⟩ <;> rw [hp]
  · exact h
  · exact h.snoc (.sleep s'.selected.1 delay (deadline - s'.now host)) rfl rfl rfl
  · exact h.snoc (.sleep s'.selected.1 delay (deadline - s'.now host)) rfl rfl rfl

/-- So does a turn. -/
theorem turn_holds (h : s.Onward s'.toGatewayCall) :
    (s'.turn host settings policy deadline last).Holds (fun s'' => s.Onward s''.toGatewayCall)
      (fun r => s.Onward r.2) := by
  rcases s'.turn_cases host settings policy deadline last with ⟨-, ht⟩ |
    ⟨-, _, world, ended, -, ht⟩ <;> rw [ht]
  · exact h
  have hop : s.Onward (s'.operated settings world (deadline - s'.now host)
      ended).toGatewayCall := h.snoc (.operation s'.selected.1 s'.selected.2
        (deadline - s'.now host) (min (deadline - s'.now host) settings.requestTimeout) ended)
        rfl rfl rfl
  cases hended : ended.retryable with
  | false =>
    rw [Attempting.proceed_eq _ hended]
    exact hop
  | true =>
    obtain ⟨hint, world', -, -, hp⟩ := Attempting.proceed_cases host settings
      policy deadline last (s'.operated settings world (deadline - s'.now host) ended) hended
    rw [hp]
    rcases Attempting.retry_cases host settings deadline last
      ({ s'.operated settings world (deadline - s'.now host) ended with
        world := world' } : Attempting W T) hint with ⟨world'', -, hr⟩ |
      ⟨-, -, -, world'', -, hr⟩ <;> rw [hr]
    · exact hop
    · exact @pause_holds _ _ _ _ _ { s'.operated settings world (deadline - s'.now host) ended with
        world := world'' } hop _

/-- So does the run of a route. -/
theorem run {fuel : ℕ} {ended : RouteEnd T × GatewayCall W T}
    (hrun : Loop.run (Attempting.turn host settings policy deadline last) fuel s = some ended) :
    s.Onward ended.2 :=
  Loop.run_post (I := fun s' => s.Onward s'.toGatewayCall) (Q := fun r => s.Onward r.2)
    (fun _ h => h.turn_holds) (refl s) hrun

end Attempting.Onward

/-! ## The world of a call -/

/-- `J` holds of the world until an operation ends that is not tried again, and then `K` does, of
what it ended in. -/
structure WorldInvariant (host : GatewayHost W T) (J : W → Prop) (K : OperationEnd T → W → Prop) :
    Prop where
  clock : ∀ w, J w → J (host.clock w).2
  utcnow : ∀ w, J w → J (host.utcnow w).2
  enter : ∀ w, J w → J (host.enter w).2
  prepare : ∀ policy name w, J w → J (host.prepare policy name w).2
  sleep : ∀ delay w, J w → J (host.sleep delay w).2
  operate : ∀ policy name timeout w, J w →
    if (host.operate policy name timeout w).1.retryable then
      J (host.operate policy name timeout w).2
    else K (host.operate policy name timeout w).1 (host.operate policy name timeout w).2

/-- What the loop of a route leaves, and whether it is from an operation. -/
def LeftWorld (policy : AliasPolicy) (J : W → Prop) (K : OperationEnd T → W → Prop)
    (left : RouteEnd T × GatewayCall W T) : Prop :=
  (J left.2.world ∧ ∀ response, left.1 ≠ .answered response) ∨
    ∃ ended, ended.retryable = false ∧ K ended left.2.world ∧ 0 < left.2.attempts ∧
      left.1 = ended.settled policy left.2.attempts

section

variable {J : W → Prop} {K : OperationEnd T → W → Prop} {s : Attempting W T}

namespace WorldInvariant

/-- A pause keeps what every operation of the host keeps. -/
theorem pause_holds (h : WorldInvariant host J K) (hs : J s.world) {delay : ℚ} :
    (s.pause host deadline delay).Holds (fun s' => J s'.world) (LeftWorld policy J K) := by
  have hticked : J (s.ticked host).world := h.clock _ hs
  rcases s.pause_cases host deadline delay
    with ⟨-, hp⟩ | ⟨-, slept, rfl, hp | ⟨error, hp⟩⟩ <;> rw [hp]
  · exact Or.inl ⟨hticked, by simp⟩
  · exact h.sleep _ _ hticked
  · exact Or.inl ⟨h.sleep _ _ hticked, by simp⟩

/-- So does a turn. -/
theorem turn_holds (h : WorldInvariant host J K) (hs : J s.world) :
    (s.turn host settings policy deadline last).Holds (fun s' => J s'.world)
      (LeftWorld policy J K) := by
  have hticked : J (s.ticked host).world := h.clock _ hs
  rcases s.turn_cases host settings policy deadline last with ⟨-, ht⟩ |
    ⟨-, timeout, world, ended, hop, ht⟩ <;>
    rw [ht]
  · exact Or.inl ⟨hticked, by simp⟩
  have hworld := h.operate policy s.selected.2.name.val timeout _ hticked
  rw [hop] at hworld
  cases hended : ended.retryable with
  | false =>
    have hK : K ended world := by simpa [hended] using hworld
    rw [Attempting.proceed_eq _ hended]
    exact Or.inr ⟨ended, hended, hK, Nat.succ_pos _, rfl⟩
  | true =>
    obtain ⟨hint, world', -, hworld', hp⟩ := Attempting.proceed_cases host settings
      policy deadline last (s.operated settings world (deadline - s.now host) ended) hended
    have hJ : J world := by simpa [hended] using hworld
    have hJ' : J world' := by
      rcases hworld' with rfl | rfl
      · exact hJ
      · exact h.utcnow _ hJ
    rw [hp]
    rcases Attempting.retry_cases host settings deadline last
      ({ s.operated settings world (deadline - s.now host) ended with
        world := world' } : Attempting W T) hint
      with ⟨world'', hw, hr⟩ | ⟨-, -, -, world'', hw, hr⟩ <;> rw [hr]
    · refine Or.inl ⟨?_, by simp⟩
      rcases hw with rfl | rfl
      · exact hJ'
      · exact h.clock _ hJ'
    · refine h.pause_holds ?_
      rcases hw with rfl | rfl
      · exact hJ'
      · exact h.clock _ hJ'

/-- What the routes leave. -/
theorem tryRoutes_holds (h : WorldInvariant host J K) {fuel : ℕ} {rest : List Route} :
    ∀ {index : ℕ} {c : GatewayCall W T} {ended : RouteEnd T × GatewayCall W T}, J c.world →
      tryRoutes host settings policy deadline fuel index rest c = some ended →
        LeftWorld policy J K ended := by
  induction rest with
  | nil =>
    rintro index c ended hc ⟨⟩
    exact Or.inl ⟨hc, by simp⟩
  | cons route rest ih =>
    intro index c ended hc htry
    have hprepared := h.prepare policy route.name.val c.world hc
    simp only [tryRoutes] at htry
    split at htry
    · obtain rfl := Option.some.inj htry
      exact Or.inl ⟨hprepared, by simp⟩
    have hleft {left : RouteEnd T × GatewayCall W T} {fuel : ℕ} (hrun : Loop.run
        (Attempting.turn host settings policy deadline rest.isEmpty) fuel
          ⟨c.select index route (host.prepare policy route.name.val c.world).2, 0⟩ = some left) :
        LeftWorld policy J K left :=
      Loop.run_post (I := fun s => J s.world) (fun s hs => h.turn_holds hs) hprepared hrun
    split at htry
    · cases htry
    · rename_i c' hrun
      refine ih ?_ htry
      rcases hleft hrun with ⟨hJ, -⟩ | ⟨ended', hended', -, -, hsettled⟩
      · exact hJ
      · rcases ended'.settled_cases policy c'.attempts hended' with ⟨response, -, hs⟩ | ⟨error, hs⟩
        · cases hsettled.trans hs
        · cases hsettled.trans hs
    · rename_i hrun
      obtain rfl := Option.some.inj htry
      exact hleft hrun

end WorldInvariant

end

/-! ## The invariant of the loop -/

namespace Running

variable {s : Attempting W T}

/-- An operation is a step that the call may take. -/
theorem tried_operated (h : Running settings routes index s)
    (hmax : s.routeAttempts < settings.maxAttempts) (world : W) {remaining : ℚ}
    (ended : OperationEnd T) (hrem : 0 < remaining) :
    Tried settings routes index (s.operated settings world remaining ended).toGatewayCall where
  index_eq := h.tried.index_eq
  route := h.tried.route
  disciplined := h.tried.disciplined.snoc h.retryable
    ⟨h.tried.route, hrem, rfl⟩ fun i hi => by
      have : i = index := by simpa [GatewayStep.isOn, h.tried.index_eq, eq_comm] using hi
      rw [this, ← h.routeAttempts]
      exact hmax
  attempts := by
    simpa [Attempting.operated, callOperations, GatewayStep.isOperation] using h.tried.attempts
  later i hi := by
    have := h.tried.later i hi
    have hne : ¬s.selected.1 = i := by
      rw [h.tried.index_eq]
      omega
    simpa [Attempting.operated, operationsOn, GatewayStep.isOn, hne] using this

/-- An operation within the deadline keeps the attempt running. -/
theorem operated (h : Running settings routes index s)
    (hmax : s.routeAttempts < settings.maxAttempts) {world : W} {remaining : ℚ}
    {ended : OperationEnd T} (hrem : 0 < remaining) (hended : ended.retryable) :
    Running settings routes index
      (s.operated settings world remaining ended) where
  tried := h.tried_operated hmax world ended hrem
  retryable := by
    simpa [Attempting.operated, or_imp, forall_and, GatewayStep.Retryable, hended] using h.retryable
  routeAttempts := by
    simpa [Attempting.operated, operationsOn, GatewayStep.isOn, h.tried.index_eq] using
      h.routeAttempts

/-- So is a sleep that is within the limits. -/
theorem slept (h : Running settings routes index s) {world : W} {delay remaining : ℚ}
    (h0 : 0 ≤ delay) (hdelay : delay ≤ settings.maxRetryDelay) (hrem : delay < remaining) :
    Running settings routes index { s with
      world
      trace := s.trace ++ [GatewayStep.sleep s.selected.1 delay remaining] } where
  tried := {
    index_eq := h.tried.index_eq
    route := h.tried.route
    disciplined := h.tried.disciplined.snoc h.retryable ⟨h0, hdelay, hrem⟩
      (by simp [GatewayStep.isOn])
    attempts := by simpa [callOperations, GatewayStep.isOperation] using h.tried.attempts
    later := by simpa [operationsOn, GatewayStep.isOn] using h.tried.later }
  retryable := by simpa [or_imp, forall_and, GatewayStep.Retryable] using h.retryable
  routeAttempts := by simpa [operationsOn, GatewayStep.isOn] using h.routeAttempts

/-- A retry keeps the discipline. -/
theorem retry_holds (h : Running settings routes index s) {hint : Option ℚ}
    (hhint : ∀ d ∈ hint, 0 ≤ d) :
    (s.retry host settings deadline last hint).Holds
      (fun s' => (Running settings routes index s' ∧ s'.routeAttempts < settings.maxAttempts) ∧
        s'.routeAttempts = s.routeAttempts)
      (Left settings routes index) := by
  rcases s.retry_cases host settings deadline last hint with ⟨world, -, hr⟩ |
    ⟨hmax, hdelay, -, world, -, hr⟩
  · rw [hr]
    exact (h.world world).exhausted
  · rw [hr]
    rcases ({ s with world } : Attempting W T).pause_cases host deadline _
      with ⟨-, hp⟩ | ⟨hlt, slept, rfl, hp | ⟨error, hp⟩⟩
    · rw [hp]
      exact ((h.world world).ticked).tried
    · rw [hp]
      exact ⟨⟨(h.world world).slept (retryDelay_nonneg hhint) hdelay hlt, hmax⟩, rfl⟩
    · rw [hp]
      exact ((h.world world).slept (retryDelay_nonneg hhint) hdelay hlt).tried

/-- So does a turn. -/
theorem turn_holds (h : Running settings routes index s)
    (hmax : s.routeAttempts < settings.maxAttempts) :
    (s.turn host settings policy deadline last).Holds
      (fun s' => (Running settings routes index s' ∧ s'.routeAttempts < settings.maxAttempts) ∧
        settings.maxAttempts - 1 - s'.routeAttempts < settings.maxAttempts - 1 - s.routeAttempts)
      (Left settings routes index) := by
  rcases s.turn_cases host settings policy deadline last with ⟨-, ht⟩ |
    ⟨hrem, _, world, ended, -, ht⟩
  · rw [ht]
    exact h.ticked.tried
  · rw [ht]
    cases hended : ended.retryable with
    | true =>
      obtain ⟨hint, world', hhint, -, hp⟩ := Attempting.proceed_cases host settings
        policy deadline last (s.operated settings world (deadline - s.now host) ended) hended
      rw [hp]
      refine (((h.operated hmax hrem hended).world world').retry_holds hhint).mono
        (fun s' hs' => ⟨hs'.1, ?_⟩) fun _ hr => hr
      have hlt := hs'.1.2
      rw [hs'.2] at hlt ⊢
      change s.routeAttempts + 1 < _ at hlt
      change settings.maxAttempts - 1 - (s.routeAttempts + 1) < _
      omega
    | false =>
      rw [Attempting.proceed_eq _ hended]
      have htried := h.tried_operated hmax world ended hrem
      rcases ended.settled_cases policy (s.attempts + 1) hended
        with ⟨response, rfl, hs⟩ | ⟨error, hs⟩
      · change Left settings routes index (OperationEnd.settled policy (s.attempts + 1) _, _)
        rw [hs]
        exact ⟨htried.withResponse _, _, _, _, rfl⟩
      · change Left settings routes index (OperationEnd.settled policy (s.attempts + 1) _, _)
        rw [hs]
        exact htried.withResponse _

end Running

/-! ## The routes -/

/-- The call has tried the routes before the one with the index, and may go on. -/
structure Between (settings : GatewaySettings) (routes : List Route) (index : ℕ)
    (c : GatewayCall W T) :
    Prop extends Traced settings routes c where
  retryable : ∀ step ∈ c.trace, step.Retryable
  later : ∀ i, index ≤ i → operationsOn i c.trace = 0

/-- What the routes leave. -/
def Finished (settings : GatewaySettings) (routes : List Route) :
    RouteEnd T × GatewayCall W T → Prop
  | (.answered response, c) => Traced settings routes c ∧
    ∃ before remaining timeout, c.trace = before ++
      [.operation c.selected.1 c.selected.2 remaining timeout (.answered response)]
  | (_, c) => Traced settings routes c

/-- A call selects the next route. -/
theorem Between.select {c : GatewayCall W T} {route : Route} {rest : List Route}
    (h : Between settings routes index c) (hroutes : routes.drop index = route :: rest)
    (world : W) :
    Running settings routes index ⟨c.select index route world, 0⟩ := by
  have hroute : routes[index]? = some route := by
    rw [← List.head?_drop, hroutes, List.head?_cons]
  refine ⟨⟨⟨hroute, h.disciplined.snoc h.retryable hroute (by simp [GatewayStep.isOn]), ?_⟩, rfl,
    fun i hi => ?_⟩, ?_, ?_⟩
  · simpa [GatewayCall.select, callOperations, GatewayStep.isOperation] using h.attempts
  · simpa [GatewayCall.select, operationsOn, GatewayStep.isOn] using h.later i hi.le
  · simpa [GatewayCall.select, or_imp, forall_and, GatewayStep.Retryable] using h.retryable
  · simpa [GatewayCall.select, operationsOn, GatewayStep.isOn, eq_comm] using h.later index le_rfl

variable (host policy deadline) in
/-- The routes are tried to the end, and end on terms. -/
theorem tryRoutes_finished {rest : List Route} : ∀ {index : ℕ} {c : GatewayCall W T},
    Between settings routes index c → routes.drop index = rest →
      ∃ ended, (∀ fuel, settings.maxAttempts ≤ fuel →
          tryRoutes host settings policy deadline fuel index rest c = some ended) ∧
        Finished settings routes ended := by
  induction rest with
  | nil => exact fun h _ => ⟨_, fun _ _ => rfl, h.toTraced⟩
  | cons route rest ih =>
    intro index c h hroutes
    rcases hprep : host.prepare policy route.name.val c.world with ⟨_ | error, world⟩
    · have hselect := h.select hroutes world
      have hmax := settings.maxAttempts_pos
      obtain ⟨⟨ended, c'⟩, hrun, hleft⟩ := @Loop.run_holds _ _
        (Attempting.turn host settings policy deadline rest.isEmpty)
        (fun s => Running settings routes index s ∧ s.routeAttempts < settings.maxAttempts) _
        (fun s => settings.maxAttempts - 1 - s.routeAttempts) (fun s hs => hs.1.turn_holds hs.2) _
        ⟨hselect, hmax⟩
      have hrun' : ∀ fuel, settings.maxAttempts ≤ fuel → _ := fun fuel hfuel =>
        hrun fuel (by dsimp only; omega)
      cases ended with
      | answered response =>
        refine ⟨(.answered response, c'), fun fuel hfuel => ?_, hleft.1.toTraced, hleft.2⟩
        simp only [tryRoutes, hprep, hrun' fuel hfuel]
      | raised error =>
        refine ⟨(.raised error, c'), fun fuel hfuel => ?_, hleft.toTraced⟩
        simp only [tryRoutes, hprep, hrun' fuel hfuel]
      | exhausted =>
        have hnext : Between settings routes (index + 1) c' :=
          ⟨hleft.1.toTraced, hleft.2, fun i hi => hleft.1.later i hi⟩
        obtain ⟨ended, htry, hfinished⟩ := ih hnext (by
          rw [← List.drop_drop, hroutes, List.drop_one, List.tail_cons])
        refine ⟨ended, fun fuel hfuel => ?_, hfinished⟩
        simp only [tryRoutes, hprep, hrun' fuel hfuel]
        exact htry fuel hfuel
    · exact ⟨(.raised error, c.select index route world),
        fun fuel _ => by simp only [tryRoutes, hprep], (h.select hroutes world).tried.toTraced⟩

/-- The steps of the routes from an index on. -/
theorem tryRoutes_onward {fuel : ℕ} {ended : RouteEnd T × GatewayCall W T} {rest : List Route} :
    ∀ {index : ℕ} {c : GatewayCall W T},
      tryRoutes host settings policy deadline fuel index rest c = some ended →
        ∃ steps, ended.2.trace = c.trace ++ steps ∧ ∀ step ∈ steps, index ≤ step.index := by
  induction rest with
  | nil =>
    rintro index c ⟨⟩
    exact ⟨[], by simp, by simp⟩
  | cons route rest ih =>
    intro index c h
    simp only [tryRoutes] at h
    have hselect (world : W) : (c.select index route world).trace =
        c.trace ++ [GatewayStep.select index route] := rfl
    split at h
    · obtain rfl := Option.some.inj h
      exact ⟨_, hselect _, by simp [GatewayStep.index]⟩
    · split at h
      · cases h
      · rename_i c' hrun
        obtain ⟨-, steps, hsteps, hall⟩ := Attempting.Onward.run hrun
        obtain ⟨steps', hsteps', hall'⟩ := ih h
        refine ⟨.select index route :: (steps ++ steps'), ?_, ?_⟩
        · rw [hsteps', hsteps, hselect]
          simp
        · have hindex : ∀ step ∈ steps, index ≤ step.index := fun step hs => (hall step hs).ge
          have hindex' : ∀ step ∈ steps', index ≤ step.index := fun step hs =>
            Nat.le_of_succ_le (hall' step hs)
          simpa [or_imp, forall_and, GatewayStep.index] using ⟨hindex, hindex'⟩
      · rename_i r _ hrun
        obtain rfl := Option.some.inj h
        obtain ⟨-, steps, hsteps, hall⟩ := Attempting.Onward.run hrun
        refine ⟨.select index route :: steps, by rw [hsteps, hselect]; simp, ?_⟩
        have hindex : ∀ step ∈ steps, index ≤ step.index := fun step hs => (hall step hs).ge
        simpa [GatewayStep.index] using hindex

/-! ## The call -/

/-- The result is that of the last operation, it is pinned to the route of it, and its attempts are
the operations. -/
def Pinned (routes : List Route) (trace : List (GatewayStep T)) (result : GatewayResult T) :
    Prop :=
  ∃ before route remaining timeout, ∃ response : Response T,
    trace = before ++
      [GatewayStep.operation result.routeIndex route remaining timeout (.answered response)] ∧
    routes[result.routeIndex]? = some route ∧
    result.provenance.modelVersion = route.version ∧
    result.provenance.model.val = response.model ∧
    result.value = response.value ∧ result.usage = response.usage ∧
    result.attempts = callOperations trace

/-- A result is of the context, the alias and the response of its call. -/
theorem gatewayResult_ok {context : RequestContext} {task : ModelAlias} {response : Response T}
    {c : GatewayCall W T} {latency : ℚ} {result : GatewayResult T}
    (h : gatewayResult context task response c latency = .ok result) :
    result.value = response.value ∧ result.usage = response.usage ∧
      result.provenance.model.val = response.model ∧
      result.provenance.modelVersion = c.selected.2.version ∧ result.routeIndex = c.selected.1 ∧
      result.attempts = c.attempts ∧ result.costUsd = response.costUsd ∧
      result.provenance.promptVersion = context.promptVersion := by
  unfold gatewayResult at h
  split at h
  · obtain rfl := Except.ok.inj h
    exact ⟨rfl, rfl, rfl, rfl, rfl, rfl, rfl, rfl⟩
  · cases h

variable (host) in
/-- What a finished call concludes is traced. -/
theorem conclude_finished (context : RequestContext) (task : ModelAlias) (started : ℚ)
    {ended : RouteEnd T × GatewayCall W T} (h : Finished settings routes ended) :
    Traced settings routes (conclude host context task started ended).2 ∧
      ∀ result, (conclude host context task started ended).1 = .ok result →
        Pinned routes (conclude host context task started ended).2.trace result ∧
        result.provenance.promptVersion = context.promptVersion := by
  obtain ⟨ended, c⟩ := ended
  cases ended with
  | exhausted => exact ⟨h, by simp [conclude]⟩
  | raised error => exact ⟨h, by simp [conclude]⟩
  | answered response =>
    obtain ⟨htraced, before, remaining, timeout, htrace⟩ := h
    refine ⟨⟨htraced.route, htraced.disciplined, htraced.attempts⟩, fun result hresult => ?_⟩
    obtain ⟨hvalue, husage, hmodel, hversion, hindex, hattempts, -, hprompt⟩ :=
      gatewayResult_ok hresult
    refine ⟨⟨before, c.selected.2, remaining, timeout, response, ?_, ?_, hversion, hmodel, hvalue,
      husage, hattempts.trans htraced.attempts⟩, hprompt⟩
    · rw [hindex]
      exact htrace
    · rw [hindex]
      exact htraced.route

variable (host) in
/-- A conclusion adds nothing to the trace. -/
theorem conclude_trace (context : RequestContext) (task : ModelAlias) (started : ℚ)
    (ended : RouteEnd T × GatewayCall W T) :
    (conclude host context task started ended).2.trace = ended.2.trace := by
  obtain ⟨_ | _ | _, c⟩ := ended <;> rfl

variable (host) in
/-- Leaving the cassettes changes the world, or replaces the outcome by its own error. -/
theorem leaveScope_cases (ended : Except Raised (GatewayResult T) × GatewayCall W T) :
    ∃ world, leaveScope host ended = (ended.1, { ended.2 with world }) ∨
      ∃ error, leaveScope host ended = (.error error, { ended.2 with world }) := by
  unfold leaveScope
  dsimp only
  split
  · exact ⟨_, Or.inl rfl⟩
  · exact ⟨_, Or.inr ⟨_, rfl⟩⟩

variable (host settings policy) in
/-- The scope of a call ends, as the call may. -/
theorem scope_traced (context : RequestContext) (task : ModelAlias) (started : ℚ) (world : W) :
    ∃ ended, (∀ fuel, settings.maxAttempts ≤ fuel →
        scope host settings policy fuel context task started
          { world, selected := (0, policy.primary context.sensitivity task) } = some ended) ∧
      Traced settings (policy.routesFor context.sensitivity task) ended.2 ∧
      ∀ result, ended.1 = .ok result →
        Pinned (policy.routesFor context.sensitivity task) ended.2.trace result ∧
        result.provenance.promptVersion = context.promptVersion := by
  obtain ⟨rest, hroutes⟩ := policy.routesFor_cons context.sensitivity task
  have hstart (world : W) : Between settings (policy.routesFor context.sensitivity task) 0
      ({ world, selected := (0, policy.primary context.sensitivity task) } : GatewayCall W T) :=
    { route := by simp [hroutes]
      disciplined := ⟨by simp, by simp, by simp [operationsOn]⟩
      attempts := rfl
      retryable := by simp
      later := by simp [operationsOn] }
  rcases henter : host.enter world with ⟨_ | error, entered⟩
  · obtain ⟨ended, htry, hfinished⟩ := tryRoutes_finished host policy
      (started + settings.totalTimeout) (hstart entered) (List.drop_zero)
    obtain ⟨htraced, hpinned⟩ := conclude_finished host context task started hfinished
    refine ⟨leaveScope host (conclude host context task started ended), fun fuel hfuel => ?_, ?_⟩
    · simp only [scope, henter, htry fuel hfuel, Option.map_some]
    · obtain ⟨world', h | ⟨error, h⟩⟩ :=
        leaveScope_cases host (conclude host context task started ended)
      · rw [h]
        exact ⟨⟨htraced.route, htraced.disciplined, htraced.attempts⟩, hpinned⟩
      · rw [h]
        exact ⟨⟨htraced.route, htraced.disciplined, htraced.attempts⟩, by simp⟩
  · exact ⟨(.error error, _), fun fuel _ => by simp only [scope, henter],
      ⟨(hstart entered).route, (hstart entered).disciplined, (hstart entered).attempts⟩, by simp⟩

/-- A call that is closed has sent one event. -/
theorem close_events (client : GatewayClient) (context : RequestContext) (task : ModelAlias)
    (started : ℚ) (s : Settlement T) (c : GatewayCall W T) :
    ∃ event, (client.close host settings context task started s c).2.events =
      client.events ++ [event] := by
  have hobserve (costUsd : Option Cost) :
      (client.observe settings context.runId costUsd).2.events = client.events := by
    unfold GatewayClient.observe
    dsimp only
    split <;> rfl
  unfold GatewayClient.close
  cases s.observes with
  | none => exact ⟨_, rfl⟩
  | some costUsd =>
    dsimp only
    split
    · exact ⟨_, by rw [GatewayClient.record, hobserve]⟩
    · exact ⟨_, by rw [GatewayClient.record, hobserve]⟩

/-- A call that is closed with a result was settled with it. -/
theorem close_ok {client : GatewayClient} {context : RequestContext} {task : ModelAlias}
    {started : ℚ} {s : Settlement T} {c : GatewayCall W T} {result : GatewayResult T}
    (h : (client.close host settings context task started s c).1 = .ok result) :
    s.outcome = .ok result := by
  unfold GatewayClient.close at h
  cases hs : s.observes with
  | none => simpa [hs] using h
  | some costUsd =>
    simp only [hs] at h
    split at h
    · exact h
    · cases h

/-- A result that is settled was concluded. -/
theorem settle_ok {attempts : ℕ} {tried : Except Raised (GatewayResult T)}
    {result : GatewayResult T} (h : (settle attempts tried).outcome = .ok result) :
    tried = .ok result := by
  cases tried with
  | ok r => exact congrArg _ (Except.ok.inj h)
  | error error => cases error <;> cases h

/-- An error of a call has the attempts of it. -/
theorem close_error {client : GatewayClient} {context : RequestContext} {task : ModelAlias}
    {started : ℚ} {tried : Except Raised (GatewayResult T)} {c : GatewayCall W T}
    {error : GatewayError}
    (h : (client.close host settings context task started (settle c.attempts tried) c).1 =
      .error (.gateway error)) : error.attempts = c.attempts := by
  have hsettle : (settle c.attempts tried).outcome = .error (.gateway error) := by
    unfold GatewayClient.close at h
    split at h
    · exact h
    · dsimp only at h
      split at h
      · exact h
      · cases h
  cases tried with
  | ok result => cases hsettle
  | error raised =>
    cases raised <;> simp only [settle, settle.fails, Except.error.injEq, CallError.gateway.injEq,
      reduceCtorEq] at hsettle <;> rw [← hsettle]

/-- What a call of a configured alias keeps to. -/
structure CallDisciplined (settings : GatewaySettings) (policy : AliasPolicy)
    (context : RequestContext) (task : ModelAlias) (client : GatewayClient)
    (call : Invoked W T) : Prop where
  routes : (policy.routesFor context.sensitivity task).length ≤ 2
  disciplined : Disciplined settings (policy.routesFor context.sensitivity task) call.trace
  restricted : context.sensitivity = .restricted → ∀ index route remaining timeout ended,
    .operation index route remaining timeout ended ∈ call.trace →
      route.name = policy.modelName.getD task.version ∨ some route.name = policy.fallbackModelName
  pinned : ∀ result, call.outcome = .ok result →
    Pinned (policy.routesFor context.sensitivity task) call.trace result
  event : ∃ event, call.client.events = client.events ++ [event]

end

/-- A call of a configured alias ends, with what its scope leaves. -/
theorem invokeCore_scope {W T : Type} (host : GatewayHost W T) {settings : GatewaySettings}
    {policy : AliasPolicy} (context : RequestContext) {task : ModelAlias}
    (halias : settings.aliases task = some policy) (client : GatewayClient) (world : W) :
    ∃ ended, (∀ fuel, settings.maxAttempts ≤ fuel →
        scope host settings policy fuel context task (host.clock world).1
          { world := (host.clock world).2
            selected := (0, policy.primary context.sensitivity task) } = some ended ∧
        GatewayClient.invokeCore host settings fuel client context task world = some
          (let closed := client.close host settings context task (host.clock world).1
            (settle ended.2.attempts ended.1) ended.2
          { outcome := closed.1
            client := closed.2
            trace := ended.2.trace
            world := (host.clock ended.2.world).2 })) ∧
      Traced settings (policy.routesFor context.sensitivity task) ended.2 ∧
      ∀ result, ended.1 = .ok result →
        Pinned (policy.routesFor context.sensitivity task) ended.2.trace result ∧
        result.provenance.promptVersion = context.promptVersion := by
  obtain ⟨ended, hscope, htraced, hpinned⟩ := scope_traced host settings policy context task
    (host.clock world).1 (host.clock world).2
  refine ⟨ended, fun fuel hfuel => ⟨hscope fuel hfuel, ?_⟩, htraced, hpinned⟩
  simp only [GatewayClient.invokeCore, GatewayClient.configuredPolicy, halias, hscope fuel hfuel,
    Option.map_some]

/-- A call of the gateway ends. If its alias is configured it is disciplined, and it records one
event ; else it does nothing. -/
theorem gateway_call_discipline {W T : Type} (host : GatewayHost W T) (settings : GatewaySettings)
    (client : GatewayClient) (context : RequestContext) (task : ModelAlias) (world : W) :
    ∃ call, (∀ fuel, settings.maxAttempts ≤ fuel →
        GatewayClient.invokeCore host settings fuel client context task world = some call) ∧
      match settings.aliases task with
      | none => call =
          { outcome := .error (.gateway ⟨.configuration, 0, none⟩), client, trace := [], world }
      | some policy => CallDisciplined settings policy context task client call := by
  cases halias : settings.aliases task with
  | none =>
    exact ⟨_, fun fuel _ => by simp only [GatewayClient.invokeCore,
      GatewayClient.configuredPolicy, halias], rfl⟩
  | some policy =>
    obtain ⟨ended, hcall, htraced, hpinned⟩ :=
      invokeCore_scope host context halias client world
    refine ⟨_, fun fuel hfuel => (hcall fuel hfuel).2, ?_⟩
    exact {
      routes := AliasPolicy.length_routesFor _ _ _
      disciplined := htraced.disciplined
      restricted := fun hs index route remaining timeout e hstep =>
        AliasPolicy.restricted_route
          (List.mem_of_getElem? (hs ▸ (htraced.disciplined.allowed _ hstep).1))
      pinned := fun result h => (hpinned result (settle_ok (close_ok h))).1
      event := close_events .. }

end InvoiceOps
