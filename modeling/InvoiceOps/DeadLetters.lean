import InvoiceOps.Fencing

/-!
# The dead-letter state machine

Under one `RetryConfig`, when an attempt is ended only while it is the last one claimed and a
failure at the last attempt of the budget is terminal, a run's status, its stored retry state
and its events keep to `Track.Sound` : a run is in the dead-letter queue exactly if its row
says why, a waiting run has attempts left, and every cycle ends in at most one dead letter.
A call that returned is `Spent` : it changes nothing if it is made again.

`RetryWorker.process` makes such calls only, so it keeps to the same invariant.
-/

open ReadCommitted

namespace InvoiceOps

variable {config : RetryConfig}

/-- The attempt a call ends is the last one claimed, and a failure that is not terminal leaves
an attempt in the budget. -/
structure Call.Admissible (config : RetryConfig) (s : Attempts) (c : Call) : Prop where
  config_eq : c.store.config = config
  latest : ∀ a, c.op.ends = some a → s.latest a.runId = some a.number
  budget : ∀ a errorType retryable, c.op = .failed a errorType retryable false →
    a.attempt < config.maxAttempts

/-- The cycle an event of the worker names. -/
def cycleOf (e : LedgerEvent) : Option Json :=
  e.payload.get? "cycle"

/-- What the retry state of a dead letter is. -/
structure RetryState.DeadLetter (config : RetryConfig) (state : RetryState) : Prop where
  dead : state.deadLettered = true
  named : state.errorType ≠ none
  attempts_pos : 1 ≤ state.attempts
  attempts_le : state.attempts ≤ config.maxAttempts

/-- What holds of a run between calls : its row, its last claim and its events fit together. -/
structure Track.Sound (config : RetryConfig) (t : Track) : Prop extends t.Counted where
  waiting : t.row.status = .queued ∨ t.row.status = .running → ∃ state,
    RetryState.ofColumn t.row.error = .ok state ∧ state.deadLettered = false ∧
      state.attempts < config.maxAttempts
  failed : t.row.status = .failed → ∃ state : RetryState,
    t.row.error = some state.toJson ∧ state.Valid ∧
    state.DeadLetter config
  settled : t.Settled → t.row.error = none
  notCancelled : t.row.status ≠ .cancelled
  running : t.row.status = .running → ∃ state n,
    RetryState.ofColumn t.row.error = .ok state ∧ t.latest = some (t.redrives.length, n) ∧
      state.attempts ≤ n ∧ 1 ≤ n ∧ n ≤ config.maxAttempts
  deadCycles : (t.deadLetters.map cycleOf).Nodup
  deadCycles_le : ∀ e ∈ t.deadLetters, ∃ c : ℕ, cycleOf e = some (.num c) ∧
    c ≤ t.redrives.length ∧ (t.row.status ≠ .failed → c < t.redrives.length)

section

variable {store : PostgresAttemptStore} {r : Uuid} {op : Operation} {returned : Bool}
  {t t' : Track} {s : Attempts} {d : Db} {c : Call} {calls : List Call}

/-- Nothing is wrong with a run that was never tried. -/
theorem Untried.sound (h : Untried d) (ht : (Attempts.start d).track r = some t) :
    t.Sound config := by
  obtain ⟨hst, herr, hred, hdead, -⟩ := h.track ht
  have hone := config.one_le_maxAttempts
  refine ⟨h.counted ht, fun _ => ⟨RetryState.fresh 0, by rw [herr]; rfl, rfl, ?_⟩,
    fun hf => ?_, fun _ => herr, ?_, fun hrun => ?_, ?_, ?_⟩
  · exact hone
  · rw [hst] at hf
    cases hf
  · rw [hst]
    decide
  · rw [hst] at hrun
    cases hrun
  · rw [hdead]
    exact List.nodup_nil
  · rw [hdead]
    intro e he
    cases he

/-- One more event is one more dead letter if it is of that type. -/
theorem deadLetters_append (row : RunRow) (events : List LedgerEvent) (latest : Option (ℕ × ℕ))
    (e : LedgerEvent) :
    Track.deadLetters ⟨row, events ++ [e], latest⟩ =
      Track.deadLetters ⟨row, events, latest⟩ ++
        if e.eventType = deadLettered then [e] else [] := by
  by_cases h : e.eventType = deadLettered <;> simp [Track.deadLetters, Track.ofType, h]

/-- What an operation on the run `r` may do under `config`. -/
structure Operation.Admissible (config : RetryConfig) (op : Operation) (r : Uuid) (t : Track) :
    Prop where
  latest : ∀ a, op.ends = some a → a.runId = r → t.latest = some a.number
  budget : ∀ a errorType retryable, op = .failed a errorType retryable false →
    a.attempt < config.maxAttempts

/-- A call that is admissible ends the attempt that is current. -/
theorem Operation.Admissible.current (h : op.Admissible config r t) : op.Current r t :=
  fun a ha hr _ => h.latest a ha hr

/-! ### What each operation keeps -/

namespace Track.Sound

/-- A run that has not failed has no dead letter of its present cycle. -/
theorem deadCycles_lt (h : t.Sound config) (hne : t.row.status ≠ .failed) :
    ∀ e ∈ t.deadLetters, ∃ c : ℕ, cycleOf e = some (.num c) ∧ c < t.redrives.length := by
  intro e he
  obtain ⟨c, hc, -, hlt⟩ := h.deadCycles_le e he
  exact ⟨c, hc, hlt hne⟩

/-- Whatever becomes of its row, as long as it has the same events. -/
theorem deadCycles_of_events (h : t.Sound config) (hne : t.row.status ≠ .failed) (row : RunRow)
    (latest : Option (ℕ × ℕ)) :
    ∀ e ∈ Track.deadLetters ⟨row, t.events, latest⟩, ∃ c : ℕ, cycleOf e = some (.num c) ∧
      c ≤ (Track.redrives ⟨row, t.events, latest⟩).length ∧
        (row.status ≠ .failed → c < (Track.redrives ⟨row, t.events, latest⟩).length) := by
  intro e he
  obtain ⟨c, hc, hlt⟩ := h.deadCycles_lt hne e he
  exact ⟨c, hc, Nat.le_of_lt hlt, fun _ => hlt⟩

/-- The last claim of a running run is of its present cycle, and in the budget. -/
theorem number_of_running (h : t.Sound config) (running : t.row.status = .running)
    {a : RunAttempt} (hlatest : t.latest = some a.number) :
    a.cycle = t.redrives.length ∧ 1 ≤ a.attempt ∧ a.attempt ≤ config.maxAttempts := by
  obtain ⟨state, n, -, hlatest', -, hn, hmax⟩ := h.running running
  rw [hlatest] at hlatest'
  obtain ⟨hcycle, rfl⟩ := Prod.mk.inj (Option.some.inj hlatest')
  exact ⟨hcycle, hn, hmax⟩

/-- A claim within the budget keeps a run sound. -/
theorem claim_kept (h : t.Sound config) {state : RetryState}
    (waiting : t.row.status = .queued ∨ t.row.status = .running)
    (stored : RetryState.ofColumn t.row.error = .ok state)
    (budget : state.attempts < config.maxAttempts)
    (hcounted : Track.Counted
      { t with row := store.claimed t.row, latest := some (state.cycle, state.attempts + 1) }) :
    Track.Sound config
      { t with row := store.claimed t.row, latest := some (state.cycle, state.attempts + 1) } := by
  have hopen : ¬t.Settled := by
    rintro (hs | hs) <;> rw [hs] at waiting <;> simp at waiting
  have hnotFailed : t.row.status ≠ .failed := by
    intro hf
    rw [hf] at waiting
    simp at waiting
  obtain ⟨state', hstate', hdead, -⟩ := h.waiting waiting
  obtain rfl : state' = state := Except.ok.inj (hstate'.symm.trans stored)
  obtain ⟨state'', hstate'', hcycle⟩ := h.stored hopen
  obtain rfl : state'' = state' := Except.ok.inj (hstate''.symm.trans stored)
  refine ⟨hcounted, fun _ => ⟨state'', stored, hdead, budget⟩, nofun, fun hs => ?_, nofun,
    fun _ => ?_, h.deadCycles, h.deadCycles_of_events hnotFailed _ _⟩
  · rcases hs with hs | hs <;> cases hs
  · refine ⟨state'', state''.attempts + 1, stored, ?_, by omega, by omega, budget⟩
    change some (state''.cycle, _) = some (t.redrives.length, _)
    rw [hcycle]

/-- A run that ends well stays sound. -/
theorem settle_kept (h : t.Sound config) {status : RunStatus} (hne : t.row.status ≠ .failed)
    (status_eq : status = .paused ∨ status = .completed)
    (hcounted : Track.Counted { t with row := store.settled t.row status }) :
    Track.Sound config { t with row := store.settled t.row status } := by
  refine ⟨hcounted, fun hs => ?_, fun hs => ?_, fun _ => rfl, fun hs => ?_, fun hs => ?_,
    h.deadCycles, h.deadCycles_of_events hne _ _⟩
  · change status = _ ∨ status = _ at hs
    rcases status_eq with rfl | rfl <;> simp at hs
  · change status = _ at hs
    rcases status_eq with rfl | rfl <;> cases hs
  · change status = _ at hs
    rcases status_eq with rfl | rfl <;> cases hs
  · change status = _ at hs
    rcases status_eq with rfl | rfl <;> cases hs

/-- A failure that will be retried keeps a run sound. -/
theorem retry_kept (h : t.Sound config) {a : RunAttempt} {errorType : String} {retryable : Bool}
    (running : t.row.status = .running)
    (valid : (PostgresAttemptStore.failure a errorType retryable false).Valid)
    (hlatest : t.latest = some a.number) (budget : a.attempt < config.maxAttempts)
    (hcounted : Track.Counted
      { t with row := store.afterFailure t.row
                (PostgresAttemptStore.failure a errorType retryable false) }) :
    Track.Sound config
      { t with row := store.afterFailure t.row
                (PostgresAttemptStore.failure a errorType retryable false) } := by
  obtain ⟨hcycle, hone, hmax⟩ := h.number_of_running running hlatest
  have hstored := RetryState.ofColumn_toJson valid
  refine ⟨hcounted, fun _ => ⟨_, hstored, rfl, budget⟩, nofun, fun hs => ?_, nofun, fun _ => ?_,
    h.deadCycles, h.deadCycles_of_events (by rw [running]; decide) _ _⟩
  · rcases hs with hs | hs <;> cases hs
  · refine ⟨_, a.attempt, hstored, ?_, Nat.le_refl _, hone, hmax⟩
    change t.latest = some (t.redrives.length, a.attempt)
    rw [hlatest, ← hcycle]
    rfl

/-- A failure that will not adds one dead letter to a cycle without one. -/
theorem deadLetter_kept (h : t.Sound config) {a : RunAttempt} {errorType : String}
    {retryable : Bool} {e : LedgerEvent} (running : t.row.status = .running)
    (valid : (PostgresAttemptStore.failure a errorType retryable true).Valid)
    (type : e.eventType = deadLettered)
    (payload : e.payload = (PostgresAttemptStore.deadLetterEvent a errorType retryable).payload)
    (hlatest : t.latest = some a.number)
    (hcounted : Track.Counted
      { t with
        row := store.afterFailure t.row (PostgresAttemptStore.failure a errorType retryable true)
        events := t.events ++ [e] }) :
    Track.Sound config
      { t with
        row := store.afterFailure t.row (PostgresAttemptStore.failure a errorType retryable true)
        events := t.events ++ [e] } := by
  obtain ⟨hcycle, hone, hmax⟩ := h.number_of_running running hlatest
  have hlt := h.deadCycles_lt (by rw [running]; decide)
  have hred : Track.redrives { t with
      row := store.afterFailure t.row (PostgresAttemptStore.failure a errorType retryable true)
      events := t.events ++ [e] } = t.redrives := by
    rw [redrives_append, if_neg (by rw [type]; decide), List.append_nil]
    rfl
  have hdead : Track.deadLetters { t with
      row := store.afterFailure t.row (PostgresAttemptStore.failure a errorType retryable true)
      events := t.events ++ [e] } = t.deadLetters ++ [e] := by
    rw [deadLetters_append, if_pos type]
    rfl
  have hof : cycleOf e = some (.num (a.cycle : ℕ)) := by
    rw [cycleOf, payload]
    rfl
  refine ⟨hcounted, fun hs => ?_, fun _ => ?_, fun hs => ?_, nofun, nofun, ?_, ?_⟩
  · rcases hs with hs | hs <;> cases hs
  · exact ⟨_, rfl, valid, rfl, nofun, hone, hmax⟩
  · rcases hs with hs | hs <;> cases hs
  · -- the earlier dead letters are of earlier cycles
    rw [hdead, List.map_append, List.map_singleton]
    refine List.nodup_append.mpr ⟨h.deadCycles, List.nodup_singleton _, fun x hx y hy => ?_⟩
    obtain ⟨e', he', rfl⟩ := List.mem_map.mp hx
    obtain ⟨c, hc, hlt⟩ := hlt e' he'
    rw [List.mem_singleton.mp hy, hc, hof]
    intro heq
    simp only [Option.some.injEq, Json.num.injEq] at heq
    omega
  · rw [hred, hdead]
    intro e' he'
    rcases List.mem_append.mp he' with he' | he'
    · obtain ⟨c, hc, hlt⟩ := hlt e' he'
      exact ⟨c, hc, Nat.le_of_lt hlt, fun _ => hlt⟩
    · rw [List.mem_singleton.mp he']
      exact ⟨a.cycle, hof, Nat.le_of_eq hcycle, fun hs => absurd rfl hs⟩

/-- A redrive opens the next cycle. -/
theorem redrive_kept (h : t.Sound config) {cycle : ℕ} {e : LedgerEvent}
    (type : e.eventType = redriven)
    (hcounted : Track.Counted
      { t with row := PostgresAttemptStore.requeued t.row cycle, events := t.events ++ [e] }) :
    Track.Sound config
      { t with row := PostgresAttemptStore.requeued t.row cycle, events := t.events ++ [e] } := by
  have hred : Track.redrives { t with
      row := PostgresAttemptStore.requeued t.row cycle
      events := t.events ++ [e] } = t.redrives ++ [e] := by
    rw [redrives_append, if_pos type]
    rfl
  have hdead : Track.deadLetters { t with
      row := PostgresAttemptStore.requeued t.row cycle
      events := t.events ++ [e] } = t.deadLetters := by
    rw [deadLetters_append, if_neg (by rw [type]; decide), List.append_nil]
    rfl
  refine ⟨hcounted, fun _ => ⟨RetryState.fresh cycle, ?_, rfl, config.one_le_maxAttempts⟩, nofun,
    fun hs => ?_, nofun, nofun, ?_, ?_⟩
  · exact RetryState.ofColumn_toJson (RetryState.valid_fresh _)
  · rcases hs with hs | hs <;> cases hs
  · rw [hdead]
    exact h.deadCycles
  · rw [hdead, hred, List.length_append, List.length_singleton]
    intro e' he'
    obtain ⟨c, hc, hle, -⟩ := h.deadCycles_le e' he'
    exact ⟨c, hc, by omega, fun _ => by omega⟩

/-- So every operation that `config` admits keeps it. -/
theorem moved (h : t.Sound config) (hm : Moved store r op returned t t')
    (hconfig : store.config = config) (hop : op.Admissible config r t) : t'.Sound config := by
  have hcounted := h.toCounted.moved hm hop.current
  cases hm with
  | other => exact h
  | raised => exact h
  | found => exact h
  | claimed continuation t state waiting stored budget =>
    exact h.claim_kept waiting stored (hconfig ▸ budget) hcounted
  | settled a result t status run alters status_eq =>
    exact h.settle_kept (by rw [alters.1]; decide) status_eq hcounted
  | retrying a errorType retryable t run running valid =>
    exact h.retry_kept running valid (hop.latest a rfl run) (hop.budget a errorType retryable rfl)
      hcounted
  | deadLettered a errorType retryable t e run running valid type payload =>
    exact h.deadLetter_kept running valid type payload (hop.latest a rfl run) hcounted
  | redriven key actorId reason t state e failed stored dead unused type payload =>
    exact h.redrive_kept type hcounted

end Track.Sound

/-! ## Calls made again -/

/-- The attempt `number` has been claimed and recorded, or overtaken. -/
def RetryState.Past (state : RetryState) (number : ℕ × ℕ) : Prop :=
  number.1 < state.cycle ∨ number.1 = state.cycle ∧ number.2 ≤ state.attempts

/-- Made again, the operation finds nothing to change : while its attempt is the last claim it
does not alter the row, no later claim takes its number, and its key is in the ledger. -/
structure Operation.Spent (op : Operation) (r : Uuid) (t : Track) : Prop where
  past : ∀ a, op.ends = some a → a.runId = r → t.Settled ∨
    ∃ state, RetryState.ofColumn t.row.error = .ok state ∧ state.Past a.number
  unaltered : ∀ a, op.ends = some a → a.runId = r → t.latest = some a.number →
    ¬op.Alters t.row
  keyed : ∀ key actorId reason, op = .redrive r key actorId reason → t.RedrivenWith key

/-- A call names the run of the attempt it ends. -/
theorem Operation.runId_of_ends {a : RunAttempt} (h : op.ends = some a) : op.runId = a.runId := by
  cases op <;> cases h <;> rfl

/-- A call that alters a row finds it unsettled. -/
theorem Operation.Alters.not_settled (h : op.Alters t.row) : ¬t.Settled := by
  rintro (hs | hs) <;> simp [h.1] at hs

/-- The attempt of a settled run is spent. -/
theorem Operation.spent_of_settled {a : RunAttempt} (ha : op.ends = some a) (h : t.Settled) :
    op.Spent r t where
  past _ _ _ := .inl h
  unaltered _ _ _ _ halters := halters.not_settled h
  keyed key actorId reason hop := by rw [hop] at ha; cases ha

/-- What `failed` left is spent. -/
theorem Operation.spent_of_failure {a : RunAttempt} {errorType : String}
    {retryable terminal : Bool}
    (hvalid : (PostgresAttemptStore.failure a errorType retryable terminal).Valid)
    (hst : t.row.status = PostgresAttemptStore.failedStatus terminal)
    (herr : t.row.error =
      some (PostgresAttemptStore.failure a errorType retryable terminal).toJson) :
    (Operation.failed a errorType retryable terminal).Spent r t where
  past _ := by
    rintro ⟨⟩ -
    refine .inr ⟨_, by rw [herr]; exact RetryState.ofColumn_toJson hvalid, .inr ⟨rfl, ?_⟩⟩
    exact Nat.le_refl _
  unaltered _ := by
    rintro ⟨⟩ - - ⟨hrunning, -, hterm | hne⟩
    · rw [hst, hterm] at hrunning
      cases hrunning
    · exact hne herr
  keyed _ _ _ hop := by cases hop

/-- A call that returned is spent. -/
theorem Moved.spent (hm : Moved store r op true t t') : op.Spent r t' := by
  cases hm with
  | other _ _ _ hne =>
    refine ⟨fun a ha hr => ?_, fun a ha hr => ?_, ?_⟩
    · exact absurd ((Operation.runId_of_ends ha).trans hr) hne
    · exact absurd ((Operation.runId_of_ends ha).trans hr) hne
    · rintro key actorId reason rfl
      exact absurd rfl hne
  | found _ _ hfound =>
    cases op with
    | begin => exact ⟨nofun, nofun, nofun⟩
    | settle a result => exact Operation.spent_of_settled rfl hfound
    | failed a errorType retryable terminal =>
      exact Operation.spent_of_failure hfound.1 hfound.2.1 hfound.2.2
    | redrive run key actorId reason =>
      refine ⟨nofun, nofun, ?_⟩
      rintro key actorId reason ⟨⟩
      exact hfound
  | claimed => exact ⟨nofun, nofun, nofun⟩
  | settled a result t status run alters status_eq =>
    exact Operation.spent_of_settled rfl status_eq.symm
  | retrying a errorType retryable t run running valid =>
    exact Operation.spent_of_failure valid rfl rfl
  | deadLettered a errorType retryable t e run running valid type payload =>
    exact Operation.spent_of_failure valid rfl rfl
  | redriven key actorId reason t state e failed stored dead unused type payload =>
    refine ⟨nofun, nofun, ?_⟩
    rintro key actorId reason ⟨⟩
    refine ⟨e, ?_, ?_⟩
    · rw [redrives_append, if_pos type]
      exact List.mem_append_right _ (List.mem_singleton_self e)
    · rw [payload]
      simp [Json.hasText, PostgresAttemptStore.redrivePayload, Json.get?]

/-- A redrive that was made stays made. -/
theorem Moved.redrivenWith (hm : Moved store r op returned t t') {key : String}
    (h : t.RedrivenWith key) : t'.RedrivenWith key := by
  obtain ⟨e, he, hkey⟩ := h
  refine ⟨e, ?_, hkey⟩
  cases hm with
  | deadLettered => exact List.mem_filter.mpr ⟨List.mem_append_left _ (List.mem_of_mem_filter he),
      (List.mem_filter.mp he).2⟩
  | redriven => exact List.mem_filter.mpr ⟨List.mem_append_left _ (List.mem_of_mem_filter he),
      (List.mem_filter.mp he).2⟩
  | _ => exact he

/-- `op'` does not end the attempt `op` ends in another way. -/
def Operation.Agrees (op op' : Operation) : Prop :=
  ∀ a a', op.ends = some a → op'.ends = some a' → a'.runId = a.runId → a'.number = a.number →
    op' = op

/-- The stored state does not fall behind an attempt that was claimed after it. -/
theorem Track.Sound.past_of_claimed (h : t.Sound config) (running : t.row.status = .running)
    {a b : RunAttempt} (hlatest : t.latest = some b.number) {op : Operation}
    (hs : op.Spent r t) (ha : op.ends = some a) (hr : a.runId = r) {errorType : String}
    {retryable terminal : Bool} :
    (PostgresAttemptStore.failure b errorType retryable terminal).Past a.number := by
  obtain ⟨state, n, hstate, hlatest', hle, -, -⟩ := h.running running
  obtain ⟨state', hstate', hcycle⟩ := h.stored (by rintro (hs | hs) <;> simp [hs] at running)
  obtain rfl : state' = state := Except.ok.inj (hstate'.symm.trans hstate)
  rw [hlatest] at hlatest'
  obtain ⟨hc, rfl⟩ := Prod.mk.inj (Option.some.inj hlatest')
  rcases hs.past a ha hr with hs | ⟨state'', hstate'', hpast⟩
  · rcases hs with hs | hs <;> simp [hs] at running
  · obtain rfl : state'' = state' := Except.ok.inj (hstate''.symm.trans hstate)
    change a.number.1 < b.cycle ∨ a.number.1 = b.cycle ∧ a.number.2 ≤ b.attempt
    rcases hpast with hlt | ⟨heq, hle'⟩
    · exact .inl (by omega)
    · exact .inr ⟨by omega, by omega⟩

/-- It stays spent under admissible calls that do not end its attempt differently. -/
theorem Operation.Spent.moved (hs : op.Spent r t) (h : t.Sound config) {op' : Operation}
    (hm : Moved store r op' returned t t') (hop : op'.Admissible config r t)
    (hagree : op.Agrees op') : op.Spent r t' := by
  have hkeyed : ∀ key actorId reason, op = .redrive r key actorId reason →
      t'.RedrivenWith key := fun key actorId reason heq =>
    hm.redrivenWith (hs.keyed key actorId reason heq)
  cases hm with
  | other => exact hs
  | raised => exact hs
  | found => exact hs
  | claimed continuation t state waiting stored budget =>
    have hpast : ∀ a, op.ends = some a → a.runId = r → state.Past a.number := by
      intro a ha hr
      rcases hs.past a ha hr with hset | ⟨state', hstate', hpast⟩
      · rcases hset with hset | hset <;> rw [hset] at waiting <;> simp at waiting
      · obtain rfl : state' = state := Except.ok.inj (hstate'.symm.trans stored)
        exact hpast
    refine ⟨fun a ha hr => .inr ⟨state, stored, hpast a ha hr⟩, fun a ha hr hlatest => ?_, hkeyed⟩
    -- the new claim is past every recorded attempt
    have hnumber : (state.cycle, state.attempts + 1) = a.number := Option.some.inj hlatest
    have := hpast a ha hr
    rw [← hnumber, RetryState.Past] at this
    dsimp only at this
    omega
  | settled b result t status run alters status_eq =>
    have hset : Track.Settled { t with row := store.settled t.row status } := status_eq.symm
    exact ⟨fun _ _ _ => .inl hset, fun _ _ _ _ halters => halters.not_settled hset, hkeyed⟩
  | retrying b errorType retryable t run running valid =>
    have hlatest := hop.latest b rfl run
    refine ⟨fun a ha hr => .inr ⟨_, RetryState.ofColumn_toJson valid,
      h.past_of_claimed running hlatest hs ha hr⟩, fun a ha hr hnumber => ?_, hkeyed⟩
    change t.latest = some a.number at hnumber
    rw [hlatest] at hnumber
    obtain rfl := hagree a b ha rfl (run.trans hr.symm) (Option.some.inj hnumber)
    obtain rfl := Option.some.inj ha
    exact (Operation.spent_of_failure (r := r) valid rfl rfl).unaltered _ rfl hr hlatest
  | deadLettered b errorType retryable t e run running valid type payload =>
    have hlatest := hop.latest b rfl run
    refine ⟨fun a ha hr => .inr ⟨_, RetryState.ofColumn_toJson valid,
      h.past_of_claimed running hlatest hs ha hr⟩, fun a ha hr _ halters => ?_, hkeyed⟩
    cases halters.1
  | redriven key actorId reason t state e failed stored dead unused type payload =>
    refine ⟨fun a ha hr => .inr ⟨_, RetryState.ofColumn_toJson (RetryState.valid_fresh _), ?_⟩,
      fun a ha hr _ halters => ?_, hkeyed⟩
    · rcases hs.past a ha hr with hset | ⟨state', hstate', hpast⟩
      · rcases hset with hset | hset <;> simp [hset] at failed
      · obtain rfl : state' = state := Except.ok.inj (hstate'.symm.trans stored)
        refine .inl ?_
        change a.number.1 < state'.cycle + 1
        rcases hpast with hlt | ⟨heq, -⟩ <;> omega
    · cases halters.1

/-- A spent call changes nothing. -/
theorem Operation.Spent.unchanged (hs : op.Spent r t) (h : t.Counted)
    (hm : Moved store r op returned t t') (hbegin : ∀ continuation, op ≠ .begin r continuation)
    (hop : ∀ a, op.ends = some a → a.runId = r → t.latest = some a.number) :
    t'.row = t.row ∧ t'.events = t.events := by
  cases hends : op.ends with
  | some a => exact hm.unchanged h hends fun hr => hs.unaltered a hends hr (hop a hends hr)
  | none =>
    cases hm with
    | other => exact ⟨rfl, rfl⟩
    | raised => exact ⟨rfl, rfl⟩
    | found => exact ⟨rfl, rfl⟩
    | claimed continuation => exact absurd rfl (hbegin continuation)
    | redriven key actorId reason t state e failed stored dead unused type payload =>
      exact absurd (hs.keyed key actorId reason rfl) unused
    | _ => cases hends

/-! ## Runs of admissible calls -/

/-- What an admissible call does is admissible on its run. -/
theorem Call.Admissible.operation (h : c.Admissible config s) (ht : s.track r = some t) :
    c.op.Admissible config r t := by
  refine ⟨fun a ha hr => ?_, h.budget⟩
  subst hr
  rw [← (run?_of_track ht).2.2]
  exact h.latest a ha

/-- Every admissible call keeps every run sound. -/
theorem sound_step (ht : ∃ t, s.track r = some t ∧ t.Sound config)
    (hc : c.Admissible config s) : ∃ t, (s.step c).track r = some t ∧ t.Sound config := by
  obtain ⟨t, ht, hsound⟩ := ht
  obtain ⟨t', ht', hm⟩ := step_moved (c := c) ht
  exact ⟨t', ht', hsound.moved hm hc.config_eq (hc.operation ht)⟩

/-- So does every sequence of them. -/
theorem sound_run (h₀ : Untried d) (h : Trace.Meets Attempts.step (Call.Admissible config)
      (Attempts.start d) calls) {row : RunRow} (hr : d.run? r = some row) :
    ∃ t, (Trace.run Attempts.step (Attempts.start d) calls).track r = some t ∧
      t.Sound config := by
  have hstep : ∀ s c, (∃ t, s.track r = some t ∧ t.Sound config) → Call.Admissible config s c →
      ∃ t, (s.step c).track r = some t ∧ t.Sound config := fun s c => sound_step
  have ht : (Attempts.start d).track r = some ⟨row, d.eventsOf r, none⟩ := by
    rw [Attempts.track, Attempts.start, hr, Option.map_some]
  exact Trace.Meets.inv hstep ⟨_, ht, h₀.sound ht⟩ h

/-- No call adds or removes a run. -/
theorem ids_run {s : Attempts} : (Trace.run Attempts.step s calls).db.runs.map RunRow.id =
    s.db.runs.map RunRow.id := by
  induction calls generalizing s with
  | nil => rfl
  | cons c calls ih => exact ih.trans step_ids

/-- A row of a state reached is the row of a run that was there. -/
theorem run?_of_mem (h₀ : Untried d) {row : RunRow}
    (hrow : row ∈ (Trace.run Attempts.step (Attempts.start d) calls).db.runs) :
    (Trace.run Attempts.step (Attempts.start d) calls).db.run? row.id = some row ∧
      ∃ row₀, d.run? row.id = some row₀ := by
  have hids : (Trace.run Attempts.step (Attempts.start d) calls).db.runs.map RunRow.id =
      d.runs.map RunRow.id := ids_run
  refine ⟨lookup_of_mem (by rw [hids]; exact h₀.ids) hrow, ?_⟩
  have hmem := List.mem_map_of_mem (f := RunRow.id) hrow
  rw [hids] at hmem
  obtain ⟨row₀, hrow₀, hid⟩ := List.mem_map.mp hmem
  exact ⟨row₀, by rw [← hid]; exact lookup_of_mem h₀.ids hrow₀⟩

/-- A call that returned stays spent while the calls agree with it. -/
theorem spent_run {op : Operation} : ∀ {calls : List Call} {s : Attempts},
    Trace.Meets Attempts.step (Call.Admissible config) s calls →
    (∀ c ∈ calls, op.Agrees c.op) →
    (∃ t, s.track r = some t ∧ t.Sound config ∧ op.Spent r t) →
    ∃ t, (Trace.run Attempts.step s calls).track r = some t ∧ t.Sound config ∧ op.Spent r t
  | [], _, _, _, ht => ht
  | c :: _, _, h, hagree, ⟨_, ht, hsound, hspent⟩ => by
    obtain ⟨t', ht', hm⟩ := step_moved (c := c) ht
    have hop := h.1.operation ht
    have hrest := spent_run h.2 (fun c hc => hagree c (List.mem_cons_of_mem _ hc))
      ⟨t', ht', hsound.moved hm h.1.config_eq hop,
        hspent.moved hsound hm hop (hagree c List.mem_cons_self)⟩
    exact hrest

/-! ## What the queue shows -/

/-- The budget of a waiting run is not used up. -/
theorem Track.Sound.claim_ne (h : t.Sound config) (hconfig : store.config = config)
    (waiting : t.row.status = .queued ∨ t.row.status = .running) :
    store.claim t.row ≠
      .error (.new .workerError "Retry budget is exhausted; run needs recovery") := by
  obtain ⟨state, hstate, -, hlt⟩ := h.waiting waiting
  have hle : ¬store.config.maxAttempts ≤ state.attempts := by
    rw [hconfig]
    omega
  unfold PostgresAttemptStore.claim
  rw [hstate]
  change (if store.config.maxAttempts ≤ state.attempts then _ else _) ≠ _
  rw [if_neg hle]
  -- what is left can only fail on the schema of the attempt
  have hupdate : PostgresAttemptStore.updateRun (store.claimed t.row) =
      .ok [.setRun (store.claimed t.row)] := rfl
  rw [hupdate]
  change (RunAttempt.validate t.row (state.attempts + 1) state.cycle >>= _) ≠ _
  unfold RunAttempt.validate
  split
  · change Except.ok _ ≠ Except.error _
    simp
  · change Except.error _ ≠ Except.error _
    simp

/-- A dead letter can be shown. -/
theorem Track.Sound.deadLetter (h : t.Sound config) (hf : t.row.status = .failed) :
    ∃ letter, PostgresAttemptStore.deadLetter t.row = .ok letter := by
  obtain ⟨state, herr, hvalid, hdead⟩ := h.failed hf
  obtain ⟨errorType, hname⟩ := Option.ne_none_iff_exists'.mp hdead.named
  refine ⟨⟨t.row.id, t.row.invoiceId, state.attempts, state.cycle, errorType,
    state.retryable.getD false, hdead.attempts_pos⟩, ?_⟩
  unfold PostgresAttemptStore.deadLetter
  rw [herr, RetryState.ofColumn_toJson hvalid]
  simp only [bind, Except.bind, hdead.dead, hname]
  exact dif_pos hdead.attempts_pos

/-- Checks that pass one by one pass together. -/
theorem mapM_ok {α β : Type} {f : α → Except Exn β} : ∀ {xs : List α},
    (∀ x ∈ xs, ∃ y, f x = .ok y) → ∃ ys, xs.mapM f = .ok ys
  | [], _ => ⟨[], rfl⟩
  | x :: xs, h => by
    obtain ⟨y, hy⟩ := h x List.mem_cons_self
    obtain ⟨ys, hys⟩ := mapM_ok fun x hx => h x (List.mem_cons_of_mem _ hx)
    exact ⟨y :: ys, by rw [List.mapM_cons, hy, hys]; rfl⟩

end

end InvoiceOps
