import InvoiceOps.Attempts

/-!
# Superseded attempts

A worker whose lease expired may still call the store with its old attempt. The store looks
at the status of the row and not at the attempt, so such a call goes through whenever another
worker has the run running (`stale_failure`). `Call.Fenced` rules just these calls out, and
in every run without them a superseded attempt changes nothing, cycles only grow and no two
redrives lead to the same cycle (`superseded_attempts_fenced`).
-/

open ReadCommitted

namespace InvoiceOps

/-- No attempt has been handed out : every run waits, and the ledger has no event of the
worker. -/
structure Untried (d : Db) : Prop where
  ids : (d.runs.map RunRow.id).Nodup
  queued : ∀ row ∈ d.runs, row.status = .queued ∧ row.error = none
  events : ∀ e ∈ d.ledger, e.eventType ≠ deadLettered ∧ e.eventType ≠ redriven

namespace Call

/-- The call ends an attempt that is not the run's most recently claimed one. -/
def Superseded (s : Attempts) (c : Call) : Prop :=
  ∃ a, c.op.ends = some a ∧ s.latest a.runId ≠ some a.number

/-- A superseded attempt does not find the run running with something to change. -/
def Fenced (s : Attempts) (c : Call) : Prop :=
  ∀ a, c.op.ends = some a → s.latest a.runId ≠ some a.number →
    ∀ row, s.db.run? a.runId = some row → ¬c.op.Alters row

end Call

/-! ## Cycles are counted by redrives -/

/-- The cycle a redrive begins. -/
def toCycle (e : LedgerEvent) : Option Json :=
  e.payload.get? "to_cycle"

/-- The stored cycle of a run that is not settled is the number of its redrives, each of
which led to the next cycle. -/
structure Track.Counted (t : Track) : Prop where
  toCycles : t.redrives.map toCycle =
    (List.range t.redrives.length).map fun k => some (.num (k + 1 : ℕ))
  stored : ¬t.Settled → ∃ state, RetryState.ofColumn t.row.error = .ok state ∧
    state.cycle = t.redrives.length
  claimed : t.row.status = .running → t.row.completedAt = none ∧
    ∃ n, t.latest = some (t.redrives.length, n)

section

variable {store : PostgresAttemptStore} {r : Uuid} {op : Operation} {returned : Bool}
  {t t' : Track}
  {s : Attempts} {d : Db} {c : Call} {calls : List Call}

/-- A run that was never tried is waiting, and nothing has happened to it. -/
theorem Untried.track (h : Untried d) {r : Uuid} (ht : (Attempts.start d).track r = some t) :
    t.row.status = .queued ∧ t.row.error = none ∧ t.redrives = [] ∧ t.deadLetters = [] ∧
      t.latest = none := by
  unfold Attempts.track at ht
  obtain ⟨row, hrow, rfl⟩ := Option.map_eq_some_iff.mp ht
  obtain ⟨hst, herr⟩ := h.queued row (mem_of_lookup hrow)
  have hev : ∀ v, (∀ e ∈ d.ledger, e.eventType ≠ v) →
      (d.eventsOf r).filter (fun e => e.eventType = v) = [] := by
    intro v hv
    rw [List.filter_eq_nil_iff]
    intro e he
    simpa using hv e (List.mem_of_mem_filter he)
  exact ⟨hst, herr, hev _ fun e he => (h.events e he).2, hev _ fun e he => (h.events e he).1, rfl⟩

/-- It is counted. -/
theorem Untried.counted (h : Untried d) {r : Uuid} (ht : (Attempts.start d).track r = some t) :
    t.Counted := by
  obtain ⟨hst, herr, hred, -, -⟩ := h.track ht
  refine ⟨by rw [hred]; rfl, fun _ => ⟨RetryState.fresh 0, by rw [herr]; rfl, by rw [hred]; rfl⟩,
    fun hrun => ?_⟩
  rw [hst] at hrun
  cases hrun

/-- One more event is one more redrive if it is of that type. -/
theorem redrives_append (row : RunRow) (events : List LedgerEvent) (latest : Option (ℕ × ℕ))
    (e : LedgerEvent) :
    Track.redrives ⟨row, events ++ [e], latest⟩ =
      Track.redrives ⟨row, events, latest⟩ ++ if e.eventType = redriven then [e] else [] := by
  by_cases h : e.eventType = redriven <;> simp [Track.redrives, Track.ofType, h]

/-- An attempt of the run that an operation ends, changing its row, was claimed last. -/
def Operation.Current (op : Operation) (r : Uuid) (t : Track) : Prop :=
  ∀ a, op.ends = some a → a.runId = r → op.Alters t.row → t.latest = some a.number

/-- Every call whose attempt is current keeps the count. -/
theorem Track.Counted.moved (h : t.Counted) (hm : Moved store r op returned t t')
    (hop : op.Current r t) :
    t'.Counted := by
  cases hm with
  | other => exact h
  | raised => exact h
  | found => exact h
  | claimed continuation t state waiting stored budget =>
    have hopen : ¬t.Settled := by
      rintro (hs | hs) <;> rw [hs] at waiting <;> simp at waiting
    obtain ⟨state', hstate', hcycle⟩ := h.stored hopen
    obtain rfl : state' = state := by
      rw [hstate'] at stored
      exact Except.ok.inj stored
    refine ⟨h.toCycles, fun _ => ⟨state', hstate', hcycle⟩, fun _ => ⟨rfl, state'.attempts + 1, ?_⟩⟩
    change some (state'.cycle, state'.attempts + 1) = some (t.redrives.length, _)
    rw [hcycle]
  | settled a result t status run alters status_eq =>
    refine ⟨h.toCycles, fun hopen => absurd ?_ hopen, fun hrun => ?_⟩
    · exact status_eq.symm
    · change status = .running at hrun
      rcases status_eq with rfl | rfl <;> cases hrun
  | retrying a errorType retryable t run running valid =>
    obtain ⟨hcompleted, n, hlatest⟩ := h.claimed running
    have hstored := RetryState.ofColumn_toJson valid
    refine ⟨h.toCycles, fun _ => ⟨_, hstored, ?_⟩, fun _ => ⟨rfl, n, hlatest⟩⟩
    -- an attempt that writes something new is the last claim, else the row already has its cycle
    by_cases herr : t.row.error =
        some (PostgresAttemptStore.failure a errorType retryable false).toJson
    · obtain ⟨state, hstate, hcycle⟩ := h.stored (by rintro (hs | hs) <;> simp [hs] at running)
      rw [herr, hstored] at hstate
      rw [Except.ok.inj hstate]
      exact hcycle
    · have hnumber := hop a rfl run ⟨running, valid, .inr herr⟩
      rw [hlatest] at hnumber
      exact (Prod.mk.inj (Option.some.inj hnumber)).1.symm
  | deadLettered a errorType retryable t e run running valid type payload =>
    obtain ⟨-, n, hlatest⟩ := h.claimed running
    have hnumber := hop a rfl run ⟨running, valid, .inl rfl⟩
    rw [hlatest] at hnumber
    have hcycle : a.cycle = t.redrives.length := (Prod.mk.inj (Option.some.inj hnumber)).1.symm
    have hne : e.eventType ≠ redriven := by rw [type]; decide
    have hred : Track.redrives { t with
        row := store.afterFailure t.row
          (PostgresAttemptStore.failure a errorType retryable true)
        events := t.events ++ [e] } = t.redrives := by
      rw [redrives_append, if_neg hne, List.append_nil]
      rfl
    refine ⟨by rw [hred]; exact h.toCycles, fun _ => ⟨_, RetryState.ofColumn_toJson valid, ?_⟩,
      fun hrun => by cases hrun⟩
    rw [hred]
    exact hcycle
  | redriven key actorId reason t state e failed stored dead unused type payload =>
    obtain ⟨state', hstate', hcycle⟩ := h.stored (by rintro (hs | hs) <;> simp [hs] at failed)
    obtain rfl : state' = state := by
      rw [hstate'] at stored
      exact Except.ok.inj stored
    have hred : Track.redrives { t with
        row := PostgresAttemptStore.requeued t.row (state'.cycle + 1)
        events := t.events ++ [e] } = t.redrives ++ [e] := by
      rw [redrives_append, if_pos type]
      rfl
    have hto : toCycle e = some (.num (t.redrives.length + 1 : ℕ)) := by
      rw [toCycle, payload, ← hcycle]
      rfl
    refine ⟨?_, fun _ => ⟨RetryState.fresh (state'.cycle + 1), ?_, ?_⟩, fun hrun => by cases hrun⟩
    · rw [hred, List.map_append, h.toCycles, List.length_append, List.length_singleton,
        List.range_succ, List.map_append, List.map_singleton, List.map_singleton, hto]
    · exact RetryState.ofColumn_toJson (RetryState.valid_fresh _)
    · rw [hred, List.length_append, List.length_singleton, ← hcycle]
      rfl

/-- A superseded attempt that is fenced off changes nothing. -/
theorem Moved.unchanged (hm : Moved store r op returned t t') (h : t.Counted) {a : RunAttempt}
    (ha : op.ends = some a) (hop : a.runId = r → ¬op.Alters t.row) :
    t'.row = t.row ∧ t'.events = t.events := by
  cases hm with
  | other => exact ⟨rfl, rfl⟩
  | raised => exact ⟨rfl, rfl⟩
  | found => exact ⟨rfl, rfl⟩
  | claimed => cases ha
  | settled a' result t status run alters status_eq =>
    cases ha
    exact absurd alters (hop run)
  | retrying a' errorType retryable t run running valid =>
    cases ha
    have herr : t.row.error =
        some (PostgresAttemptStore.failure a errorType retryable false).toJson := by
      by_contra herr
      exact hop run ⟨running, valid, .inr herr⟩
    refine ⟨?_, rfl⟩
    change store.afterFailure t.row _ = t.row
    have hcompleted := (h.claimed running).1
    unfold PostgresAttemptStore.afterFailure
    rw [← herr]
    obtain ⟨row, events, latest⟩ := t
    obtain ⟨id, invoiceId, status, graphVersion, traceId, startedAt, completedAt, error,
      createdAt⟩ := row
    cases running
    cases hcompleted
    rfl
  | deadLettered a' errorType retryable t e run running valid type payload =>
    cases ha
    exact absurd ⟨running, valid, .inl rfl⟩ (hop run)
  | redriven => cases ha

/-- Events are only added, and a settled run stays as it is. -/
theorem Moved.grows (hm : Moved store r op returned t t') :
    t.redrives.length ≤ t'.redrives.length ∧ (t.Settled → t'.Settled) := by
  cases hm with
  | other => exact ⟨Nat.le_refl _, id⟩
  | raised => exact ⟨Nat.le_refl _, id⟩
  | found => exact ⟨Nat.le_refl _, id⟩
  | claimed continuation t state waiting stored budget =>
    exact ⟨Nat.le_refl _, fun hs => by rcases hs with hs | hs <;> simp [hs] at waiting⟩
  | settled a result t status run alters status_eq => exact ⟨Nat.le_refl _, fun _ => status_eq.symm⟩
  | retrying a errorType retryable t run running valid =>
    exact ⟨Nat.le_refl _, fun hs => by rcases hs with hs | hs <;> simp [hs] at running⟩
  | deadLettered a errorType retryable t e run running valid type payload =>
    refine ⟨?_, fun hs => by rcases hs with hs | hs <;> simp [hs] at running⟩
    rw [redrives_append, List.length_append]
    exact Nat.le_add_right _ _
  | redriven key actorId reason t state e failed stored dead unused type payload =>
    refine ⟨?_, fun hs => by rcases hs with hs | hs <;> simp [hs] at failed⟩
    rw [redrives_append, List.length_append]
    exact Nat.le_add_right _ _

/-! ## Runs without such a call -/

/-- A fenced call is current on its run. -/
theorem Call.Fenced.current (h : c.Fenced s) (ht : s.track r = some t) : c.op.Current r t := by
  intro a ha hrun halters
  by_contra hlatest
  unfold Attempts.track at ht
  obtain ⟨row, hrow, rfl⟩ := Option.map_eq_some_iff.mp ht
  subst hrun
  exact h a ha hlatest row hrow halters

/-- Every fenced call keeps the count of every run. -/
theorem counted_step (ht : ∃ t, s.track r = some t ∧ t.Counted) (hc : c.Fenced s) :
    ∃ t, (s.step c).track r = some t ∧ t.Counted := by
  obtain ⟨t, ht, hcounted⟩ := ht
  obtain ⟨t', ht', hm⟩ := step_moved (c := c) ht
  exact ⟨t', ht', hcounted.moved hm (hc.current ht)⟩

/-- Over any calls. -/
theorem run_grows (bs : List Call) : ∀ {s : Attempts} {t : Track}, s.track r = some t →
    ∃ t', (Trace.run Attempts.step s bs).track r = some t' ∧
      t.redrives.length ≤ t'.redrives.length ∧ (t.Settled → t'.Settled) := by
  induction bs with
  | nil => exact fun ht => ⟨_, ht, Nat.le_refl _, id⟩
  | cons c bs ih =>
    intro s t ht
    obtain ⟨t₁, ht₁, hm⟩ := step_moved (c := c) ht
    obtain ⟨t₂, ht₂, hlen, hsettled⟩ := ih ht₁
    obtain ⟨hlen₁, hsettled₁⟩ := hm.grows
    exact ⟨t₂, ht₂, by omega, fun h => hsettled (hsettled₁ h)⟩

/-- A track is what the store has of the run. -/
theorem run?_of_track (ht : s.track r = some t) :
    s.db.run? r = some t.row ∧ s.db.eventsOf r = t.events ∧ s.latest r = t.latest := by
  unfold Attempts.track at ht
  obtain ⟨row, hrow, rfl⟩ := Option.map_eq_some_iff.mp ht
  exact ⟨hrow, rfl, rfl⟩

/-- The cycle in `runs.error`. -/
def RunRow.cycle (row : RunRow) : ℕ :=
  match RetryState.ofColumn row.error with
  | .ok state => state.cycle
  | .error _ => 0

/-- An open run is in the cycle of its last redrive. -/
theorem Track.Counted.cycle (h : t.Counted) (hopen : ¬t.Settled) :
    t.row.cycle = t.redrives.length := by
  obtain ⟨state, hstate, hcycle⟩ := h.stored hopen
  rw [RunRow.cycle, hstate]
  exact hcycle

/-- In a run of fenced calls on any runs, from runs not tried yet : a call with a superseded
attempt leaves the row and the events of a run as they were, until the run settles its cycle
never decreases, and its redrives lead to different cycles. -/
theorem superseded_attempts_fenced (h₀ : Untried d)
    (h : Trace.Meets Attempts.step Call.Fenced (Attempts.start d) calls) {row₀ : RunRow}
    (hr : d.run? r = some row₀) :
    (∀ as c bs, calls = as ++ c :: bs → ∀ s, s = Trace.run Attempts.step (Attempts.start d) as →
      c.Superseded s → (s.step c).db.run? r = s.db.run? r ∧
        (s.step c).db.eventsOf r = s.db.eventsOf r) ∧
    (∀ as bs cs, calls = as ++ bs ++ cs → ∀ row row',
      (Trace.run Attempts.step (Attempts.start d) as).db.run? r = some row →
      (Trace.run Attempts.step (Attempts.start d) (as ++ bs)).db.run? r = some row' →
      row'.status ≠ .completed → row'.status ≠ .paused → row.cycle ≤ row'.cycle) ∧
    ((((Trace.run Attempts.step (Attempts.start d) calls).db.eventsOf r).filter
      fun e => e.eventType = redriven).map toCycle).Nodup := by
  have hstart : ∃ t, (Attempts.start d).track r = some t ∧ t.Counted := by
    have ht : (Attempts.start d).track r = some ⟨row₀, d.eventsOf r, none⟩ := by
      rw [Attempts.track, Attempts.start, hr, Option.map_some]
    exact ⟨_, ht, h₀.counted ht⟩
  have hstep : ∀ s c, (∃ t, s.track r = some t ∧ t.Counted) → Call.Fenced s c →
      ∃ t, (s.step c).track r = some t ∧ t.Counted := fun s c => counted_step
  have hcounted : ∀ as bs, calls = as ++ bs → ∃ t,
      (Trace.run Attempts.step (Attempts.start d) as).track r = some t ∧ t.Counted := by
    rintro as bs rfl
    exact Trace.Meets.inv hstep hstart (Trace.Meets.append.mp h).1
  refine ⟨?_, ?_, ?_⟩
  · rintro as c bs rfl s rfl ⟨a, ha, hlatest⟩
    obtain ⟨t, ht, hct⟩ := hcounted as (c :: bs) rfl
    obtain ⟨-, hc⟩ := Trace.Meets.at_step hstep hstart h
    obtain ⟨t', ht', hm⟩ := step_moved (c := c) ht
    obtain ⟨hrow, hevents, -⟩ := run?_of_track ht
    obtain ⟨hrow', hevents', -⟩ := run?_of_track ht'
    have hop : a.runId = r → ¬c.op.Alters t.row := by
      rintro rfl
      exact hc a ha hlatest t.row hrow
    obtain ⟨hsame, hsame'⟩ := hm.unchanged hct ha hop
    rw [hrow', hrow, hevents', hevents, hsame, hsame']
    exact ⟨rfl, rfl⟩
  · intro as bs cs hsplit row row' hrow hrow' hcompleted hpaused
    obtain ⟨t, ht, hct⟩ := hcounted as (bs ++ cs) (by rw [hsplit, List.append_assoc])
    obtain ⟨t', ht', hct'⟩ := hcounted (as ++ bs) cs hsplit
    obtain ⟨u, hu, hlen, hsettled⟩ := run_grows bs ht
    rw [← Trace.run_append, ht'] at hu
    obtain rfl := Option.some.inj hu
    obtain rfl : row = t.row := Option.some.inj (hrow.symm.trans (run?_of_track ht).1)
    obtain rfl : row' = t'.row := Option.some.inj (hrow'.symm.trans (run?_of_track ht').1)
    have hopen' : ¬t'.Settled := fun hs => hs.elim hcompleted hpaused
    rw [hct.cycle fun hs => hopen' (hsettled hs), hct'.cycle hopen']
    exact hlen
  · obtain ⟨t, ht, hct⟩ := hcounted calls [] (by rw [List.append_nil])
    rw [(run?_of_track ht).2.1]
    change (t.redrives.map toCycle).Nodup
    rw [hct.toCycles]
    refine List.Nodup.map ?_ List.nodup_range
    intro k k' hk
    simp only [Option.some.injEq, Json.num.injEq] at hk
    omega

end

/-! ### A worker that comes back -/

/-- A run that was just queued. -/
def waitingRun : RunRow :=
  { sampleRun with status := .queued }

/-- A store with that run. -/
def waitingDb : Db :=
  { Db.empty with runs := [waitingRun] }

/-- The sample run was never tried. -/
theorem untried_waitingDb : Untried waitingDb :=
  ⟨by simp [waitingDb], by simp [waitingDb, waitingRun, sampleRun], by simp [waitingDb, Db.empty]⟩

/-- The store at `seconds`. -/
def storeAt (seconds : ℤ) (newId : Uuid) : PostgresAttemptStore :=
  ⟨RetryConfig.default, seconds * 1000000, seconds * 1000000, newId⟩

/-- An attempt of that run. -/
def attemptOf (cycle attempt : ℕ) (h : 1 ≤ attempt ∧ attempt ≤ 10) : RunAttempt where
  runId := 7
  invoiceId := 3
  traceId := sampleTrace
  graphVersion := "invoice-v1"
  attempt := attempt
  cycle := cycle
  trace := by decide
  graph := by decide
  attempt_pos := h.1
  attempt_le := h.2

/-- The first attempt. -/
def firstAttempt : RunAttempt :=
  attemptOf 0 1 (by decide)

/-- A claims ; its lease runs out and B claims, fails for good and is redriven ; C claims the
first attempt of the next cycle. -/
def takeover : List Call :=
  [⟨storeAt 0 0, .begin 7 false⟩, ⟨storeAt 480 0, .begin 7 false⟩,
    ⟨storeAt 490 1, .failed firstAttempt "ValueError" false true⟩,
    ⟨storeAt 500 2, .redrive 7 "retry-1" "operator" "Synthetic recovery"⟩,
    ⟨storeAt 510 0, .begin 7 false⟩]

/-- A, of the first cycle, fails at last. -/
def staleFailed : Call :=
  ⟨storeAt 520 3, .failed firstAttempt "OSError" true true⟩

/-- An operator lets the run be tried a second time. -/
def secondRedrive : Call :=
  ⟨storeAt 530 4, .redrive 7 "retry-2" "operator" "Synthetic recovery"⟩

/-- What the run's row and its events look like. -/
def Attempts.summary (s : Attempts) : Option (RunStatus × ℕ) × List (String × Option Json) :=
  ((s.db.run? 7).map fun row => (row.status, row.cycle),
    (s.db.eventsOf 7).map fun e => (e.eventType.val, toCycle e))

set_option maxRecDepth 8000 in
/-- The call of the superseded attempt `(0, 1)` ends the attempt `(1, 1)` as a dead letter of
cycle 0, and the next redrive leads to cycle 1 again. -/
theorem stale_failure :
    let s := Trace.run Attempts.step (Attempts.start waitingDb) takeover
    staleFailed.Superseded s ∧
    s.summary = (some (.running, 1), [("workflow.dead_lettered", none),
      ("workflow.redriven", some (.num 1))]) ∧
    (s.step staleFailed).summary = (some (.failed, 0), [("workflow.dead_lettered", none),
      ("workflow.redriven", some (.num 1)), ("workflow.dead_lettered", none)]) ∧
    ((s.step staleFailed).step secondRedrive).summary = (some (.queued, 1),
      [("workflow.dead_lettered", none), ("workflow.redriven", some (.num 1)),
        ("workflow.dead_lettered", none), ("workflow.redriven", some (.num 1))]) :=
  ⟨⟨_, rfl, by decide⟩, by decide, by decide, by decide⟩

/-- The result of a run that waits for a review. -/
def awaitingReview : InvoiceGraphState where
  runId := 7
  invoiceId := 3
  traceId := sampleTrace
  asOf := 0
  rawRef := "sha256/aa/raw"
  contentHash := "aa"
  contentType := "application/pdf"
  duplicate := false
  status := .awaitingReview
  route := some .review
  extractionOutcome := none
  extraction := none
  validation := none
  «match» := none
  snapshot := none
  similarity := none
  taxonomy := none
  policy := none
  gate := none
  triage := none
  review := none
  completedNodes := [.ingest, .exceptionTriage]

/-- A fails for good, and so does B after a redrive. After another one C settles. -/
def twoRedrives : List Call :=
  [⟨storeAt 0 0, .begin 7 false⟩,
    ⟨storeAt 10 1, .failed firstAttempt "ValueError" false true⟩,
    ⟨storeAt 20 2, .redrive 7 "retry-1" "operator" "Synthetic recovery"⟩,
    ⟨storeAt 30 0, .begin 7 false⟩,
    ⟨storeAt 40 3, .failed (attemptOf 1 1 (by decide)) "ValueError" false true⟩,
    ⟨storeAt 50 4, .redrive 7 "retry-2" "operator" "Synthetic recovery"⟩,
    ⟨storeAt 60 0, .begin 7 false⟩,
    ⟨storeAt 70 0, .settle (attemptOf 2 1 (by decide)) awaitingReview⟩]

set_option maxRecDepth 8000 in
/-- A is heard of once more. -/
theorem lateFailure_fenced :
    Trace.Meets Attempts.step Call.Fenced (Attempts.start waitingDb)
      (twoRedrives ++ [staleFailed]) := by
  unfold twoRedrives
  simp only [Trace.Meets, List.cons_append, List.nil_append]
  refine ⟨fun a ha => (nomatch ha), ?_, fun a ha => (nomatch ha), fun a ha => (nomatch ha), ?_,
    fun a ha => (nomatch ha), fun a ha => (nomatch ha), ?_, ?_, trivial⟩
  · rintro a ⟨⟩ h
    exact absurd (by decide) h
  · rintro a ⟨⟩ h
    exact absurd (by decide) h
  · rintro a ⟨⟩ h
    exact absurd (by decide) h
  · rintro a ⟨⟩ h row hrow halters
    cases hrow
    exact absurd halters (by decide)

/-- The attempts before the late call. -/
def beforeLate : Attempts :=
  Trace.run Attempts.step (Attempts.start waitingDb) twoRedrives

/-- The store after it. -/
def afterLate : Db :=
  (beforeLate.step staleFailed).db

set_option maxRecDepth 8000 in
/-- The late failure is of an attempt that was superseded. -/
theorem lateFailure_superseded : staleFailed.Superseded beforeLate :=
  ⟨_, rfl, by decide⟩

set_option maxRecDepth 8000 in
/-- The call of A changes nothing, and the redrives led to the cycles 1 and 2. -/
theorem superseded_attempts_fenced_lateFailure :
    (afterLate.run? 7 = beforeLate.db.run? 7 ∧
      afterLate.eventsOf 7 = beforeLate.db.eventsOf 7) ∧
    ((afterLate.eventsOf 7).filter fun e => e.eventType = redriven).map toCycle =
      [some (.num 1), some (.num 2)] ∧
    (((afterLate.eventsOf 7).filter fun e => e.eventType = redriven).map toCycle).Nodup := by
  obtain ⟨hsuperseded, -, hnodup⟩ := superseded_attempts_fenced untried_waitingDb lateFailure_fenced
    (show waitingDb.run? 7 = some waitingRun by decide)
  exact ⟨hsuperseded _ _ [] rfl _ rfl lateFailure_superseded, by decide, hnodup⟩

end InvoiceOps
