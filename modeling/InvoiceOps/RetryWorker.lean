import InvoiceOps.DeadLetters

/-!
# The retry loop

`RetryWorker.process` claims an attempt, runs the workflow once and records how it ended, until
the attempt settles or its failure is terminal. What one pass through the loop meets is a
`Turn`, and a worker that is killed runs out of turns. Its calls are admissible
(`process_admissible`), it runs the workflow at most `max_attempts` times (`process_runs`) and
it ends by itself within as many turns (`process_ends`).
-/

open ReadCommitted

namespace InvoiceOps

/-- How a run of the workflow ends. -/
inductive RunOutcome where
  | returned (result : InvoiceGraphState)
  | raised (error : Exn)
  | killed

/-- One pass through the loop : the store as its attempt is claimed, how the workflow ends,
and the store as that is recorded. -/
structure Turn where
  claim : PostgresAttemptStore
  outcome : RunOutcome
  record : PostgresAttemptStore

/-- How `process` ended, if its worker was not killed. -/
inductive ProcessResult where
  | returned (result : InvoiceGraphState)
  | raised (error : Exn)
  | killed

/-- The calls a worker made, how often it ran the workflow and what it ended with. -/
structure Processed where
  calls : List Call
  runs : ℕ
  result : ProcessResult

/-- `process` lets cancellation and `RunInProgress` through, and what is no `Exception`. -/
def passesThrough (error : Exn) : Bool :=
  error.isInstance .cancelledError || error.isInstance .runInProgress ||
    !error.isInstance .exception

/-- A failure that is not tried again : it is no infrastructure error, or the attempts are used
up. -/
def isTerminal (config : RetryConfig) (a : RunAttempt) (error : Exn) : Bool :=
  !isInfrastructureError error || config.maxAttempts ≤ a.attempt

/-- What `process` records for an attempt that raised. -/
def failureOf (config : RetryConfig) (a : RunAttempt) (error : Exn) : Operation :=
  .failed a (rootError error).cls.name (isInfrastructureError error) (isTerminal config a error)

/-- The end of the last pass, with the outcome of the workflow. -/
def RunOutcome.result : RunOutcome → ProcessResult
  | .returned result => .returned result
  | .raised error => .raised error
  | .killed => .killed

/-- `RetryWorker.process`, from the pass that is about to claim. -/
def process (config : RetryConfig) (runId : Uuid) : Bool → List Turn → Attempts → Processed
  | _, [], _ => ⟨[], 0, .killed⟩
  | continuation, turn :: turns, s =>
    let claim : Call := ⟨turn.claim, .begin runId continuation⟩
    match turn.claim.begin runId continuation s.db with
    | .error error => ⟨[claim], 0, .raised error⟩
    | .ok (none, _) => ⟨[claim], 1, turn.outcome.result⟩
    | .ok (some a, _) =>
      match turn.outcome with
      | .killed => ⟨[claim], 1, .killed⟩
      | .returned result =>
        let settle : Call := ⟨turn.record, .settle a result⟩
        match settle.perform (s.step claim).db with
        | .error error => ⟨[claim, settle], 1, .raised error⟩
        | .ok _ => ⟨[claim, settle], 1, .returned result⟩
      | .raised error =>
        if passesThrough error then ⟨[claim], 1, .raised error⟩
        else
          let failed : Call := ⟨turn.record, failureOf config a error⟩
          match failed.perform (s.step claim).db with
          | .error error' => ⟨[claim, failed], 1, .raised error'⟩
          | .ok _ =>
            if isTerminal config a error then ⟨[claim, failed], 1, .raised error⟩
            else
              let rest := process config runId true turns ((s.step claim).step failed)
              ⟨claim :: failed :: rest.calls, rest.runs + 1, rest.result⟩

/-! ## One pass -/

section

variable {config : RetryConfig} {runId r : Uuid} {continuation : Bool} {turn : Turn}
  {turns : List Turn} {s : Attempts} {a : RunAttempt} {ws : List Write} {error : Exn} {d : Db}

/-- What a worker that claimed `a` records is admissible. -/
theorem step_begin_latest {store : PostgresAttemptStore}
    (hb : store.begin runId continuation s.db = .ok (some a, ws)) :
    (s.step ⟨store, .begin runId continuation⟩).latest a.runId = some a.number := by
  have hperform : Call.perform ⟨store, .begin runId continuation⟩ s.db =
      .ok (.claimed (some a), ws) := by
    change (store.begin runId continuation s.db).map _ = _
    rw [hb]
    rfl
  unfold Attempts.step
  rw [hperform]
  exact Function.update_self _ _ _

/-- Only an infrastructure error short of the last attempt is not terminal. -/
theorem isTerminal_eq_false (h : isTerminal config a error = false) :
    isInfrastructureError error = true ∧ a.attempt < config.maxAttempts := by
  unfold isTerminal at h
  simpa using h

/-- A worker's calls are admissible. -/
theorem process_admissible : ∀ {turns : List Turn} {continuation : Bool} {s : Attempts},
    (∀ turn ∈ turns, turn.claim.config = config ∧ turn.record.config = config) →
    Trace.Meets Attempts.step (Call.Admissible config) s
      (process config runId continuation turns s).calls
  | [], _, _, _ => trivial
  | turn :: turns, continuation, s, h => by
    obtain ⟨hclaim, hrecord⟩ := h turn List.mem_cons_self
    have hbegin : Call.Admissible config s ⟨turn.claim, .begin runId continuation⟩ :=
      ⟨hclaim, nofun, nofun⟩
    unfold process
    dsimp only
    split
    · exact ⟨hbegin, trivial⟩
    · exact ⟨hbegin, trivial⟩
    · rename_i a ws hb
      have hlatest := step_begin_latest hb
      split
      · exact ⟨hbegin, trivial⟩
      · rename_i result _
        have hsettle : Call.Admissible config (s.step ⟨turn.claim, .begin runId continuation⟩)
            ⟨turn.record, .settle a result⟩ :=
          ⟨hrecord, by rintro a ⟨⟩; exact hlatest, nofun⟩
        split <;> exact ⟨hbegin, hsettle, trivial⟩
      · rename_i error _
        split
        · exact ⟨hbegin, trivial⟩
        · have hfailed : Call.Admissible config
              (s.step ⟨turn.claim, .begin runId continuation⟩)
              ⟨turn.record, failureOf config a error⟩ := by
            refine ⟨hrecord, by rintro a ⟨⟩; exact hlatest, fun a' errorType retryable heq => ?_⟩
            obtain ⟨rfl, -, -, hterm⟩ := Operation.failed.inj heq
            exact (isTerminal_eq_false hterm).2
          split
          · exact ⟨hbegin, hfailed, trivial⟩
          · split
            · exact ⟨hbegin, hfailed, trivial⟩
            · exact ⟨hbegin, hfailed,
                process_admissible fun t ht => h t (List.mem_cons_of_mem _ ht)⟩

/-! ## How often a worker runs the workflow -/

/-- The attempts the row of a run holds. -/
def Attempts.tries (s : Attempts) (r : Uuid) : ℕ :=
  match s.db.run? r with
  | some row =>
    match RetryState.ofColumn row.error with
    | .ok state => state.attempts
    | .error _ => 0
  | none => 0

/-- An attempt that begins is the next of its run. -/
theorem begin_tries {store : PostgresAttemptStore}
    (hb : store.begin runId continuation s.db = .ok (some a, ws)) :
    a.attempt = s.tries runId + 1 ∧ a.attempt ≤ store.config.maxAttempts ∧ a.runId = runId := by
  obtain ⟨row, hrow, ⟨-, hnone, -⟩ | ⟨-, hclaim⟩⟩ := PostgresAttemptStore.begin_ok hb
  · cases hnone
  · obtain ⟨state, a', ha, -, hstate, hlt, hid, hnumber⟩ := PostgresAttemptStore.claim_ok hclaim
    obtain rfl := Option.some.inj ha
    have hattempt : a.attempt = state.attempts + 1 := (Prod.mk.inj hnumber).2
    have htries : s.tries runId = state.attempts := by
      unfold Attempts.tries
      rw [hrow]
      dsimp only
      rw [hstate]
    exact ⟨by rw [hattempt, htries], by omega, hid.trans (key_of_lookup hrow)⟩

/-- A failure that is recorded is what the row holds. -/
theorem failed_tries {store : PostgresAttemptStore} {errorType : String}
    {retryable terminal : Bool} {out : Answer × List Write}
    (hb : Call.perform ⟨store, .failed a errorType retryable terminal⟩ s.db = .ok out) :
    (s.step ⟨store, .failed a errorType retryable terminal⟩).tries a.runId = a.attempt := by
  obtain ⟨ws, hf, -⟩ := map_eq_ok hb
  obtain ⟨-, row, hrow, -⟩ := PostgresAttemptStore.failed_ok hf
  have ht : s.track a.runId = some ⟨row, s.db.eventsOf a.runId, s.latest a.runId⟩ := by
    rw [Attempts.track, hrow, Option.map_some]
  obtain ⟨t', ht', hm⟩ := step_moved (c := ⟨store, .failed a errorType retryable terminal⟩) ht
  have herr : (PostgresAttemptStore.failure a errorType retryable terminal).Valid ∧
      t'.row.error =
        some (PostgresAttemptStore.failure a errorType retryable terminal).toJson := by
    rw [hb] at hm
    cases hm with
    | other _ _ _ hne => exact absurd rfl hne
    | found _ _ hfound => exact ⟨hfound.1, hfound.2.2⟩
    | retrying _ _ _ _ _ _ valid => exact ⟨valid, rfl⟩
    | deadLettered _ _ _ _ _ _ _ valid => exact ⟨valid, rfl⟩
  unfold Attempts.tries
  rw [(run?_of_track ht').1]
  dsimp only
  rw [herr.2, RetryState.ofColumn_toJson herr.1]
  rfl

/-- A pass that goes on has used up one attempt more. -/
theorem pass_tries (hb : turn.claim.begin runId continuation s.db = .ok (some a, ws))
    {out : Answer × List Write}
    (hf : Call.perform ⟨turn.record, failureOf config a error⟩
      (s.step ⟨turn.claim, .begin runId continuation⟩).db = .ok out)
    (hterm : isTerminal config a error = false) :
    ((s.step ⟨turn.claim, .begin runId continuation⟩).step
        ⟨turn.record, failureOf config a error⟩).tries runId = s.tries runId + 1 ∧
      s.tries runId + 1 < config.maxAttempts := by
  obtain ⟨hattempt, -, hrun⟩ := begin_tries hb
  have htries := failed_tries hf
  rw [hrun, hattempt] at htries
  exact ⟨htries, by rw [← hattempt]; exact (isTerminal_eq_false hterm).2⟩

/-- The workflow is run once, or within what is left of the budget. -/
theorem process_runs : ∀ {turns : List Turn} {continuation : Bool} {s : Attempts},
    (process config runId continuation turns s).runs ≤ 1 ∨
      (process config runId continuation turns s).runs + s.tries runId ≤ config.maxAttempts
  | [], _, _ => .inl (Nat.zero_le _)
  | turn :: turns, continuation, s => by
    unfold process
    dsimp only
    split
    · exact .inl (Nat.zero_le _)
    · exact .inl (Nat.le_refl _)
    · rename_i a ws hb
      split
      · exact .inl (Nat.le_refl _)
      · split <;> exact .inl (Nat.le_refl _)
      · rename_i error _
        split
        · exact .inl (Nat.le_refl _)
        split
        · exact .inl (Nat.le_refl _)
        rename_i out hf
        split
        · exact .inl (Nat.le_refl _)
        rename_i hterm
        obtain ⟨htries, hlt⟩ := pass_tries hb hf (by simpa using hterm)
        have ih := @process_runs turns true ((s.step ⟨turn.claim, .begin runId continuation⟩).step
          ⟨turn.record, failureOf config a error⟩)
        rw [htries] at ih
        dsimp only
        rcases ih with ih | ih <;> exact .inr (by omega)

/-- A worker that is never killed ends before it has used up as many turns as it has
attempts. -/
theorem process_killed : ∀ {turns : List Turn} {continuation : Bool} {s : Attempts},
    (∀ turn ∈ turns, turn.outcome ≠ .killed) →
    (process config runId continuation turns s).result = .killed →
      turns = [] ∨ turns.length + s.tries runId < config.maxAttempts
  | [], _, _, _, _ => .inl rfl
  | turn :: turns, continuation, s, h, hkilled => by
    have hturn := h turn List.mem_cons_self
    have hresult : turn.outcome.result ≠ .killed := by
      cases ho : turn.outcome with
      | killed => exact absurd ho hturn
      | returned => exact nofun
      | raised => exact nofun
    unfold process at hkilled
    dsimp only at hkilled
    split at hkilled
    · cases hkilled
    · exact absurd hkilled hresult
    · rename_i a ws hb
      split at hkilled
      · exact absurd ‹_› hturn
      · split at hkilled <;> cases hkilled
      · rename_i error _
        split at hkilled
        · cases hkilled
        split at hkilled
        · cases hkilled
        rename_i out hf
        split at hkilled
        · cases hkilled
        rename_i hterm
        obtain ⟨htries, hlt⟩ := pass_tries hb hf (by simpa using hterm)
        have ih := process_killed (fun t ht => h t (List.mem_cons_of_mem _ ht)) hkilled
        rw [htries] at ih
        rw [List.length_cons]
        rcases ih with rfl | ih
        · exact .inr (by rw [List.length_nil]; omega)
        · exact .inr (by omega)

/-- A failure that is no infrastructure error ends the loop. -/
theorem process_once (ho : turn.outcome = .raised error)
    (hinfra : isInfrastructureError error = false) {out : Option RunAttempt × List Write}
    (hb : turn.claim.begin runId continuation s.db = .ok out) :
    (process config runId continuation (turn :: turns) s).runs = 1 := by
  have hterm : ∀ a, isTerminal config a error = true := fun a => by rw [isTerminal, hinfra]; rfl
  unfold process
  dsimp only
  rw [hb]
  obtain ⟨answer, ws⟩ := out
  cases answer with
  | none => rfl
  | some a =>
    dsimp only
    rw [ho]
    dsimp only
    split
    · rfl
    split
    · rfl
    · rw [if_pos (hterm a)]

/-! ## Calls and workers in any order -/

/-- A call of the store, or a worker that makes its own. -/
inductive Request where
  | call (c : Call)
  | process (runId : Uuid) (turns : List Turn)

namespace Request

/-- The calls of the store a request makes. -/
def calls (config : RetryConfig) (s : Attempts) : Request → List Call
  | .call c => [c]
  | .process runId turns => (InvoiceOps.process config runId false turns s).calls

/-- The state after a request. -/
def step (config : RetryConfig) (s : Attempts) (x : Request) : Attempts :=
  Trace.run Attempts.step s (x.calls config s)

/-- The calls of a request are admissible : a worker's are, if it works under `config`. -/
def Admissible (config : RetryConfig) (s : Attempts) : Request → Prop
  | .call c => c.Admissible config s
  | .process _ turns => ∀ turn ∈ turns, turn.claim.config = config ∧ turn.record.config = config

end Request

/-- All calls of the store, of the requests one after the other. -/
def callsOf (config : RetryConfig) : Attempts → List Request → List Call
  | _, [] => []
  | s, x :: xs => x.calls config s ++ callsOf config (x.step config s) xs

/-- The calls of admissible requests are admissible. -/
theorem callsOf_admissible : ∀ {xs : List Request} {s : Attempts},
    Trace.Meets (Request.step config) (Request.Admissible config) s xs →
    Trace.Meets Attempts.step (Call.Admissible config) s (callsOf config s xs)
  | [], _, _ => trivial
  | .call _ :: _, _, h => Trace.Meets.append.mpr ⟨⟨h.1, trivial⟩, callsOf_admissible h.2⟩
  | .process _ _ :: _, _, h =>
    Trace.Meets.append.mpr ⟨process_admissible h.1, callsOf_admissible h.2⟩

/-- What holds of a run's row and its events in a state. -/
structure Attempts.Consistent (config : RetryConfig) (s : Attempts) (r : Uuid) (row : RunRow) :
    Prop where
  failed_iff : row.status = .failed ↔ ∃ value state, row.error = some value ∧
    RetryState.validate value = some state ∧ state.DeadLetter config
  budget : row.status = .queued ∨ row.status = .running → ∃ state,
    RetryState.ofColumn row.error = .ok state ∧ state.attempts < config.maxAttempts
  cycle : row.status ≠ .completed → row.status ≠ .paused →
    row.cycle = ((s.db.eventsOf r).filter fun e => e.eventType = redriven).length
  once : (((s.db.eventsOf r).filter fun e => e.eventType = deadLettered).map cycleOf).Nodup

/-- A sound run is consistent with its attempts. -/
theorem Track.Sound.consistent {t : Track} (h : t.Sound config) (ht : s.track r = some t) :
    s.Consistent config r t.row where
  failed_iff := by
    constructor
    · intro hf
      obtain ⟨state, herr, hvalid, hdead⟩ := h.failed hf
      exact ⟨_, state, herr, RetryState.validate_toJson hvalid, hdead⟩
    · rintro ⟨value, state, herr, hvalue, hdead⟩
      have hstored : RetryState.ofColumn t.row.error = .ok state := by
        rw [herr, RetryState.ofColumn, hvalue]
      have hnotWaiting : ¬(t.row.status = .queued ∨ t.row.status = .running) := by
        intro hw
        obtain ⟨state', hstate', hfresh, -⟩ := h.waiting hw
        obtain rfl : state' = state := Except.ok.inj (hstate'.symm.trans hstored)
        rw [hdead.dead] at hfresh
        cases hfresh
      have hopen : ¬t.Settled := by
        intro hs
        rw [h.settled hs] at herr
        cases herr
      cases hst : t.row.status with
      | failed => rfl
      | queued => exact absurd (.inl hst) hnotWaiting
      | running => exact absurd (.inr hst) hnotWaiting
      | completed => exact absurd (.inl hst) hopen
      | paused => exact absurd (.inr hst) hopen
      | cancelled => exact absurd hst h.notCancelled
  budget hw := by
    obtain ⟨state, hstate, -, hlt⟩ := h.waiting hw
    exact ⟨state, hstate, hlt⟩
  cycle hcompleted hpaused := by
    rw [(run?_of_track ht).2.1]
    exact h.toCounted.cycle fun hs => hs.elim hcompleted hpaused
  once := by
    rw [(run?_of_track ht).2.1]
    exact h.deadCycles

/-- The calls of `begin` in such a state. -/
theorem begin_of_sound {store : PostgresAttemptStore} (hconfig : store.config = config)
    (hsound : ∀ row, s.db.run? runId = some row → ∃ t, s.track runId = some t ∧ t.Sound config) :
    store.begin runId continuation s.db ≠
        .error (.new .workerError "Retry budget is exhausted; run needs recovery") ∧
      ∀ a ws, store.begin runId continuation s.db = .ok (some a, ws) →
        a.attempt ≤ config.maxAttempts := by
  refine ⟨fun hb => ?_, fun a ws hb => ?_⟩
  · unfold PostgresAttemptStore.begin at hb
    cases hrow : s.db.run? runId with
    | none =>
      rw [hrow] at hb
      simp at hb
    | some row =>
      obtain ⟨t, ht, h⟩ := hsound row hrow
      obtain rfl : row = t.row := Option.some.inj (hrow.symm.trans (run?_of_track ht).1)
      rw [hrow] at hb
      dsimp only at hb
      split at hb
      · cases hb
      · cases hb
      · simp at hb
      · simp at hb
      · split at hb
        · simp at hb
        · exact h.claim_ne hconfig (.inl ‹_›) hb
      · split at hb
        · simp at hb
        · exact h.claim_ne hconfig (.inr ‹_›) hb
  · rw [← hconfig]
    exact (begin_tries hb).2.1

/-- A call that returned changes nothing when it is made again. -/
theorem repeated_unchanged (h₀ : Untried d) {as bs : List Call} {c c' : Call}
    (h : Trace.Meets Attempts.step (Call.Admissible config) (Attempts.start d) (as ++ c :: bs))
    (hreturned : (c.perform (Trace.run Attempts.step (Attempts.start d) as).db).isOk = true)
    (hbegin : ∀ run continuation, c.op ≠ .begin run continuation)
    (hagree : ∀ b ∈ bs, c.op.Agrees b.op) (hop : c'.op = c.op)
    (hc' : c'.Admissible config (Trace.run Attempts.step (Attempts.start d) (as ++ c :: bs)))
    {row₀ : RunRow} (hr : d.run? r = some row₀) :
    ((Trace.run Attempts.step (Attempts.start d) (as ++ c :: bs)).step c').db.run? r =
        (Trace.run Attempts.step (Attempts.start d) (as ++ c :: bs)).db.run? r ∧
      ((Trace.run Attempts.step (Attempts.start d) (as ++ c :: bs)).step c').db.eventsOf r =
        (Trace.run Attempts.step (Attempts.start d) (as ++ c :: bs)).db.eventsOf r := by
  obtain ⟨has, hc, hbs⟩ := Trace.Meets.append.mp h
  obtain ⟨t, ht, hsound⟩ := sound_run h₀ has hr
  obtain ⟨t₁, ht₁, hm⟩ := step_moved (c := c) ht
  rw [hreturned] at hm
  have hsound₁ := hsound.moved hm hc.config_eq (hc.operation ht)
  obtain ⟨t₂, ht₂, hsound₂, hspent⟩ := spent_run hbs hagree ⟨t₁, ht₁, hsound₁, hm.spent⟩
  rw [Trace.run_append] at hc' ⊢
  obtain ⟨t₃, ht₃, hm'⟩ := step_moved (c := c') ht₂
  rw [hop] at hm'
  have hadm := hc'.operation ht₂
  rw [hop] at hadm
  obtain ⟨hrow, hevents⟩ := hspent.unchanged hsound₂.toCounted hm' (hbegin r) hadm.latest
  obtain ⟨hrow₂, hevents₂, -⟩ := run?_of_track ht₂
  obtain ⟨hrow₃, hevents₃, -⟩ := run?_of_track ht₃
  exact ⟨hrow₃.trans ((congrArg some hrow).trans hrow₂.symm),
    hevents₃.trans (hevents.trans hevents₂.symm)⟩

/-- A run is known by its row in any state reached. -/
theorem sound_of_run? (h₀ : Untried d) {calls : List Call}
    (h : Trace.Meets Attempts.step (Call.Admissible config) (Attempts.start d) calls)
    {row : RunRow} (hr : (Trace.run Attempts.step (Attempts.start d) calls).db.run? r = some row) :
    ∃ t, (Trace.run Attempts.step (Attempts.start d) calls).track r = some t ∧ t.row = row ∧
      t.Sound config := by
  have hid : row.id = r := key_of_lookup hr
  obtain ⟨-, row₀, hrow₀⟩ := run?_of_mem h₀ (mem_of_lookup hr)
  rw [hid] at hrow₀
  obtain ⟨t, ht, hsound⟩ := sound_run h₀ h hrow₀
  exact ⟨t, ht, Option.some.inj ((run?_of_track ht).1.symm.trans hr), hsound⟩

/-- The queue can always be listed. -/
theorem listDeadLetters_ok (h₀ : Untried d) {calls : List Call}
    (h : Trace.Meets Attempts.step (Call.Admissible config) (Attempts.start d) calls)
    {limit : ℤ} (hlimit : 1 ≤ limit ∧ limit ≤ 100) :
    ∃ letters, PostgresAttemptStore.listDeadLetters limit
      (Trace.run Attempts.step (Attempts.start d) calls).db = .ok letters := by
  unfold PostgresAttemptStore.listDeadLetters
  rw [if_pos hlimit]
  refine mapM_ok fun row hrow => ?_
  have hmem := List.mem_mergeSort.mp (List.mem_of_mem_take hrow)
  obtain ⟨hmem, hf⟩ := List.mem_filter.mp hmem
  obtain ⟨t, -, rfl, hsound⟩ := sound_of_run? h₀ h (run?_of_mem h₀ hmem).1
  exact hsound.deadLetter (by simpa using hf)

/-- Under one policy, whatever calls and workers come : every state reached is consistent, the
budget of a run that may be claimed is never used up and its dead letters can be listed ; a
call that returned changes nothing when it is made again ; and a worker runs the workflow at
most `max_attempts` times, once if its failure is no infrastructure error, and ends. -/
theorem dead_letter_machine (h₀ : Untried d) {xs : List Request}
    (h : Trace.Meets (Request.step config) (Request.Admissible config) (Attempts.start d) xs) :
    (∀ as bs, callsOf config (Attempts.start d) xs = as ++ bs → ∀ s,
      s = Trace.run Attempts.step (Attempts.start d) as →
      (∀ r row, s.db.run? r = some row → s.Consistent config r row) ∧
      (∀ (store : PostgresAttemptStore) r continuation, store.config = config →
        store.begin r continuation s.db ≠
            .error (.new .workerError "Retry budget is exhausted; run needs recovery") ∧
          ∀ a ws, store.begin r continuation s.db = .ok (some a, ws) →
            a.attempt ≤ config.maxAttempts) ∧
      ∀ limit : ℤ, 1 ≤ limit ∧ limit ≤ 100 →
        ∃ letters, PostgresAttemptStore.listDeadLetters limit s.db = .ok letters) ∧
    (∀ as c bs cs, callsOf config (Attempts.start d) xs = as ++ c :: bs ++ cs → ∀ s s',
      s = Trace.run Attempts.step (Attempts.start d) as →
      s' = Trace.run Attempts.step (Attempts.start d) (as ++ c :: bs) →
      (c.perform s.db).isOk = true → (∀ r continuation, c.op ≠ .begin r continuation) →
      (∀ b ∈ bs, c.op.Agrees b.op) → ∀ c' : Call, c'.op = c.op → c'.Admissible config s' →
      ∀ r row₀, d.run? r = some row₀ →
        (s'.step c').db.run? r = s'.db.run? r ∧ (s'.step c').db.eventsOf r = s'.db.eventsOf r) ∧
    ∀ r turns s, (process config r false turns s).runs ≤ config.maxAttempts ∧
      (∀ turn rest error out, turns = turn :: rest → turn.outcome = .raised error →
        isInfrastructureError error = false → turn.claim.begin r false s.db = .ok out →
        (process config r false turns s).runs = 1) ∧
      ((∀ turn ∈ turns, turn.outcome ≠ .killed) → config.maxAttempts ≤ turns.length →
        (process config r false turns s).result ≠ .killed) := by
  have hcalls := callsOf_admissible h
  have hone := config.one_le_maxAttempts
  refine ⟨?_, ?_, fun r turns s => ⟨?_, ?_, ?_⟩⟩
  · rintro as bs hsplit s rfl
    rw [hsplit] at hcalls
    have has := (Trace.Meets.append.mp hcalls).1
    refine ⟨fun r row hr => ?_, fun store r continuation hconfig => ?_,
      fun limit hlimit => listDeadLetters_ok h₀ has hlimit⟩
    · obtain ⟨t, ht, rfl, hsound⟩ := sound_of_run? h₀ has hr
      exact hsound.consistent ht
    · refine begin_of_sound hconfig fun row hr => ?_
      obtain ⟨t, ht, -, hsound⟩ := sound_of_run? h₀ has hr
      exact ⟨t, ht, hsound⟩
  · rintro as c bs cs hsplit s s' rfl rfl hreturned hbegin hagree c' hop hc' r row₀ hr
    rw [hsplit] at hcalls
    exact repeated_unchanged h₀ (Trace.Meets.append.mp hcalls).1 hreturned hbegin hagree hop hc' hr
  · have hruns := @process_runs config r turns false s
    omega
  · rintro turn rest error out rfl ho hinfra hb
    exact process_once ho hinfra hb
  · intro hturns hlength hkilled
    rcases process_killed hturns hkilled with rfl | hlt
    · rw [List.length_nil] at hlength
      omega
    · omega

end

/-! ### What a store does not check of a failure -/

/-- A policy of a single attempt. -/
def onePolicy : RetryConfig :=
  { RetryConfig.default with
    maxAttempts := 1
    one_le_maxAttempts := Nat.le_refl 1
    maxAttempts_le := Nat.le_of_ble_eq_true rfl }

/-- A store under that policy. -/
def oneStore (seconds : ℤ) : PostgresAttemptStore :=
  { storeAt seconds 1 with config := onePolicy }

/-- The only attempt is claimed and fails, and the failure is not recorded as terminal. -/
def unfinished : List Call :=
  [⟨oneStore 0, .begin 7 false⟩,
    ⟨oneStore 10, .failed firstAttempt "OSError" true false⟩]

/-- Two attempts fail, one after the other. -/
def failedTwice : List Call :=
  [⟨storeAt 0 0, .begin 7 false⟩,
    ⟨storeAt 10 0, .failed firstAttempt "OSError" true false⟩,
    ⟨storeAt 20 0, .begin 7 true⟩,
    ⟨storeAt 30 0, .failed (attemptOf 0 2 (by decide)) "TimeoutError" true false⟩]

/-- The failure of the first is reported once more. -/
def failedAgain : Call :=
  ⟨storeAt 40 0, .failed firstAttempt "OSError" true false⟩

set_option maxRecDepth 8000 in
/-- A failure is recorded as its caller reports it : one that is not terminal leaves a run running
with its budget used up, and one that is repeated after a later attempt has failed takes the place
of the later one. -/
theorem failed_unguarded :
    let s := Trace.run Attempts.step (Attempts.start waitingDb) unfinished
    let s' := Trace.run Attempts.step (Attempts.start waitingDb) failedTwice
    ((s.db.run? 7).map RunRow.status = some .running ∧ s.tries 7 = onePolicy.maxAttempts ∧
      (oneStore 20).begin 7 true s.db =
        .error (.new .workerError "Retry budget is exhausted; run needs recovery")) ∧
      s'.tries 7 = 2 ∧ (failedAgain.perform s'.db).isOk = true ∧
        (s'.step failedAgain).tries 7 = 1 := by
  decide

/-- A time-out, then a failure of the workflow's own. -/
def twoTurns : List Turn :=
  [⟨storeAt 0 1, .raised (.new .timeoutError ""), storeAt 10 2⟩,
    ⟨storeAt 11 3, .raised (.new .valueError ""), storeAt 20 4⟩]

/-- The sample requests are admissible. -/
theorem twoTurns_admissible :
    Trace.Meets (Request.step RetryConfig.default) (Request.Admissible RetryConfig.default)
      (Attempts.start waitingDb) [.process 7 twoTurns] :=
  ⟨by simp [Request.Admissible, twoTurns, storeAt], trivial⟩

/-- The state after them. -/
def afterTwoTurns : Attempts :=
  Trace.run Attempts.step (Attempts.start waitingDb)
    (callsOf RetryConfig.default (Attempts.start waitingDb) [.process 7 twoTurns])

set_option maxRecDepth 8000 in
/-- The theorem applies to two turns that both fail. -/
theorem dead_letter_machine_twoTurns : ∃ row, afterTwoTurns.db.run? 7 = some row ∧
    row.status = .failed ∧ afterTwoTurns.tries 7 = 2 ∧
    afterTwoTurns.Consistent RetryConfig.default 7 row := by
  have hrow : ∃ row, afterTwoTurns.db.run? 7 = some row ∧ row.status = .failed :=
    ⟨_, rfl, by decide⟩
  obtain ⟨row, hrow, hst⟩ := hrow
  refine ⟨row, hrow, hst, by decide, ?_⟩
  exact ((dead_letter_machine untried_waitingDb twoTurns_admissible).1 _ []
    (List.append_nil _).symm _ rfl).1 7 row hrow

end InvoiceOps
