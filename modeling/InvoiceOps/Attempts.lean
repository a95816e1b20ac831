import InvoiceOps.AttemptStore
import InvoiceOps.Trace

/-!
# Runs under any calls of the store

Workers and operators call the store in any order. The state is the database with, for each
run, the number of the attempt it handed out last. `Track` is one run of it : its row, its
events and its last claim. `Moved` says all a call can do to a run's track (`step_moved`), and
every invariant of the calls is proved from it.
-/

open ReadCommitted

namespace InvoiceOps

/-- The calls that move a run, with their arguments. -/
inductive Operation where
  | begin (runId : Uuid) (continuation : Bool)
  | settle (a : RunAttempt) (result : InvoiceGraphState)
  | failed (a : RunAttempt) (errorType : String) (retryable terminal : Bool)
  | redrive (runId : Uuid) (key actorId reason : String)
  deriving DecidableEq

/-- What a call returns. -/
inductive Answer where
  | claimed (a : Option RunAttempt)
  | recorded
  | redriven (fresh : Bool)
  deriving DecidableEq

/-- A call : the store it is made on, and what is asked of it. -/
structure Call where
  store : PostgresAttemptStore
  op : Operation

/-- The database, and the number of each run's most recently claimed attempt. -/
structure Attempts where
  db : Db
  latest : Uuid → Option (ℕ × ℕ)

namespace Operation

/-- The run an operation is about. -/
def runId : Operation → Uuid
  | .begin r _ => r
  | .settle a _ => a.runId
  | .failed a _ _ _ => a.runId
  | .redrive r _ _ _ => r

/-- The attempt an operation ends. -/
def ends : Operation → Option RunAttempt
  | .settle a _ => some a
  | .failed a _ _ _ => some a
  | _ => none

/-- An ending call that is accepted on its own arguments and finds a running row it
changes. -/
def Alters (op : Operation) (row : RunRow) : Prop :=
  row.status = .running ∧
    match op with
    | .settle a result =>
      result.runId = a.runId ∧ result.invoiceId = a.invoiceId ∧ result.traceId = a.traceId ∧
        (PostgresAttemptStore.settledStatus result.status).isSome
    | .failed a errorType retryable terminal =>
      (PostgresAttemptStore.failure a errorType retryable terminal).Valid ∧
        (terminal = true ∨
          row.error ≠ some (PostgresAttemptStore.failure a errorType retryable terminal).toJson)
    | _ => False

instance (op : Operation) (row : RunRow) : Decidable (op.Alters row) :=
  match op with
  | .begin _ _ => inferInstanceAs (Decidable (_ ∧ False))
  | .settle _ _ => inferInstanceAs (Decidable (_ ∧ _ ∧ _ ∧ _ ∧ _))
  | .failed _ _ _ _ => inferInstanceAs (Decidable (_ ∧ _ ∧ (_ ∨ _)))
  | .redrive _ _ _ _ => inferInstanceAs (Decidable (_ ∧ False))

end Operation

namespace Call

/-- What a call answers, and what it writes, in one transaction. -/
def perform (c : Call) (d : Db) : Except Exn (Answer × List Write) :=
  match c.op with
  | .begin runId continuation =>
    (c.store.begin runId continuation d).map fun out => (.claimed out.1, out.2)
  | .settle a result => (c.store.settle a result d).map fun ws => (.recorded, ws)
  | .failed a errorType retryable terminal =>
    (c.store.failed a errorType retryable terminal d).map fun ws => (.recorded, ws)
  | .redrive runId key actorId reason =>
    (c.store.redrive runId key actorId reason d).map fun out => (.redriven out.1, out.2)

end Call

namespace Attempts

/-- The last attempt of each run, once the answer is known. -/
def claim (latest : Uuid → Option (ℕ × ℕ)) : Answer → Uuid → Option (ℕ × ℕ)
  | .claimed (some a) => Function.update latest a.runId (some a.number)
  | _ => latest

/-- A call that raises has written nothing. -/
def step (s : Attempts) (c : Call) : Attempts :=
  match c.perform s.db with
  | .error _ => s
  | .ok (answer, ws) => ⟨schema.applyAll s.db ws, claim s.latest answer⟩

/-- Nobody has claimed anything. -/
def start (d : Db) : Attempts :=
  ⟨d, fun _ => none⟩

end Attempts

/-! ## One run -/

/-- What the store holds of one run, with the last attempt claimed of it. -/
structure Track where
  row : RunRow
  events : List LedgerEvent
  latest : Option (ℕ × ℕ)

namespace Track

/-- The events of a type, in order. -/
def ofType (eventType : Version) (t : Track) : List LedgerEvent :=
  t.events.filter fun e => e.eventType = eventType

/-- The redrives of the run. -/
def redrives (t : Track) : List LedgerEvent :=
  t.ofType redriven

/-- The dead letters of the run. -/
def deadLetters (t : Track) : List LedgerEvent :=
  t.ofType deadLettered

/-- The run needs no attempt. -/
def Settled (t : Track) : Prop :=
  t.row.status = .completed ∨ t.row.status = .paused

end Track

/-- The track of a run. -/
def Attempts.track (s : Attempts) (r : Uuid) : Option Track :=
  (s.db.run? r).map fun row => ⟨row, s.db.eventsOf r, s.latest r⟩

/-- The run was redriven with this key. -/
def Track.RedrivenWith (t : Track) (key : String) : Prop :=
  ∃ e ∈ t.redrives, e.payload.hasText "idempotency_key" key = true

/-- What an operation that writes nothing and returns has found. -/
def Operation.Found (op : Operation) (t : Track) : Prop :=
  match op with
  | .begin _ _ => t.Settled
  | .settle _ _ => t.Settled
  | .failed a errorType retryable terminal =>
    (PostgresAttemptStore.failure a errorType retryable terminal).Valid ∧
      t.row.status = PostgresAttemptStore.failedStatus terminal ∧
      t.row.error = some (PostgresAttemptStore.failure a errorType retryable terminal).toJson
  | .redrive _ key _ _ => t.RedrivenWith key

/-- What an operation can do to the track of the run `r`, by whether it returns. -/
inductive Moved (store : PostgresAttemptStore) (r : Uuid) :
    Operation → Bool → Track → Track → Prop
  | other (op : Operation) (returned : Bool) (t : Track) (other : op.runId ≠ r) :
      Moved store r op returned t t
  | raised (op : Operation) (t : Track) : Moved store r op false t t
  | found (op : Operation) (t : Track) (found : op.Found t) : Moved store r op true t t
  | claimed (continuation : Bool) (t : Track) (state : RetryState)
      (waiting : t.row.status = .queued ∨ t.row.status = .running)
      (stored : RetryState.ofColumn t.row.error = .ok state)
      (budget : state.attempts < store.config.maxAttempts) :
      Moved store r (.begin r continuation) true t
        { t with row := store.claimed t.row, latest := some (state.cycle, state.attempts + 1) }
  | settled (a : RunAttempt) (result : InvoiceGraphState) (t : Track) (status : RunStatus)
      (run : a.runId = r) (alters : (Operation.settle a result).Alters t.row)
      (status_eq : status = .paused ∨ status = .completed) :
      Moved store r (.settle a result) true t { t with row := store.settled t.row status }
  | retrying (a : RunAttempt) (errorType : String) (retryable : Bool) (t : Track)
      (run : a.runId = r) (running : t.row.status = .running)
      (valid : (PostgresAttemptStore.failure a errorType retryable false).Valid) :
      Moved store r (.failed a errorType retryable false) true t
        { t with row := store.afterFailure t.row
                  (PostgresAttemptStore.failure a errorType retryable false) }
  | deadLettered (a : RunAttempt) (errorType : String) (retryable : Bool) (t : Track)
      (e : LedgerEvent) (run : a.runId = r) (running : t.row.status = .running)
      (valid : (PostgresAttemptStore.failure a errorType retryable true).Valid)
      (type : e.eventType = deadLettered)
      (payload : e.payload =
        (PostgresAttemptStore.deadLetterEvent a errorType retryable).payload) :
      Moved store r (.failed a errorType retryable true) true t
        { t with
          row := store.afterFailure t.row
            (PostgresAttemptStore.failure a errorType retryable true)
          events := t.events ++ [e] }
  | redriven (key actorId reason : String) (t : Track) (state : RetryState) (e : LedgerEvent)
      (failed : t.row.status = .failed)
      (stored : RetryState.ofColumn t.row.error = .ok state)
      (dead : state.deadLettered = true) (unused : ¬t.RedrivenWith key)
      (type : e.eventType = redriven)
      (payload : e.payload =
        PostgresAttemptStore.redrivePayload key actorId reason state.cycle) :
      Moved store r (.redrive r key actorId reason) true t
        { t with
          row := PostgresAttemptStore.requeued t.row (state.cycle + 1)
          events := t.events ++ [e] }

/-! ## Every call moves a run's track -/

section

variable {d : Db} {s : Attempts} {c : Call} {r : Uuid} {row row' : RunRow} {e : LedgerEvent}

/-- A row that is set is the run's, and of no other run. -/
theorem run?_setRun (hrow : d.run? row.id = some row) (hid : row'.id = row.id) :
    (d.apply (.setRun row')).run? r = if r = row.id then some row' else d.run? r := by
  unfold Db.run? at hrow ⊢
  rw [Db.apply, lookup_replace]
  split
  · rename_i h
    rw [h, hrow, Option.map_some, if_pos hid.symm]
  · rename_i h
    cases hr : lookup RunRow.id d.runs r with
    | none => rfl
    | some x =>
      have hx := key_of_lookup hr
      rw [Option.map_some, if_neg (by rw [hx, hid]; exact h)]

/-- The track of the run of a row. -/
theorem track_of_run? (hrow : d.run? row.id = some row) {latest : Uuid → Option (ℕ × ℕ)} :
    Attempts.track ⟨d, latest⟩ row.id = some ⟨row, d.eventsOf row.id, latest row.id⟩ := by
  rw [Attempts.track, hrow, Option.map_some]

theorem applyAll_insertEvent (d : Db) (evs : List LedgerEvent) :
    schema.applyAll d (evs.map .insertEvent) = { d with ledger := d.ledger ++ evs } := by
  induction evs generalizing d with
  | nil => simp
  | cons e evs ih =>
    rw [List.map_cons, Schema.applyAll_cons, ih]
    simp [schema, Db.apply]

/-- Writes to the row of one run, with events of its own, leave the other runs' tracks. -/
theorem track_writes (hrow : d.run? row.id = some row) (hid : row'.id = row.id)
    {evs : List LedgerEvent} (hevs : ∀ e ∈ evs, e.runId = row.id)
    {latest latest' : Uuid → Option (ℕ × ℕ)} (hl : r ≠ row.id → latest' r = latest r) :
    Attempts.track ⟨schema.applyAll d (.setRun row' :: evs.map .insertEvent), latest'⟩ r =
      if r = row.id then some ⟨row', d.eventsOf r ++ evs, latest' r⟩
      else Attempts.track ⟨d, latest⟩ r := by
  have hrun : ({ d.apply (.setRun row') with ledger := d.ledger ++ evs } : Db).run? r =
      (d.apply (.setRun row')).run? r := rfl
  have hevents : ({ d.apply (.setRun row') with ledger := d.ledger ++ evs } : Db).eventsOf r =
      d.eventsOf r ++ evs.filter fun e => e.runId = r := by
    simp [Db.eventsOf, List.filter_append]
  rw [Schema.applyAll_cons, applyAll_insertEvent]
  change Option.map _ (({ d.apply (.setRun row') with ledger := d.ledger ++ evs } : Db).run? r) = _
  rw [hrun, run?_setRun hrow hid]
  change Option.map (fun x => Track.mk x
    (({ d.apply (.setRun row') with ledger := d.ledger ++ evs } : Db).eventsOf r) (latest' r)) _ = _
  rw [hevents]
  by_cases hr : r = row.id
  · have hall : evs.filter (fun e => e.runId = r) = evs := by
      rw [List.filter_eq_self]
      intro e he
      simp [hevs e he, hr]
    rw [if_pos hr, if_pos hr, hall, Option.map_some]
  · have hnone : evs.filter (fun e => e.runId = r) = [] := by
      rw [List.filter_eq_nil_iff]
      intro e he
      simp [hevs e he, Ne.symm hr]
    rw [if_neg hr, if_neg hr, hnone, List.append_nil, hl hr]
    rfl

variable {latest latest' : Uuid → Option (ℕ × ℕ)} {store : PostgresAttemptStore} {op : Operation}
  {t : Track} {ws : List Write}

/-- Writes to the row of an operation's run move its track and no other. -/
theorem writes_moved (op : Operation) (h : Attempts.track ⟨d, latest⟩ r = some t)
    (hrow : d.run? op.runId = some row) (hid : row'.id = row.id) (evs : List LedgerEvent)
    (hevs : ∀ e ∈ evs, e.runId = op.runId) (hl : r ≠ op.runId → latest' r = latest r)
    (hmoved : op.runId = r → Moved store r op true ⟨row, d.eventsOf r, latest r⟩
      ⟨row', d.eventsOf r ++ evs, latest' r⟩) :
    ∃ t', Attempts.track ⟨schema.applyAll d (.setRun row' :: evs.map .insertEvent), latest'⟩ r =
      some t' ∧ Moved store r op true t t' := by
  have hrun : row.id = op.runId := key_of_lookup hrow
  rw [← hrun] at hrow hevs hl hmoved
  rw [track_writes hrow hid hevs hl]
  by_cases hr : r = row.id
  · subst hr
    obtain rfl := Option.some.inj (h.symm.trans (track_of_run? hrow))
    exact ⟨_, if_pos rfl, hmoved rfl⟩
  · exact ⟨t, (if_neg hr).trans h, .other _ _ _ (by rw [← hrun]; exact Ne.symm hr)⟩

/-- A call that writes nothing moves nothing. -/
theorem found_moved (op : Operation) (h : Attempts.track ⟨d, latest⟩ r = some t)
    (hrow : d.run? op.runId = some row)
    (hfound : op.Found ⟨row, d.eventsOf op.runId, latest op.runId⟩) :
    ∃ t', Attempts.track ⟨schema.applyAll d [], latest⟩ r = some t' ∧
      Moved store r op true t t' := by
  refine ⟨t, h, ?_⟩
  by_cases hr : op.runId = r
  · subst hr
    rw [Attempts.track, hrow, Option.map_some] at h
    obtain rfl := Option.some.inj h
    exact .found _ _ hfound
  · exact .other _ _ _ hr

/-- `begin` moves the run as `Moved` has it. -/
theorem begin_moved (h : Attempts.track ⟨d, latest⟩ r = some t) {run : Uuid}
    {continuation : Bool} {answer : Option RunAttempt}
    (hb : store.begin run continuation d = .ok (answer, ws)) :
    ∃ t', Attempts.track ⟨schema.applyAll d ws, Attempts.claim latest (.claimed answer)⟩ r =
      some t' ∧ Moved store r (.begin run continuation) true t t' := by
  obtain ⟨row, hrow, ⟨hst, rfl, rfl⟩ | ⟨hst, hclaim⟩⟩ := PostgresAttemptStore.begin_ok hb
  · exact found_moved (.begin run continuation) h hrow hst
  · obtain ⟨state, a, rfl, rfl, hstate, hlt, hrun, hnum⟩ := PostgresAttemptStore.claim_ok hclaim
    have hrun' : a.runId = run := hrun.trans (key_of_lookup hrow)
    refine writes_moved (.begin run continuation) h hrow (by rfl) [] (by simp) ?_ ?_
    · intro hne
      exact Function.update_of_ne (by rwa [hrun']) _ _
    · rintro rfl
      have hl : Function.update latest a.runId (some a.number) run =
          some (state.cycle, state.attempts + 1) := by
        rw [← hrun', Function.update_self, hnum]
      change Moved store run _ true _ ⟨_, _, Function.update latest a.runId (some a.number) run⟩
      rw [hl, List.append_nil]
      exact .claimed continuation _ state hst hstate hlt

/-- So does `settle`. -/
theorem settle_moved (h : Attempts.track ⟨d, latest⟩ r = some t) {a : RunAttempt}
    {result : InvoiceGraphState} (hb : store.settle a result d = .ok ws) :
    ∃ t', Attempts.track ⟨schema.applyAll d ws, latest⟩ r = some t' ∧
      Moved store r (.settle a result) true t t' := by
  obtain ⟨⟨hrun, hinv, htrace⟩, row, status, hrow, hstatus, ⟨hrunning, rfl⟩ | ⟨hsame, -, rfl⟩⟩ :=
    PostgresAttemptStore.settle_ok hb
  · refine writes_moved (.settle a result) h hrow (by rfl) [] (by simp) (fun _ => rfl) fun hr => ?_
    rw [List.append_nil]
    refine .settled a result _ status hr ⟨hrunning, hrun, hinv, htrace, ?_⟩ ?_
    · rw [hstatus, Option.isSome_some]
    · exact PostgresAttemptStore.settledStatus_cases hstatus
  · refine found_moved (.settle a result) h hrow ?_
    rcases PostgresAttemptStore.settledStatus_cases hstatus with rfl | rfl
    · exact .inr hsame
    · exact .inl hsame

/-- So does `failed`. -/
theorem failed_moved (h : Attempts.track ⟨d, latest⟩ r = some t) {a : RunAttempt}
    {errorType : String} {retryable terminal : Bool}
    (hb : store.failed a errorType retryable terminal d = .ok ws) :
    ∃ t', Attempts.track ⟨schema.applyAll d ws, latest⟩ r = some t' ∧
      Moved store r (.failed a errorType retryable terminal) true t t' := by
  obtain ⟨hvalid, row, hrow, ⟨hrunning, ⟨rfl, rfl⟩ | ⟨rfl, w, e, rfl, he⟩⟩ |
    ⟨hst, herr, rfl⟩⟩ := PostgresAttemptStore.failed_ok hb
  · refine writes_moved (.failed a errorType retryable _) h hrow (by rfl) [] (by simp)
      (fun _ => rfl) fun hr => ?_
    rw [List.append_nil]
    exact .retrying a errorType retryable _ hr hrunning hvalid
  · have hrun : e.runId = a.runId := by rw [he.event]; rfl
    refine writes_moved (.failed a errorType retryable _) h hrow (by rfl) [e]
      (List.forall_mem_singleton.mpr hrun) (fun _ => rfl) fun hr => ?_
    refine .deadLettered a errorType retryable _ e hr hrunning hvalid ?_ ?_
    · rw [he.event]; rfl
    · rw [he.event]; rfl
  · exact found_moved (.failed a errorType retryable _) h hrow ⟨hvalid, hst, herr⟩

/-- The redrive that was found has the key. -/
theorem earlierRedrive_some {key : String}
    (h : PostgresAttemptStore.earlierRedrive d r key = some e) :
    Track.RedrivenWith ⟨row, d.eventsOf r, latest r⟩ key := by
  have hp := List.find?_some h
  simp only [decide_eq_true_eq] at hp
  exact ⟨e, List.mem_filter.mpr ⟨List.mem_of_find?_eq_some h, by simpa using hp.1⟩, hp.2⟩

/-- If none was found, the key was not used. -/
theorem earlierRedrive_none {key : String}
    (h : PostgresAttemptStore.earlierRedrive d r key = none) :
    ¬Track.RedrivenWith ⟨row, d.eventsOf r, latest r⟩ key := by
  rintro ⟨e, he, hkey⟩
  obtain ⟨hmem, htype⟩ := List.mem_filter.mp he
  have hno := List.find?_eq_none.mp h e hmem
  simp only [decide_eq_true_eq, not_and] at hno htype
  exact hno htype hkey

/-- So does `redrive`. -/
theorem redrive_moved (h : Attempts.track ⟨d, latest⟩ r = some t) {run : Uuid}
    {key actorId reason : String} {answer : Bool}
    (hb : store.redrive run key actorId reason d = .ok (answer, ws)) :
    ∃ t', Attempts.track ⟨schema.applyAll d ws, latest⟩ r = some t' ∧
      Moved store r (.redrive run key actorId reason) true t t' := by
  obtain ⟨-, row, hrow, ⟨⟨e, hprior⟩, -, rfl⟩ |
    ⟨state, w, e, a, actor, hprior, hfailed, hstate, hdead, -, ha, rfl, he⟩⟩ :=
    PostgresAttemptStore.redrive_ok hb
  · exact found_moved (.redrive run key actorId reason) h hrow (earlierRedrive_some hprior)
  · have hrun : e.runId = run := by rw [he.event, ← ha]; rfl
    refine writes_moved (.redrive run key actorId reason) h hrow (by rfl) [e]
      (List.forall_mem_singleton.mpr hrun) (fun _ => rfl) ?_
    rintro rfl
    refine .redriven key actorId reason _ state e hfailed hstate hdead
      (earlierRedrive_none hprior) ?_ ?_
    · rw [he.event]; rfl
    · rw [he.event]; rfl

theorem map_eq_ok {α β : Type} {x : Except Exn α} {f : α → β} {b : β} (h : x.map f = .ok b) :
    ∃ a, x = .ok a ∧ f a = b := by
  cases x with
  | error e => cases h
  | ok a => exact ⟨a, rfl, Except.ok.inj h⟩

/-- What a call can do to a run. -/
theorem step_moved (h : s.track r = some t) :
    ∃ t', (s.step c).track r = some t' ∧ Moved c.store r c.op (c.perform s.db).isOk t t' := by
  unfold Attempts.step
  cases hout : c.perform s.db with
  | error e => exact ⟨t, h, .raised _ _⟩
  | ok out =>
    obtain ⟨store, op⟩ := c
    cases op with
    | begin run continuation =>
      obtain ⟨⟨a, ws⟩, hb, rfl⟩ := map_eq_ok hout
      exact begin_moved h hb
    | settle a result =>
      obtain ⟨ws, hb, rfl⟩ := map_eq_ok hout
      exact settle_moved h hb
    | failed a errorType retryable terminal =>
      obtain ⟨ws, hb, rfl⟩ := map_eq_ok hout
      exact failed_moved h hb
    | redrive run key actorId reason =>
      obtain ⟨⟨b, ws⟩, hb, rfl⟩ := map_eq_ok hout
      exact redrive_moved h hb

/-- A call writes nothing, or one run's row and events. -/
theorem perform_writes {answer : Answer} (h : c.perform d = .ok (answer, ws)) :
    ws = [] ∨ ∃ (row : RunRow) (evs : List LedgerEvent),
      ws = .setRun row :: evs.map .insertEvent := by
  obtain ⟨store, op⟩ := c
  cases op with
  | begin run continuation =>
    obtain ⟨⟨a, ws⟩, hb, heq⟩ := map_eq_ok h
    cases heq
    obtain ⟨row, hrow, ⟨-, -, rfl⟩ | ⟨-, hclaim⟩⟩ := PostgresAttemptStore.begin_ok hb
    · exact .inl rfl
    · obtain ⟨state, a, -, rfl, -⟩ := PostgresAttemptStore.claim_ok hclaim
      exact .inr ⟨_, [], rfl⟩
  | settle a result =>
    obtain ⟨ws, hb, heq⟩ := map_eq_ok h
    cases heq
    obtain ⟨-, row, status, -, -, ⟨-, rfl⟩ | ⟨-, -, rfl⟩⟩ := PostgresAttemptStore.settle_ok hb
    · exact .inr ⟨_, [], rfl⟩
    · exact .inl rfl
  | failed a errorType retryable terminal =>
    obtain ⟨ws, hb, heq⟩ := map_eq_ok h
    cases heq
    obtain ⟨-, row, -, ⟨-, ⟨-, rfl⟩ | ⟨-, w, e, rfl, -⟩⟩ | ⟨-, -, rfl⟩⟩ :=
      PostgresAttemptStore.failed_ok hb
    · exact .inr ⟨_, [], rfl⟩
    · exact .inr ⟨_, [e], rfl⟩
    · exact .inl rfl
  | redrive run key actorId reason =>
    obtain ⟨⟨b, ws⟩, hb, heq⟩ := map_eq_ok h
    cases heq
    obtain ⟨-, row, -, ⟨-, -, rfl⟩ | ⟨state, w, e, a, actor, -, -, -, -, -, -, rfl, -⟩⟩ :=
      PostgresAttemptStore.redrive_ok hb
    · exact .inl rfl
    · exact .inr ⟨_, [e], rfl⟩

/-- No call adds or drops a run. -/
theorem step_ids : (s.step c).db.runs.map RunRow.id = s.db.runs.map RunRow.id := by
  unfold Attempts.step
  cases hout : c.perform s.db with
  | error e => rfl
  | ok out =>
    obtain ⟨answer, ws⟩ := out
    rcases perform_writes hout with rfl | ⟨row, evs, rfl⟩
    · rfl
    · change (schema.applyAll s.db _).runs.map RunRow.id = _
      rw [Schema.applyAll_cons, applyAll_insertEvent]
      exact map_key_replace s.db.runs row

end

end InvoiceOps
