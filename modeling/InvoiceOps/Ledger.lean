import InvoiceOps.Tables
import Mathlib.Data.List.Nodup
import Mathlib.Logic.Relation

/-!
# The ledger writer

`LedgerWriter.append` stages one event in its caller's transaction : it locks the run's
row, checks the command against the run and the superseded event, reads `MAX + 1` of the
run's sequence and inserts. `LedgerWriter.event` is the same on one view of the database,
with nothing in between ; `wp_append` says that this is what `append` stages, whatever
other sessions commit between its statements.

`LedgerInv` is what the committed ledger keeps. `Caller` is any use of one transaction : a
tree of appends that looks at each answer and ends in a commit or a rollback, and
`callers` is any number of such transactions at once.
-/

open Shared ReadCommitted

namespace InvoiceOps

/-! ## Commands -/

/-- The versions a caller gives for its event. -/
structure VersionOverrides where
  graphVersion : Option Version := none
  modelVersion : Option Version := none
  promptVersion : Option Version := none
  policyVersion : Option Version := none
  deriving DecidableEq, Repr

/-- `AppendEvent`. -/
structure AppendEvent where
  runId : Uuid
  invoiceId : Uuid
  eventType : Version
  actorType : ActorType
  actorId : Version
  payload : Json
  node : Option Version := none
  supersedesId : Option Uuid := none
  versions : Option VersionOverrides := none
  deriving DecidableEq, Repr

/-- `LedgerSettings.resolve`. -/
def VersionPins.resolve (settings : VersionPins) : Option VersionOverrides → VersionPins
  | none => settings
  | some overrides =>
    ⟨overrides.graphVersion.getD settings.graphVersion,
      overrides.modelVersion.getD settings.modelVersion,
      overrides.promptVersion.getD settings.promptVersion,
      overrides.policyVersion.getD settings.policyVersion⟩

/-- What an event takes from its run. -/
structure RunIdentity where
  invoiceId : Uuid
  graphVersion : Version
  traceId : String

/-- `RunIdentity.model_validate`. -/
def RunIdentity.validate (row : RunRow) : Except Exn RunIdentity :=
  match Version.ofString? row.graphVersion with
  | some version =>
    if isTraceId row.traceId then .ok ⟨row.invoiceId, version, row.traceId⟩
    else .error (.new .validationError "RunIdentity")
  | none => .error (.new .validationError "RunIdentity")

/-- `COALESCE(MAX(sequence), 0) + 1` over the run's events. -/
def Db.nextSequence (d : Db) (runId : Uuid) : ℤ :=
  (((d.eventsOf runId).map LedgerEvent.sequence).max?.getD 0) + 1

/-- The constraint of the ledger table an insert of `event` breaks. -/
def Db.ledgerConflict (d : Db) (event : LedgerEvent) : Option String :=
  if (d.event? event.id).isSome then some "ledger_pkey"
  else if (d.eventsOf event.runId).any fun e => e.sequence = event.sequence then
    some "uq_ledger_run_sequence"
  else if event.sequence ≤ 0 then some "ck_ledger_sequence"
  else if (d.run? event.runId).map RunRow.invoiceId ≠ some event.invoiceId then
    some "fk_ledger_run_invoice"
  else if event.supersedesId.any fun id => (d.event? id).isNone then
    some "ledger_supersedes_id_fkey"
  else none

/-! ## The writer -/

/-- A writer, with the identifier and the time its next append takes. -/
structure LedgerWriter where
  settings : VersionPins
  newId : Uuid
  clock : Instant

namespace LedgerWriter

variable {ι A : Type} [DecidableEq ι] (w : LedgerWriter)

/-- The event as it will stand in the ledger. -/
def stamp (command : AppendEvent) (sequence : ℤ) : LedgerEvent where
  id := w.newId
  runId := command.runId
  invoiceId := command.invoiceId
  sequence := sequence
  eventType := command.eventType
  actorType := command.actorType
  actorId := command.actorId
  payload := command.payload
  node := command.node
  supersedesId := command.supersedesId
  versions := w.settings.resolve command.versions
  createdAt := w.clock

/-- The run the command names has to be the command's invoice's, on the graph version the
event is pinned to. -/
def checkIdentity (command : AppendEvent) (row : RunRow) : Except Exn Unit :=
  match RunIdentity.validate row with
  | .error e => .error e
  | .ok identity =>
    if identity.invoiceId ≠ command.invoiceId ∨
        identity.graphVersion ≠ (w.settings.resolve command.versions).graphVersion then
      .error (.new .ledgerIdentityMismatch "Event invoice or graph version does not match its run")
    else .ok ()

/-- `_check_supersession`, on the row of the superseded event. -/
def checkSupersession (command : AppendEvent) (previous : Option LedgerEvent) :
    Except Exn Unit :=
  match previous with
  | none => .error (.new .ledgerIdentityMismatch
      "Superseded event must belong to this invoice and run")
  | some p =>
    if p.runId ≠ command.runId ∨ p.invoiceId ≠ command.invoiceId then
      .error (.new .ledgerIdentityMismatch "Superseded event must belong to this invoice and run")
    else .ok ()

/-- `_check_supersession` on one view. -/
def checkSuperseded (command : AppendEvent) (d : Db) : Except Exn Unit :=
  match command.supersedesId with
  | none => .ok ()
  | some id => checkSupersession command (d.event? id)

/-- `SELECT ... FROM public.runs WHERE id = %s FOR UPDATE`. -/
def selectRun (runId : Uuid) : Sql Db Write Lock (Option RunRow) :=
  .readForUpdate (fun d => d.run? runId) fun row => [.runRow row.id]

/-- `INSERT INTO public.ledger`. -/
def insertLedger (event : LedgerEvent) : Sql Db Write Lock Unit :=
  .insert (fun d => d.ledgerConflict event)
    [.eventPk event.id, .eventSequence event.runId event.sequence] (.insertEvent event)

/-- `_append`. -/
def stage (command : AppendEvent) : Client ι A LedgerEvent := do
  let row ← sql schema (selectRun command.runId)
  match row with
  | none => throw (.new .ledgerRunNotFound "Run does not exist")
  | some row => do
    Prog.ofExcept (w.checkIdentity command row)
    match command.supersedesId with
    | none => pure ()
    | some id => do
      let previous ← sql schema (.read fun d => d.event? id)
      Prog.ofExcept (checkSupersession command previous)
    let sequence ← sql schema (.read fun d => d.nextSequence command.runId)
    sql schema (insertLedger (w.stamp command sequence))
    return w.stamp command sequence

/-- What a failure of `_append` is reported as. -/
def reported (error : Exn) : Exn :=
  if error.isInstance .ledgerError then error
  else if error.isInstance .integrityError then
    .chained .ledgerConflict "Ledger append conflicts with persisted constraints" error
  else if error.isInstance .psycopgError ∨ error.isInstance .validationError then
    .chained .ledgerStorageError "Ledger append failed" error
  else error

/-- Stage one event in the caller's transaction. -/
def append (command : AppendEvent) (traceId : String) : Client ι A LedgerEvent :=
  if isTraceId traceId then do
    let status ← Prog.exec statusStmt
    if status = .inTrans then
      (w.stage command).tryCatch fun error => throw (reported error)
    else throw (.new .ledgerTransactionRequired
      "Append requires an active caller-owned transaction")
  else throw (.new .validationError "LedgerContext")

/-- The event `_append` inserts if it runs on the view `d` with nothing in between. -/
def event (command : AppendEvent) (d : Db) : Except Exn LedgerEvent :=
  match d.run? command.runId with
  | none => .error (.new .ledgerRunNotFound "Run does not exist")
  | some row => do
    w.checkIdentity command row
    checkSuperseded command d
    match d.ledgerConflict (w.stamp command (d.nextSequence command.runId)) with
    | some name => .error (.new .integrityError name)
    | none => .ok (w.stamp command (d.nextSequence command.runId))

/-- `append` in an open transaction with nothing in between. -/
def appendNow (command : AppendEvent) (traceId : String) (d : Db) : Except Exn (List Write) :=
  if isTraceId traceId then
    match w.event command d with
    | .ok e => .ok [.insertEvent e]
    | .error e => .error (reported e)
  else .error (.new .validationError "LedgerContext")

end LedgerWriter

/-! ## What an append stages -/

/-- `e` is what `w` stages for `command` on the view `d`. -/
structure LedgerWriter.Appended (w : LedgerWriter) (command : AppendEvent) (d : Db)
    (e : LedgerEvent) : Prop where
  event : e = w.stamp command (d.nextSequence command.runId)
  run : ∃ row, d.run? command.runId = some row ∧ w.checkIdentity command row = .ok ()
  supersedes : ∀ id, command.supersedesId = some id →
    ∃ p ∈ d.eventsOf command.runId, p.id = id ∧ p.invoiceId = command.invoiceId
  fresh : d.event? e.id = none

namespace LedgerWriter

variable {w : LedgerWriter} {command : AppendEvent} {d d' : Db} {e : LedgerEvent}

/-- An event that conflicts with nothing has a new id. -/
theorem fresh_of_ledgerConflict (h : d.ledgerConflict e = none) : d.event? e.id = none := by
  unfold Db.ledgerConflict at h
  split at h
  · cases h
  · rename_i hnone
    simpa using hnone

/-- The event that is superseded is of the same run and invoice. -/
theorem mem_of_checkSupersession {id : Uuid}
    (h : checkSupersession command (d.event? id) = .ok ()) :
    ∃ p ∈ d.eventsOf command.runId, p.id = id ∧ p.invoiceId = command.invoiceId := by
  cases hp : d.event? id with
  | none => simp [checkSupersession, hp] at h
  | some p =>
    simp only [checkSupersession, hp, ne_eq, ite_eq_right_iff, reduceCtorEq, imp_false, not_or,
      not_not] at h
    refine ⟨p, ?_, key_of_lookup hp, h.2⟩
    simp [Db.eventsOf, mem_of_lookup hp, h.1]

/-- So is the one that an append names. -/
theorem checkSuperseded_ok (h : checkSuperseded command d = .ok ()) (id : Uuid)
    (hid : command.supersedesId = some id) :
    ∃ p ∈ d.eventsOf command.runId, p.id = id ∧ p.invoiceId = command.invoiceId := by
  simp only [checkSuperseded, hid] at h
  exact mem_of_checkSupersession h

/-- The append in one go stages what `Appended` says. -/
theorem appended_of_event (h : w.event command d = .ok e) : w.Appended command d e := by
  unfold event at h
  cases hrow : d.run? command.runId with
  | none => simp [hrow] at h
  | some row =>
    simp only [hrow, bind_eq_ok] at h
    obtain ⟨u, hid, v, hsup, h⟩ := h
    cases hc : d.ledgerConflict (w.stamp command (d.nextSequence command.runId)) with
    | some name => simp [hc] at h
    | none =>
      simp only [hc] at h
      cases h
      exact ⟨rfl, ⟨row, hrow, hid⟩, checkSuperseded_ok hsup, fresh_of_ledgerConflict hc⟩

/-- What is staged depends only on what the locks of the run and of the event guard. -/
theorem Appended.congr (h : w.Appended command d e) (hrun : d'.run? e.runId = d.run? e.runId)
    (hev : d'.eventsOf e.runId = d.eventsOf e.runId) (hid : d'.event? e.id = d.event? e.id) :
    w.Appended command d' e := by
  have hr : e.runId = command.runId := by rw [h.event]; rfl
  rw [hr] at hrun hev
  refine ⟨?_, by rw [hrun]; exact h.run, by rw [hev]; exact h.supersedes,
    by rw [hid]; exact h.fresh⟩
  rw [h.event, Db.nextSequence, Db.nextSequence, hev]

end LedgerWriter

section

variable {ι A : Type} [DecidableEq ι] {lockKey : String → ℤ} {inv : Db → Prop} {i : ι}
  {w : LedgerWriter} {command : AppendEvent} {ws wrote : List Write} {sl ls : List Lock}
  {d₀ : Db} {g : Server ι Db Write Lock} {D : Discipline Write Lock}

/-- The locks an append adds to its transaction's. -/
def LedgerWriter.locks (e : LedgerEvent) : List Lock :=
  [.runRow e.runId, .eventPk e.id, .eventSequence e.runId e.sequence]

/-- From the read of `MAX + 1` on : the run's row is locked and the command has been
checked against it. -/
theorem wp_stage_tail {Q : Except Exn LedgerEvent → Server ι Db Write Lock → Prop} {row : RunRow}
    (hD : Stricter lockKey D) (hi : (protocol schema D inv).inv g)
    (h : At schema D i ⟨.inTrans, ws, wrote⟩ sl (ls ++ [Lock.runRow command.runId]) d₀ g)
    (hrow : (schema.applyAll d₀ ws).run? command.runId = some row)
    (hcheck : w.checkIdentity command row = .ok ())
    (hsup : ∀ id, command.supersedesId = some id →
      ∃ p ∈ (schema.applyAll d₀ ws).eventsOf command.runId,
        p.id = id ∧ p.invoiceId = command.invoiceId)
    (hsql : ReadCommitted.Fails schema D inv i wrote sl d₀ Q)
    (hok : ∀ e d, inv d → Evolved schema D (sl ++ ls) d₀ d →
      w.Appended command (schema.applyAll d ws) e → ∀ g', (protocol schema D inv).inv g' →
      At schema D i ⟨.inTrans, ws ++ [Write.insertEvent e], wrote⟩ sl (ls ++ LedgerWriter.locks e) d
        g' → Q (.ok e) g') :
    (protocol schema D inv).wp i (do
      let sequence ← sql schema (.read fun d => d.nextSequence command.runId)
      sql schema (LedgerWriter.insertLedger (w.stamp command sequence))
      return w.stamp command sequence : Client ι A LedgerEvent) Q g := by
  have hmem : Lock.runRow command.runId ∈ sl ++ (ls ++ [Lock.runRow command.runId]) := by simp
  refine wp_read hi h hsql fun d₂ hd₂ hev₂ g₂ hi₂ h₂ => ?_
  refine wp_insert hi₂ h₂ (by simp [schema]) ?_ (hsql.since hev₂) ?_
  · intro l hl
    have := hD.event _ l hl
    simp only [discipline, LedgerWriter.stamp, List.mem_cons, List.not_mem_nil, or_false] at this
    rcases this with rfl | rfl <;> simp [LedgerWriter.stamp]
  · intro d₃ hd₃ hev₃ hconf g₃ hi₃ h₃
    -- the events and the row of the run are those the earlier statements found
    have hevents : (schema.applyAll d₃ ws).eventsOf command.runId =
        (schema.applyAll d₂ ws).eventsOf command.runId :=
      hev₃.guards_view ((guards_eventsOf _).mono hD.locks) hmem ws
    have hevents₀ := (hev₂.trans hev₃).guards_view ((guards_eventsOf _).mono hD.locks) hmem ws
    have hrow₀ := (hev₂.trans hev₃).guards_view ((guards_run? _).mono hD.locks) hmem ws
    have hnext : (schema.applyAll d₃ ws).nextSequence command.runId =
        (schema.applyAll d₂ ws).nextSequence command.runId := by
      rw [Db.nextSequence, hevents, Db.nextSequence]
    have hstaged : w.Appended command (schema.applyAll d₃ ws)
        (w.stamp command ((schema.applyAll d₂ ws).nextSequence command.runId)) :=
      ⟨by rw [hnext], ⟨row, hrow₀.trans hrow, hcheck⟩, by rwa [hevents₀],
        LedgerWriter.fresh_of_ledgerConflict hconf⟩
    have hev : Evolved schema D (sl ++ ls) d₀ d₃ :=
      (hev₂.trans hev₃).mono (by simp; tauto)
    refine wp_ret hi₃ h₃ fun g' hi' h' => hok _ d₃ hd₃ hev hstaged g' hi' (h'.locks ?_)
    simp [LedgerWriter.locks, LedgerWriter.stamp]

/-- The rule of `_append`, in a transaction that has staged `ws`. -/
theorem wp_stage {Q : Except Exn LedgerEvent → Server ι Db Write Lock → Prop}
    (hD : Stricter lockKey D) (hi : (protocol schema D inv).inv g)
    (h : At schema D i ⟨.inTrans, ws, wrote⟩ sl ls d₀ g)
    (hsql : ReadCommitted.Fails schema D inv i wrote sl d₀ Q)
    (herr : ∀ e g', (protocol schema D inv).inv g' →
      At schema D i ⟨.inTrans, ws, wrote⟩ sl ls d₀ g' → Q (.error e) g')
    (hok : ∀ e d, inv d → Evolved schema D (sl ++ ls) d₀ d →
      w.Appended command (schema.applyAll d ws) e → ∀ g', (protocol schema D inv).inv g' →
      At schema D i ⟨.inTrans, ws ++ [Write.insertEvent e], wrote⟩ sl (ls ++ LedgerWriter.locks e) d
        g' → Q (.ok e) g') :
    (protocol schema D inv).wp i (w.stage command : Client ι A LedgerEvent) Q g := by
  have hraise : ∀ {e d ls' g'}, Evolved schema D (sl ++ ls) d₀ d → (∀ l ∈ ls, l ∈ ls') →
      (protocol schema D inv).inv g' → At schema D i ⟨.inTrans, ws, wrote⟩ sl ls' d g' →
      (protocol schema D inv).wp i (.raise e : Client ι A LedgerEvent) Q g' :=
    fun hev hls hi' h' => wp_raise hi' ((h'.locks hls).since hev) (herr _)
  unfold LedgerWriter.stage
  refine wp_readForUpdate hi h (by simp [schema]) hsql ?_ ?_
  · intro d hd hev hrow g hi h
    exact hraise hev (by simp) hi h
  · intro d₁ hd₁ hev₁ row hrow g₁ hi₁ h₁
    have hid : row.id = command.runId := key_of_lookup hrow
    rw [hid] at h₁
    have hmem : Lock.runRow command.runId ∈ sl ++ (ls ++ [Lock.runRow command.runId]) := by simp
    have hok₁ := fun e d hd (hev : Evolved schema D (sl ++ ls) d₁ d) =>
      hok e d hd (hev₁.trans hev)
    cases hcheck : w.checkIdentity command row with
    | error e =>
      simp only [hcheck]
      exact hraise hev₁ (by simp +contextual) hi₁ h₁
    | ok u =>
      simp only [hcheck]
      cases hsup : command.supersedesId with
      | none =>
        exact wp_stage_tail hD hi₁ h₁ hrow hcheck (by simp [hsup]) (hsql.since hev₁) hok₁
      | some id =>
        refine wp_read hi₁ h₁ (hsql.since hev₁) fun d₂ hd₂ hev₂ g₂ hi₂ h₂ => ?_
        have hev : Evolved schema D (sl ++ ls) d₀ d₂ :=
          hev₁.trans (hev₂.mono (by simp; tauto))
        cases hprev : LedgerWriter.checkSupersession command
            ((schema.applyAll d₂ ws).event? id) with
        | error e =>
          exact hraise hev (by simp +contextual) hi₂ h₂
        | ok u =>
          refine wp_stage_tail hD hi₂ h₂ ?_ hcheck ?_ (hsql.since hev) fun e d hd hev' =>
            hok e d hd (hev.trans hev')
          · exact (hev₂.guards_view ((guards_run? _).mono hD.locks) hmem ws).trans hrow
          · intro id' hid'
            obtain rfl : id = id' := Option.some.inj (hsup.symm.trans hid')
            exact LedgerWriter.mem_of_checkSupersession hprev

end

/-! ## What the ledger keeps -/

/-- The sequences `1..n`. -/
def oneTo (n : ℕ) : List ℤ :=
  (List.range n).map fun k : ℕ => (k : ℤ) + 1

/-- One more number at the end. -/
theorem oneTo_succ (n : ℕ) : oneTo (n + 1) = oneTo n ++ [(n : ℤ) + 1] := by
  simp [oneTo, List.range_succ]

/-- The largest of the numbers is the last. -/
theorem max?_oneTo (n : ℕ) : (oneTo n).max?.getD 0 = n := by
  cases n with
  | zero => rfl
  | succ n =>
    have : (oneTo (n + 1)).max? = some ((n : ℤ) + 1) := by
      rw [List.max?_eq_some_iff]
      refine ⟨by simp [oneTo_succ], fun b hb => ?_⟩
      simp only [oneTo, List.mem_map, List.mem_range] at hb
      obtain ⟨k, hk, rfl⟩ := hb
      omega
    simp [this]

/-- The committed ledger : identifiers are unique, each run's sequences are `1..n` in the
order of the commits, an event has its run's invoice and graph version, and what it
supersedes is an earlier event of its run and invoice. -/
structure LedgerInv (d : Db) : Prop where
  ids : (d.ledger.map LedgerEvent.id).Nodup
  sequences : ∀ r, (d.eventsOf r).map LedgerEvent.sequence = oneTo (d.eventsOf r).length
  identity : ∀ e ∈ d.ledger, ∃ row, d.run? e.runId = some row ∧ row.invoiceId = e.invoiceId ∧
    row.graphVersion = e.versions.graphVersion.val
  supersedes : ∀ e ∈ d.ledger, ∀ s, e.supersedesId = some s →
    ∃ p ∈ d.ledger, p.id = s ∧ p.runId = e.runId ∧ p.invoiceId = e.invoiceId ∧
      p.sequence < e.sequence

namespace LedgerInv

variable {d : Db} {w : LedgerWriter} {command : AppendEvent} {e : LedgerEvent}

/-- The next number of a run is one past its events. -/
theorem nextSequence (h : LedgerInv d) (r : Uuid) :
    d.nextSequence r = (d.eventsOf r).length + 1 := by
  rw [Db.nextSequence, h.sequences r, max?_oneTo]

/-- No event is numbered past the events of its run. -/
theorem sequence_le (h : LedgerInv d) {p : LedgerEvent} (hp : p ∈ d.eventsOf e.runId) :
    p.sequence ≤ (d.eventsOf e.runId).length := by
  have := List.mem_map_of_mem (f := LedgerEvent.sequence) hp
  rw [h.sequences, oneTo] at this
  obtain ⟨k, hk, hs⟩ := List.mem_map.mp this
  rw [List.mem_range] at hk
  omega

/-- A run that passes the check has the event's invoice and graph version. -/
theorem checkIdentity_ok {row : RunRow} (h : w.checkIdentity command row = .ok ()) :
    row.invoiceId = command.invoiceId ∧
      row.graphVersion = (w.settings.resolve command.versions).graphVersion.val := by
  unfold LedgerWriter.checkIdentity RunIdentity.validate at h
  cases hv : Version.ofString? row.graphVersion with
  | none => simp [hv] at h
  | some version =>
    have hver : version.val = row.graphVersion := by
      unfold Version.ofString? at hv
      split at hv <;> cases hv
      rfl
    simp only [hv] at h
    split at h
    · cases h
    · rename_i identity hid
      split at hid <;> cases hid
      split at h
      · cases h
      · rename_i hne
        rw [not_or, not_not, not_not] at hne
        exact ⟨hne.1, hver.symm.trans (congrArg Subtype.val hne.2)⟩

/-- The ledger's invariant is about the ledger and the identity of its runs. -/
theorem congr {d' : Db} (h : LedgerInv d) (hledger : d'.ledger = d.ledger)
    (hruns : ∀ r row, d.run? r = some row → ∃ row', d'.run? r = some row' ∧
      row'.invoiceId = row.invoiceId ∧ row'.graphVersion = row.graphVersion) : LedgerInv d' := by
  have hevents (r : Uuid) : d'.eventsOf r = d.eventsOf r := by
    rw [Db.eventsOf, hledger, Db.eventsOf]
  refine ⟨hledger ▸ h.ids, fun r => by rw [hevents]; exact h.sequences r, fun e he => ?_, ?_⟩
  · obtain ⟨row, hrow, hinvoice, hgraph⟩ := h.identity e (hledger ▸ he)
    obtain ⟨row', hrow', hinvoice', hgraph'⟩ := hruns _ row hrow
    exact ⟨row', hrow', hinvoice'.trans hinvoice, hgraph'.trans hgraph⟩
  · rw [hledger]
    exact h.supersedes

/-- Each append keeps it. -/
theorem append (h : LedgerInv d) (ha : w.Appended command d e) :
    LedgerInv (d.apply (.insertEvent e)) := by
  obtain ⟨row, hrow, hcheck⟩ := ha.run
  obtain ⟨hinv, hver⟩ := checkIdentity_ok hcheck
  have hrun : e.runId = command.runId := by rw [ha.event]; rfl
  have hinvoice : e.invoiceId = command.invoiceId := by rw [ha.event]; rfl
  have hseq : e.sequence = (d.eventsOf e.runId).length + 1 := by
    rw [hrun, ← h.nextSequence, ha.event]; rfl
  refine ⟨?_, fun r => ?_, fun x hx => ?_, fun x hx s hs => ?_⟩
  · have hfresh := lookup_eq_none.mp ha.fresh
    simp only [Db.apply, List.map_append, List.map_cons, List.map_nil]
    refine List.nodup_append.mpr ⟨h.ids, by simp, fun a ha' b hb => ?_⟩
    obtain ⟨x, hx, rfl⟩ := List.mem_map.mp ha'
    rw [List.mem_singleton.mp hb]
    exact hfresh x hx
  · by_cases hr : e.runId = r
    · subst hr
      have hold := h.sequences e.runId
      simp only [Db.eventsOf] at hseq hold
      simp [Db.apply, Db.eventsOf, List.filter_append, oneTo_succ, hold, hseq]
    · simpa [Db.apply, Db.eventsOf, List.filter_append, hr] using h.sequences r
  · rcases List.mem_append.mp hx with hx | hx
    · exact h.identity x hx
    · obtain rfl := List.mem_singleton.mp hx
      refine ⟨row, by rw [hrun]; exact hrow, hinv.trans hinvoice.symm, hver.trans ?_⟩
      rw [ha.event]
      rfl
  · rcases List.mem_append.mp hx with hx | hx
    · obtain ⟨p, hp, h'⟩ := h.supersedes x hx s hs
      exact ⟨p, List.mem_append_left _ hp, h'⟩
    · obtain rfl := List.mem_singleton.mp hx
      have hs' : command.supersedesId = some s := by rw [← hs, ha.event]; rfl
      obtain ⟨p, hp, hid, hpi⟩ := ha.supersedes s hs'
      rw [← hrun] at hp
      have hle := h.sequence_le hp
      have hpr : p ∈ d.ledger ∧ p.runId = x.runId := by simpa [Db.eventsOf] using hp
      refine ⟨p, List.mem_append_left _ hpr.1, hid, hpr.2, hpi.trans hinvoice.symm, ?_⟩
      omega

end LedgerInv

/-! ## Any number of callers -/

/-- One use of a transaction : appends, each followed by what the caller makes of its
answer, until the caller leaves the transaction by returning or by raising. -/
inductive Caller where
  | leave (out : Except Exn Unit)
  | append (w : LedgerWriter) (command : AppendEvent) (traceId : String)
      (next : Except Exn LedgerEvent → Caller)

section

variable {ι A : Type} [DecidableEq ι]

/-- A caller, statement by statement ; it may go on after an append that failed. -/
def Caller.run : Caller → Client ι A Unit
  | .leave out => Prog.ofExcept out
  | .append w command traceId next => do
    let out ← (w.append command traceId).attempt
    (next out).run

/-- Callers of the ledger, each in a transaction of its own. -/
def callers : System ι (Server ι Db Write Lock) A Exn Unit Caller where
  body c := transaction schema c.run
  reset i g := g.close i

variable {lockKey : String → ℤ} {inv : Db → Prop} {i : ι} {w : LedgerWriter}
  {command : AppendEvent} {traceId : String} {ws wrote : List Write} {sl ls : List Lock}
  {d d' d₀ : Db} {g : Server ι Db Write Lock}

/-- The writes of a transaction that only appends, as they build on one another. -/
def Staging (d : Db) : List Write → Prop
  | [] => True
  | x :: ws => (∃ w command e, x = .insertEvent e ∧
      LedgerWriter.Appended w command d e) ∧ Staging (d.apply x) ws

/-- One more append stays a chain of appends. -/
theorem Staging.append {e : LedgerEvent} : ∀ {d : Db} {ws : List Write}, Staging d ws →
    w.Appended command (schema.applyAll d ws) e → Staging d (ws ++ [Write.insertEvent e])
  | _, [], _, he => ⟨⟨w, command, e, rfl, he⟩, trivial⟩
  | _, _ :: _, ⟨h, hs⟩, he => ⟨h, hs.append he⟩

/-- Committed, they keep the ledger's invariant. -/
theorem Staging.ledgerInv : ∀ {d : Db} {ws : List Write}, LedgerInv d → Staging d ws →
    LedgerInv (schema.applyAll d ws)
  | _, [], h, _ => h
  | _, _ :: _, h, ⟨⟨_, _, _, hx, he⟩, hs⟩ => by
    subst hx
    rw [Schema.applyAll_cons]
    exact Staging.ledgerInv (h.append he) hs

/-- They build on nothing but what their locks guard. -/
theorem Staging.congr : ∀ {d d' : Db} {ws : List Write},
    (∀ e, .insertEvent e ∈ ws → d'.run? e.runId = d.run? e.runId ∧
      d'.eventsOf e.runId = d.eventsOf e.runId ∧ d'.event? e.id = d.event? e.id) →
    Staging d ws → Staging d' ws
  | _, _, [], _, _ => trivial
  | d, d', _ :: _, heq, ⟨⟨w, command, e, hx, he⟩, hs⟩ => by
    subst hx
    obtain ⟨hr, hev, hid⟩ := heq e List.mem_cons_self
    refine ⟨⟨w, command, e, rfl, he.congr hr hev hid⟩, hs.congr fun e' he' => ?_⟩
    obtain ⟨hr', hev', hid'⟩ := heq e' (List.mem_cons_of_mem _ he')
    exact ⟨(@guards_run? (fun _ => 0) _).congr _ _ _ hr',
      (@guards_eventsOf (fun _ => 0) _).congr _ _ _ hev',
      (@guards_event? (fun _ => 0) _).congr _ _ _ hid'⟩

/-- Staged appends stay what they are while their locks are held. -/
theorem Staging.becomes (hs : Staging d ws) (hd : Becomes lockKey ls d d')
    (hls : ∀ w ∈ ws, ∀ l ∈ (discipline lockKey).locks w, l ∈ ls) : Staging d' ws := by
  refine hs.congr fun e he => ?_
  have hmem := hls _ he
  exact ⟨hd.guards (guards_run? _) (hmem _ (by simp [discipline])),
    hd.guards (guards_eventsOf _) (hmem _ (by simp [discipline])),
    hd.guards (guards_event? _) (hmem _ (by simp [discipline]))⟩

/-- The rule of `append`, in any discipline that is no less strict. -/
theorem wp_append_of {D : Discipline Write Lock} (hD : Stricter lockKey D)
    {Q : Except Exn LedgerEvent → Server ι Db Write Lock → Prop}
    (hi : (protocol schema D inv).inv g) (h : At schema D i ⟨.inTrans, ws, wrote⟩ sl ls d₀ g)
    (hsql : ∀ e g', (protocol schema D inv).inv g' →
      At schema D i ⟨.inError, [], wrote⟩ sl [] d₀ g' → Q (.error e) g')
    (herr : ∀ e g', (protocol schema D inv).inv g' →
      At schema D i ⟨.inTrans, ws, wrote⟩ sl ls d₀ g' → Q (.error e) g')
    (hok : ∀ e d, inv d → Evolved schema D (sl ++ ls) d₀ d →
      w.Appended command (schema.applyAll d ws) e → ∀ g', (protocol schema D inv).inv g' →
      At schema D i ⟨.inTrans, ws ++ [Write.insertEvent e], wrote⟩ sl (ls ++ LedgerWriter.locks e) d
        g' → Q (.ok e) g') :
    (protocol schema D inv).wp i (w.append command traceId : Client ι A LedgerEvent) Q g := by
  unfold LedgerWriter.append
  split
  · refine wp_status hi h fun g hi h => ?_
    rw [if_pos rfl]
    refine Protocol.wp_tryCatch hi (wp_stage hD hi h ?_ ?_ hok)
    · exact fun e g' hi' h' => wp_raise hi' h' (hsql _)
    · exact fun e g' hi' h' => wp_raise hi' h' (herr _)
  · exact wp_raise hi h (herr _)

/-- The rule of `append`. -/
theorem wp_append {Q : Except Exn LedgerEvent → Server ι Db Write Lock → Prop}
    (hi : (operations lockKey inv).inv g) (h : Knows lockKey i ⟨.inTrans, ws, wrote⟩ sl ls d₀ g)
    (hsql : ∀ e g', (operations lockKey inv).inv g' →
      Knows lockKey i ⟨.inError, [], wrote⟩ sl [] d₀ g' → Q (.error e) g')
    (herr : ∀ e g', (operations lockKey inv).inv g' →
      Knows lockKey i ⟨.inTrans, ws, wrote⟩ sl ls d₀ g' → Q (.error e) g')
    (hok : ∀ e d, inv d → Becomes lockKey (sl ++ ls) d₀ d →
      w.Appended command (schema.applyAll d ws) e → ∀ g', (operations lockKey inv).inv g' →
      Knows lockKey i ⟨.inTrans, ws ++ [Write.insertEvent e], wrote⟩ sl
        (ls ++ LedgerWriter.locks e) d g' → Q (.ok e) g') :
    (operations lockKey inv).wp i (w.append command traceId : Client ι A LedgerEvent) Q g :=
  wp_append_of (stricter_refl lockKey) hi h hsql herr hok

/-- An append in an aborted transaction is refused. -/
theorem wp_append_inError {Q : Except Exn LedgerEvent → Server ι Db Write Lock → Prop}
    (hi : (operations lockKey inv).inv g) (h : Knows lockKey i ⟨.inError, [], wrote⟩ sl ls d₀ g)
    (herr : ∀ e g', (operations lockKey inv).inv g' →
      Knows lockKey i ⟨.inError, [], wrote⟩ sl ls d₀ g' → Q (.error e) g') :
    (operations lockKey inv).wp i (w.append command traceId : Client ι A LedgerEvent) Q g := by
  unfold LedgerWriter.append
  split
  · refine wp_status hi h fun g hi h => ?_
    rw [if_neg (by simp)]
    exact wp_raise hi h (herr _)
  · exact wp_raise hi h (herr _)

/-! ## Callers keep the ledger's invariant -/

/-- What is staged are events. -/
theorem Staging.events : ∀ {d : Db} {ws : List Write}, Staging d ws →
    ∃ evs : List LedgerEvent, ws = evs.map Write.insertEvent
  | _, [], _ => ⟨[], rfl⟩
  | _, _ :: _, ⟨⟨_, _, e, hx, _⟩, hs⟩ => by
    obtain ⟨evs, rfl⟩ := hs.events
    exact ⟨e :: evs, by rw [hx]; rfl⟩

/-- How a caller's transaction ends : what it committed it had appended, and if it raised it
committed nothing. -/
def CallerWrote (before : List Write) (out : Except Exn Unit) (after : List Write) : Prop :=
  ∃ evs : List LedgerEvent, after = before ++ evs.map Write.insertEvent ∧
    (out.toOption = none → evs = [])

/-- What a caller's transaction has staged, whatever it has seen. -/
def CallerStaged (lockKey : String → ℤ) (st : Status) (ws : List Write) (ls : List Lock)
    (d : Db) : Prop :=
  st = .inTrans ∧ Staging d ws ∧ (∀ w ∈ ws, ∀ l ∈ (discipline lockKey).locks w, l ∈ ls) ∨
    st = .inError ∧ ws = []

/-- A caller keeps its appends staged through all it does, for any answers and any decisions of its
own. -/
theorem wp_caller (c : Caller) : ∀ {st : Status} {ws : List Write} {ls : List Lock} {d₀ : Db}
      {g : Server ι Db Write Lock}, (operations lockKey LedgerInv).inv g →
      Knows lockKey i ⟨st, ws, wrote⟩ [] ls d₀ g → CallerStaged lockKey st ws ls d₀ →
      (operations lockKey LedgerInv).wp i (c.run : Client ι A Unit)
        (Done schema (discipline lockKey) LedgerInv i wrote [] fun out g =>
          (operations lockKey LedgerInv).idle i g ∧
            CallerWrote wrote out (g.session i).wrote) g := by
  induction c with
  | leave out =>
    intro st ws ls d₀ g hi h hst
    cases out with
    | error e =>
      refine wp_raise hi h fun g hi h => ⟨st, ls, ws, d₀, h, fun g' h' => ⟨h'.idle, [], ?_⟩⟩
      simp [h'.session]
    | ok u =>
      refine wp_ret hi h fun g hi h => ⟨st, ls, ws, d₀, h, ?_, fun d hd hev => ?_⟩
      · exact hst.imp (fun h => h.1) id
      · refine ⟨?_, fun g' h' => ⟨h'.idle, ?_⟩, fun e g' h' => ⟨h'.idle, [], ?_⟩⟩
        · rcases hst with ⟨-, hs, hls⟩ | ⟨-, rfl⟩
          · exact Staging.ledgerInv hd (hs.becomes hev hls)
          · exact hd
        · rcases hst with ⟨-, hs, -⟩ | ⟨-, rfl⟩
          · obtain ⟨evs, rfl⟩ := hs.events
            exact ⟨evs, by rw [h'.session], by simp [Except.toOption]⟩
          · exact ⟨[], by simp [h'.session], by simp⟩
        · simp [h'.session]
  | append w command traceId next ih =>
    intro st ws ls d₀ g hi h hst
    refine Protocol.wp_bind hi (Protocol.wp_attempt ?_)
    rcases hst with ⟨rfl, hs, hls⟩ | ⟨rfl, rfl⟩
    · refine wp_append hi h ?_ ?_ ?_
      · exact fun e g' hi' h' => ih _ hi' h' (Or.inr ⟨rfl, rfl⟩)
      · exact fun e g' hi' h' => ih _ hi' h' (Or.inl ⟨rfl, hs, hls⟩)
      · intro e d hd hev ha g' hi' h'
        have hs' := (hs.becomes hev (by simpa using hls)).append ha
        refine ih _ hi' h' (Or.inl ⟨rfl, hs', fun x hx l hl => ?_⟩)
        rcases List.mem_append.mp hx with hx | hx
        · exact List.mem_append_left _ (hls x hx l hl)
        · obtain rfl := List.mem_singleton.mp hx
          refine List.mem_append_right _ ?_
          simp only [discipline, List.mem_cons, List.not_mem_nil, or_false] at hl
          rcases hl with rfl | rfl <;> simp [LedgerWriter.locks]
    · exact wp_append_inError hi h fun e g' hi' h' => ih _ hi' h' (Or.inr ⟨rfl, rfl⟩)

/-- Every caller, from any state of the invariant, ends with what it wrote. -/
theorem callers_verified : (callers : System ι _ A Exn Unit Caller).Verified
    (operations lockKey LedgerInv) fun _ i entry out g =>
      CallerWrote (entry.session i).wrote out (g.session i).wrote where
  body c i g hi hidle := by
    refine wp_transaction (fun out => stable_idle (CallerWrote (g.session i).wrote out))
      hi (At.of_idle hidle) ?_ ?_
    · exact fun e g' h' => ⟨h'.idle, [], by simp [h'.session]⟩
    · exact fun g' hi' h' => wp_caller c hi' h' (Or.inl ⟨rfl, trivial, by simp⟩)
  reset i g hi := by
    obtain ⟨hg, hi', hat⟩ := close_step hi
    exact ⟨hi', hg, hat.idle⟩

/-- `e` supersedes `p`. -/
def Db.Supersedes (d : Db) (e p : LedgerEvent) : Prop :=
  e ∈ d.ledger ∧ p ∈ d.ledger ∧ e.supersedesId = some p.id

/-- What an event supersedes, at any distance, has a smaller sequence. -/
theorem LedgerInv.sequence_lt (h : LedgerInv d) {e p : LedgerEvent}
    (hs : Relation.TransGen d.Supersedes e p) : p.sequence < e.sequence := by
  have hone : ∀ {e p}, d.Supersedes e p → p.sequence < e.sequence := by
    rintro e p ⟨he, hp, hid⟩
    obtain ⟨q, hq, hqid, -, -, hlt⟩ := h.supersedes e he _ hid
    rwa [List.inj_on_of_nodup_map h.ids hq hp hqid] at hlt
  induction hs with
  | single hs => exact hone hs
  | tail _ hs ih =>
    have := hone hs
    omega

/-- From a ledger that keeps its invariant, any interleaving of callers keeps it : sequences
without gap or repeat in the order of the commits, events of their run's invoice and graph
version, supersession of earlier events of the same run and invoice only, and nothing
committed by a caller that left by raising. -/
theorem ledger_sequence_integrity (h₀ : LedgerInv d)
    {cfg : Config ι (Server ι Db Write Lock) A Exn Unit Caller}
    (h : callers.Reachable (Server.start d) cfg) :
    (∀ r, (cfg.store.db.eventsOf r).map LedgerEvent.sequence =
      oneTo (cfg.store.db.eventsOf r).length) ∧
    (∀ e ∈ cfg.store.db.ledger, ∃ row, cfg.store.db.run? e.runId = some row ∧
      row.invoiceId = e.invoiceId ∧ row.graphVersion = e.versions.graphVersion.val) ∧
    (∀ e ∈ cfg.store.db.ledger, ∀ s, e.supersedesId = some s →
      ∃ p ∈ cfg.store.db.ledger, p.id = s ∧ p.runId = e.runId ∧ p.invoiceId = e.invoiceId ∧
        p.sequence < e.sequence) ∧
    (∀ e, ¬Relation.TransGen cfg.store.db.Supersedes e e) ∧
    (∃ log : List (ι × Write), IsLog schema d cfg.store log) ∧
    ∀ i t out, cfg.thread i = some t → t.rest.outcome? = some out →
      CallerWrote (t.entry.session i).wrote out (cfg.store.session i).wrote := by
  have hv := @callers_verified ι A _ (fun _ => 0)
  have hinv := (System.inv_of_reachable hv (inv_start h₀) (fun i => idle_start d) h).2
  refine ⟨hinv.sequences, hinv.identity, hinv.supersedes, fun e he => ?_,
    log_of_reachable hv h₀ h, fun i t out ht hout => ?_⟩
  · have := hinv.sequence_lt he
    omega
  · exact System.post_of_reachable hv (inv_start h₀) (fun i => idle_start d) h ht hout

end

/-! ### Two callers of one run -/

/-- The trace of the sample. -/
def sampleTrace : String := "0123456789abcdef0123456789abcdef"

/-- A run of the sample. -/
def sampleRun : RunRow where
  id := 7
  invoiceId := 3
  status := .running
  graphVersion := "invoice-v1"
  traceId := sampleTrace
  startedAt := none
  completedAt := none
  error := none
  createdAt := 0

/-- The versions of the sample. -/
def samplePins : VersionPins :=
  ⟨⟨"invoice-v1", by decide⟩, ⟨"model", by decide⟩, ⟨"prompt", by decide⟩, ⟨"policy", by decide⟩⟩

/-- An event of the sample. -/
def sampleCommand : AppendEvent where
  runId := 7
  invoiceId := 3
  eventType := ⟨"validation.completed", by decide⟩
  actorType := .system
  actorId := ⟨"validator", by decide⟩
  payload := .null

/-- Append one event with the identifier `id` and commit. -/
def sampleCaller (id : Uuid) : Caller :=
  .append ⟨samplePins, id, 0⟩ sampleCommand sampleTrace fun _ => .leave (.ok ())

/-- Both open their transactions, one appends and commits, then the other does. -/
def sampleSchedule : List (Event ℕ Empty Caller) :=
  [Event.start 0 (sampleCaller 10), .start 1 (sampleCaller 11)] ++
    List.replicate 3 (Event.stmt 0 .proceed) ++ List.replicate 2 (Event.stmt 1 .proceed) ++
    List.replicate 3 (Event.stmt 0 .proceed) ++ List.replicate 4 (Event.stmt 1 .proceed)

set_option maxRecDepth 20000 in
/-- Two callers, and the numbers one and two. -/
theorem sampleSchedule_sequences :
    ((callers.replay (System.initial (Server.start { Db.empty with runs := [sampleRun] }))
      sampleSchedule).map fun cfg => cfg.store.db.ledger.map LedgerEvent.sequence) =
      some [1, 2] := by
  decide +kernel

/-- The sample run is within the invariant. -/
theorem ledgerInv_sampleRun : LedgerInv { Db.empty with runs := [sampleRun] } :=
  ⟨by simp [Db.empty], by simp [Db.empty, Db.eventsOf, oneTo], by simp [Db.empty],
    by simp [Db.empty]⟩

/-- The theorem applies to the sample schedule. -/
theorem ledger_sequence_integrity_sampleSchedule :
    ∃ cfg : Config ℕ (Server ℕ Db Write Lock) Empty Exn Unit Caller,
      cfg.store.db.ledger.map LedgerEvent.sequence = [1, 2] ∧
        ∀ r, (cfg.store.db.eventsOf r).map LedgerEvent.sequence =
          oneTo (cfg.store.db.eventsOf r).length := by
  obtain ⟨cfg, hcfg, hseq⟩ := Option.map_eq_some_iff.mp sampleSchedule_sequences
  exact ⟨cfg, hseq, (ledger_sequence_integrity ledgerInv_sampleRun ⟨sampleSchedule, hcfg⟩).1⟩

end InvoiceOps
