import InvoiceOps.ReadCommitted
import InvoiceOps.Values

/-!
# The operational tables

The rows of the operational schema, the writes the program makes and the locks Postgres
takes for them. A row keeps the columns the modelled code reads. `schema` is the database
as a `ReadCommitted.Schema`, `discipline` the locks that stand for each write, and the
lookups below are the observations those locks guard.
-/

open ReadCommitted

namespace InvoiceOps

instance : OfSql Exn where
  ofSql
    | .unavailable => .new .operationalError ""
    | .inFailedTransaction => .new .internalError ""
    | .violation name => .new .integrityError name

/-! ## Enumerations -/

/-- `ck_invoices_status`. -/
inductive InvoiceStatus where
  | received | queued | processing | needsReview | approved | rejected | returned | archived
  | failed
  deriving DecidableEq, Repr

/-- `ck_runs_status`. -/
inductive RunStatus where
  | queued | running | paused | completed | failed | cancelled
  deriving DecidableEq, Repr

/-- `ck_exceptions_status`. -/
inductive ExceptionStatus where
  | «open» | inReview | resolved | escalated
  deriving DecidableEq, Repr

/-- `ck_ledger_actor_type`. -/
inductive ActorType where
  | system | agent | human | policy
  deriving DecidableEq, Repr

/-- `ck_decisions_action`. -/
inductive DecisionAction where
  | approve | «return» | escalate | reject
  deriving DecidableEq, Repr

/-- A text that passed `isVersion`. -/
abbrev Version := { s : String // isVersion s }

/-- A text as a version, if it is one. -/
def Version.ofString? (s : String) : Option Version :=
  if h : isVersion s then some ⟨s, h⟩ else none

/-! ## Keyed rows -/

section

variable {ρ κ : Type} [DecidableEq κ] (key : ρ → κ)

/-- The row with the key `k`. -/
def lookup (rows : List ρ) (k : κ) : Option ρ :=
  rows.find? fun r => key r = k

/-- `row` in the place of the row with its key. -/
def replace (rows : List ρ) (row : ρ) : List ρ :=
  rows.map fun r => if key r = key row then row else r

variable {key}

/-- A row is found under its own key. -/
theorem key_of_lookup {rows : List ρ} {k : κ} {r : ρ} (h : lookup key rows k = some r) :
    key r = k := by
  simpa using List.find?_some h

/-- A row that is found is in the table. -/
theorem mem_of_lookup {rows : List ρ} {k : κ} {r : ρ} (h : lookup key rows k = some r) :
    r ∈ rows :=
  List.mem_of_find?_eq_some h

/-- Nothing is found just when no row has the key. -/
theorem lookup_eq_none {rows : List ρ} {k : κ} :
    lookup key rows k = none ↔ ∀ r ∈ rows, key r ≠ k := by
  simp [lookup]

/-- An appended row is found if there was none. -/
theorem lookup_append (rows : List ρ) (row : ρ) (k : κ) :
    lookup key (rows ++ [row]) k =
      (lookup key rows k).or (if key row = k then some row else none) := by
  by_cases h : key row = k <;> simp [lookup, List.find?_append, h]

/-- An appended row is not found under another key. -/
theorem lookup_append_of_ne {rows : List ρ} {row : ρ} {k : κ} (h : key row ≠ k) :
    lookup key (rows ++ [row]) k = lookup key rows k := by
  simp [lookup_append, h]

/-- A replacement keeps every key. -/
theorem key_ite (row r : ρ) : key (if key r = key row then row else r) = key r := by
  split
  · exact Eq.symm ‹_›
  · rfl

/-- A replaced table finds the row under its key. -/
theorem lookup_replace (rows : List ρ) (row : ρ) (k : κ) :
    lookup key (replace key rows row) k =
      (lookup key rows k).map fun r => if key r = key row then row else r := by
  have hkey : (fun r => decide (key r = k)) ∘ (fun r => if key r = key row then row else r) =
      fun r => decide (key r = k) :=
    funext fun r => congrArg (fun x => decide (x = k)) (key_ite row r)
  unfold lookup replace
  rw [List.find?_map, hkey]

/-- And nothing new under another key. -/
theorem lookup_replace_of_ne {rows : List ρ} {row : ρ} {k : κ} (h : key row ≠ k) :
    lookup key (replace key rows row) k = lookup key rows k := by
  rw [lookup_replace]
  cases hr : lookup key rows k with
  | none => rfl
  | some r =>
    have := key_of_lookup hr
    simp [this, h.symm]

/-- With distinct keys, the row found by a member's key is that member. -/
theorem lookup_of_mem {rows : List ρ} (hd : (rows.map key).Nodup) {r : ρ} (hr : r ∈ rows) :
    lookup key rows (key r) = some r := by
  induction rows with
  | nil => cases hr
  | cons x rows ih =>
    simp only [List.map_cons, List.nodup_cons, List.mem_map, not_exists, not_and] at hd
    rcases List.mem_cons.mp hr with rfl | h
    · simp [lookup]
    · have hne : key x ≠ key r := fun he => hd.1 r h he.symm
      have := ih hd.2 h
      simp only [lookup] at this
      simp [lookup, hne, this]

omit [DecidableEq κ] in
/-- A fresh key keeps the keys distinct. -/
theorem nodup_snoc {rows : List ρ} {row : ρ} (h : (rows.map key).Nodup)
    (hrow : ∀ r ∈ rows, key r ≠ key row) : ((rows ++ [row]).map key).Nodup := by
  rw [List.map_append, List.nodup_append]
  refine ⟨h, by simp, fun k hk l hl => ?_⟩
  obtain ⟨r, hr, rfl⟩ := List.mem_map.mp hk
  obtain rfl : l = key row := by simpa using hl
  exact hrow r hr

/-- The rows after a replacement. -/
theorem mem_replace {rows : List ρ} {row r : ρ} :
    r ∈ replace key rows row ↔ (r ∈ rows ∧ key r ≠ key row) ∨
      (r = row ∧ ∃ r' ∈ rows, key r' = key row) := by
  unfold replace
  rw [List.mem_map]
  constructor
  · rintro ⟨r', hr', rfl⟩
    by_cases hk : key r' = key row
    · exact .inr ⟨if_pos hk, r', hr', hk⟩
    · rw [if_neg hk]
      exact .inl ⟨hr', hk⟩
  · rintro (⟨hr, hk⟩ | ⟨rfl, r', hr', hk⟩)
    · exact ⟨r, hr, if_neg hk⟩
    · exact ⟨r', hr', if_pos hk⟩

@[simp] theorem map_key_replace (rows : List ρ) (row : ρ) :
    (replace key rows row).map key = rows.map key := by
  simp [replace, Function.comp_def, key_ite]

end

/-! ## Rows -/

/-- A row of the invoices. -/
structure InvoiceRow where
  id : Uuid
  contentHash : String
  rawRef : String
  contentType : DocumentType
  source : IngestionSource
  status : InvoiceStatus
  createdAt : Instant
  deriving DecidableEq, Repr

/-- A row of the runs. -/
structure RunRow where
  id : Uuid
  invoiceId : Uuid
  status : RunStatus
  graphVersion : String
  traceId : String
  startedAt : Option Instant
  completedAt : Option Instant
  error : Option Json
  createdAt : Instant
  deriving DecidableEq, Repr

/-- The versions an event is pinned to. -/
structure VersionPins where
  graphVersion : Version
  modelVersion : Version
  promptVersion : Version
  policyVersion : Version
  deriving DecidableEq, Repr

/-- A row of the ledger. -/
structure LedgerEvent where
  id : Uuid
  runId : Uuid
  invoiceId : Uuid
  sequence : ℤ
  eventType : Version
  actorType : ActorType
  actorId : Version
  payload : Json
  node : Option Version
  supersedesId : Option Uuid
  versions : VersionPins
  createdAt : Instant
  deriving DecidableEq, Repr

/-- A row of the exceptions. -/
structure ExceptionRow where
  id : Uuid
  runId : Uuid
  invoiceId : Uuid
  exceptionType : String
  status : ExceptionStatus
  priority : ℕ
  slaDueAt : Instant
  evidence : Json
  recommendation : Json
  createdAt : Instant
  deriving DecidableEq, Repr

/-- A row of the decisions. -/
structure DecisionRow where
  id : Uuid
  runId : Uuid
  invoiceId : Uuid
  exceptionId : Uuid
  idempotencyKey : String
  action : DecisionAction
  rationale : String
  reasonCode : String
  actorId : String
  versions : VersionPins
  supersedesId : Option Uuid
  createdAt : Instant
  deriving DecidableEq, Repr

/-- What an ingestion answers with. -/
structure IngestionResult where
  invoiceId : Uuid
  runId : Uuid
  duplicate : Bool
  deriving DecidableEq, Repr

/-- A row of the ingestion requests. -/
structure RequestRow where
  idempotencyKey : String
  requestHash : String
  invoiceId : Uuid
  runId : Uuid
  responseStatus : ℕ
  responseBody : IngestionResult
  createdAt : Instant
  deriving DecidableEq, Repr

/-- A row of the webhook nonces. -/
structure NonceRow where
  nonce : String
  signedAt : Instant
  createdAt : Instant
  deriving DecidableEq, Repr

/-! ## The database -/

/-- The tables. -/
structure Db where
  invoices : List InvoiceRow
  runs : List RunRow
  ledger : List LedgerEvent
  exceptions : List ExceptionRow
  decisions : List DecisionRow
  requests : List RequestRow
  nonces : List NonceRow
  deriving DecidableEq, Repr

/-- An insert into a table, or a row replaced by one with its key. -/
inductive Write where
  | insertInvoice (row : InvoiceRow)
  | insertRun (row : RunRow)
  | insertEvent (row : LedgerEvent)
  | insertException (row : ExceptionRow)
  | insertDecision (row : DecisionRow)
  | insertRequest (row : RequestRow)
  | insertNonce (row : NonceRow)
  | setInvoice (row : InvoiceRow)
  | setRun (row : RunRow)
  | setException (row : ExceptionRow)
  deriving DecidableEq, Repr

/-- Row locks, entries of the unique indexes, and advisory locks. -/
inductive Lock where
  | invoiceRow (id : Uuid)
  | runRow (id : Uuid)
  | exceptionRow (id : Uuid)
  | invoicePk (id : Uuid)
  | contentHash (hash : String)
  | runPk (id : Uuid)
  | eventPk (id : Uuid)
  | eventSequence (runId : Uuid) (sequence : ℤ)
  | exceptionPk (id : Uuid)
  | decisionPk (id : Uuid)
  | decisionKey (key : String)
  | requestKey (key : String)
  | nonce (nonce : String)
  | advisory (key : ℤ)
  | graphRun (key : ℤ)
  deriving DecidableEq, Repr

namespace Db

/-- Tables without rows. -/
def empty : Db :=
  ⟨[], [], [], [], [], [], []⟩

/-- The invoice with the identifier. -/
def invoice? (d : Db) (id : Uuid) : Option InvoiceRow :=
  lookup InvoiceRow.id d.invoices id

/-- The run with the identifier. -/
def run? (d : Db) (id : Uuid) : Option RunRow :=
  lookup RunRow.id d.runs id

/-- The exception with the identifier. -/
def exception? (d : Db) (id : Uuid) : Option ExceptionRow :=
  lookup ExceptionRow.id d.exceptions id

/-- The event with the identifier. -/
def event? (d : Db) (id : Uuid) : Option LedgerEvent :=
  lookup LedgerEvent.id d.ledger id

/-- The request with the key. -/
def request? (d : Db) (key : String) : Option RequestRow :=
  lookup RequestRow.idempotencyKey d.requests key

/-- The run's events, in the order they were committed. -/
def eventsOf (d : Db) (runId : Uuid) : List LedgerEvent :=
  d.ledger.filter fun e => e.runId = runId

/-- The tables after a write. -/
def apply (d : Db) : Write → Db
  | .insertInvoice row => { d with invoices := d.invoices ++ [row] }
  | .insertRun row => { d with runs := d.runs ++ [row] }
  | .insertEvent row => { d with ledger := d.ledger ++ [row] }
  | .insertException row => { d with exceptions := d.exceptions ++ [row] }
  | .insertDecision row => { d with decisions := d.decisions ++ [row] }
  | .insertRequest row => { d with requests := d.requests ++ [row] }
  | .insertNonce row => { d with nonces := d.nonces ++ [row] }
  | .setInvoice row => { d with invoices := replace InvoiceRow.id d.invoices row }
  | .setRun row => { d with runs := replace RunRow.id d.runs row }
  | .setException row => { d with exceptions := replace ExceptionRow.id d.exceptions row }

end Db

/-- The advisory lock of a running graph is the session's, every other lock the
transaction's. -/
def schema : Schema Db Write Lock where
  apply := Db.apply
  ofSession l := match l with
    | .graphRun _ => true
    | _ => false

/-! ## What the locks guard -/

/-- The locks a session holds when it commits a write. `lockKey` is the advisory lock of a
name : the first eight bytes of its SHA-256. -/
def discipline (lockKey : String → ℤ) : Discipline Write Lock where
  locks
    | .insertInvoice r => [.invoiceRow r.id, .invoicePk r.id, .contentHash r.contentHash]
    | .insertRun r => [.runRow r.id, .runPk r.id]
    | .insertEvent e => [.runRow e.runId, .eventPk e.id]
    | .insertException r => [.exceptionRow r.id, .exceptionPk r.id]
    | .insertDecision r => [.exceptionRow r.exceptionId, .decisionPk r.id,
        .advisory (lockKey ("decision:" ++ r.idempotencyKey))]
    | .insertRequest r => [.requestKey r.idempotencyKey, .advisory (lockKey r.idempotencyKey)]
    | .insertNonce r => [.nonce r.nonce]
    | .setInvoice r => [.invoiceRow r.id]
    | .setRun r => [.runRow r.id]
    | .setException r => [.exceptionRow r.id]

/-- A discipline that asks for the locks of `discipline`, and for no others of an event. -/
structure Stricter (lockKey : String → ℤ) (D : Discipline Write Lock) : Prop where
  locks : ∀ w, ∀ l ∈ (discipline lockKey).locks w, l ∈ D.locks w
  event : ∀ e, ∀ l ∈ D.locks (.insertEvent e), l ∈ (discipline lockKey).locks (.insertEvent e)

/-- The locks of the tables are their own. -/
theorem stricter_refl (lockKey : String → ℤ) : Stricter lockKey (discipline lockKey) :=
  ⟨fun _ _ h => h, fun _ _ h => h⟩

/-- A program of a client of the operational database. -/
abbrev Client (ι A α : Type) := Shared.Prog ι (Server ι Db Write Lock) A Exn α

/-- The sessions of the program's clients, over a database invariant. -/
abbrev operations {ι : Type} (lockKey : String → ℤ) (inv : Db → Prop) :
    Shared.Protocol ι (Server ι Db Write Lock) :=
  protocol schema (discipline lockKey) inv

/-- What a client's session knows. -/
abbrev Knows {ι : Type} (lockKey : String → ℤ) (i : ι) (s : Session Write) (sl ls : List Lock)
    (d : Db) (g : Server ι Db Write Lock) : Prop :=
  At schema (discipline lockKey) i s sl ls d g

/-- What the database may become while a session has the locks `ls`. -/
abbrev Becomes (lockKey : String → ℤ) (ls : List Lock) (d d' : Db) : Prop :=
  Evolved schema (discipline lockKey) ls d d'

/-- What is owed if a statement fails. -/
abbrev Fails {ι α : Type} (lockKey : String → ℤ) (inv : Db → Prop) (i : ι) (wrote : List Write)
    (sl : List Lock) (d : Db) (Q : Except Exn α → Server ι Db Write Lock → Prop) : Prop :=
  ReadCommitted.Fails schema (discipline lockKey) inv i wrote sl d Q

section

variable {lockKey : String → ℤ}

/-- The lock of a row guards what its key finds, if rows are only appended and replaced. -/
theorem guards_run? (id : Uuid) :
    Guards schema (discipline lockKey) (.runRow id) fun d => d.run? id where
  frame d w hw := by
    cases w with
    | insertRun r => exact lookup_append_of_ne (by rintro rfl; simp [discipline] at hw)
    | setRun r => exact lookup_replace_of_ne (by rintro rfl; simp [discipline] at hw)
    | _ => rfl
  congr d d' w h := by
    cases w with
    | insertRun r =>
      simp only [Db.run?] at h
      simp only [schema, Db.apply, Db.run?, lookup_append, h]
    | setRun r =>
      simp only [Db.run?] at h
      simp only [schema, Db.apply, Db.run?, lookup_replace, h]
    | _ => exact h

/-- Only a holder of an event's primary key inserts it. -/
theorem guards_event? (id : Uuid) :
    Guards schema (discipline lockKey) (.eventPk id) fun d => d.event? id where
  frame d w hw := by
    cases w with
    | insertEvent e => exact lookup_append_of_ne (by rintro rfl; simp [discipline] at hw)
    | _ => rfl
  congr d d' w h := by
    cases w with
    | insertEvent e =>
      simp only [Db.event?] at h
      simp only [schema, Db.apply, Db.event?, lookup_append, h]
    | _ => exact h

/-- Only a holder of the row of a run adds to its events. -/
theorem guards_eventsOf (runId : Uuid) :
    Guards schema (discipline lockKey) (.runRow runId) fun d => d.eventsOf runId where
  frame d w hw := by
    cases w with
    | insertEvent e =>
      have hne : e.runId ≠ runId := by rintro rfl; simp [discipline] at hw
      simp [schema, Db.apply, Db.eventsOf, List.filter_append, hne]
    | _ => rfl
  congr d d' w h := by
    cases w with
    | insertEvent e =>
      simp only [Db.eventsOf] at h
      simp only [schema, Db.apply, Db.eventsOf, List.filter_append, h]
    | _ => exact h

end

end InvoiceOps
