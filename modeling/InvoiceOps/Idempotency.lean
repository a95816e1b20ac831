import InvoiceOps.Ingestion

/-!
# Idempotent ingestion

The rule of `ingest`, among any number of ingestions (`wp_ingest`) : what it commits keeps
`IngestInv`, an answer is that of the stored outcome of its key, and a failure commits nothing and
is due to what `Refuses` says. `ingestions` is any number of calls at once, and
`ingestion_idempotent` what every order of their statements keeps.
-/

set_option linter.unusedSectionVars false

open Shared ReadCommitted

namespace InvoiceOps

/-! ## How an ingestion ends -/

/-- The write that claims the nonce of an ingestion. -/
def Ingest.claims (x : Ingest) : List Write :=
  match x.nonce with
  | none => []
  | some nonce => [.insertNonce ⟨nonce.nonce, nonce.signedAt, x.createdAt⟩]

/-- No one has claimed the nonce. -/
def Ingest.Unclaimed (x : Ingest) (d : Db) : Prop :=
  ∀ nonce ∈ x.nonce, d.nonce? nonce.nonce = none

namespace IngestionService

variable (s : IngestionService) (x : Ingest)

/-- What an ingestion commits besides its claim. -/
inductive Makes (outcome : IngestionOutcome) : List Write → Prop
  | replayed : Makes outcome []
  | accepted (e : LedgerEvent) (h : outcome = .accepted x.invoiceId x.runId) :
      Makes outcome [Write.insertInvoice (s.invoiceRow x), .insertRun (runRow x), .insertEvent e,
        .insertRequest (s.requestRow x outcome)]
  | rejected (e : LedgerEvent) (original : IngestionResult) (h : outcome = .rejected original) :
      Makes outcome [.insertEvent e, .insertRequest (s.requestRow x outcome)]

/-- What a failure of an ingestion is due to. -/
inductive Refuses (d : Db) : Exn → Prop
  | unavailable {e : Exn} (h : e.cls = .ingestionUnavailable) : Refuses d e
  | conflict {row : RequestRow} (mem : row ∈ d.requests) (key : row.idempotencyKey = x.key)
      (hash : row.requestHash ≠ (s.document x).requestHash.val) : Refuses d idempotencyConflict
  | reused {row : NonceRow} {nonce : WebhookNonce} (mem : row ∈ d.nonces)
      (claimed : x.nonce = some nonce) (same : row.nonce = nonce.nonce) :
      Refuses d webhookNonceReuse
  | malformed {e : Exn} (h : e.cls = .valueError)
      (because : decide (x.source = .email) ≠ x.nonce.isSome ∨ isAscii x.key = false) :
      Refuses d e

/-- The answer is that of the stored outcome of the key. -/
structure Answered {ι : Type} (i : ι) (entry : Server ι Db Write Lock) (outcome : IngestionOutcome)
    (g : Server ι Db Write Lock) : Prop where
  stored : ∃ row ∈ g.db.requests, row.idempotencyKey = x.key ∧
    row.requestHash = (s.document x).requestHash.val ∧ IngestionOutcome.ofRow row = .ok outcome
  wrote : ∃ ws, (g.session i).wrote = (entry.session i).wrote ++ (x.claims ++ ws) ∧
    s.Makes x outcome ws
  repeated : (∃ row ∈ entry.db.requests, row.idempotencyKey = x.key) →
    (g.session i).wrote = (entry.session i).wrote ++ x.claims
  unspent : ∀ nonce ∈ x.nonce, ∀ row ∈ entry.db.nonces, row.nonce ≠ nonce.nonce

/-- How an ingestion ends. -/
def Ingested {ι : Type} (i : ι) (entry : Server ι Db Write Lock) :
    Except Exn IngestionOutcome → Server ι Db Write Lock → Prop
  | .ok outcome, g => s.Answered x i entry outcome g
  | .error e, g => (g.session i).wrote = (entry.session i).wrote ∧ s.Refuses x g.db e

end IngestionService

/-! ## What lasts -/

/-- A request that is stored stays stored. -/
theorem lasting_request (p : RequestRow → Prop) : Lasting fun d => ∃ row ∈ d.requests, p row := by
  rintro d w ⟨row, hrow, hp⟩
  refine ⟨row, ?_, hp⟩
  cases w with
  | insertRequest r => exact List.mem_append_left _ hrow
  | _ => exact hrow

/-- So does a nonce. -/
theorem lasting_nonce (p : NonceRow → Prop) : Lasting fun d => ∃ row ∈ d.nonces, p row := by
  rintro d w ⟨row, hrow, hp⟩
  refine ⟨row, ?_, hp⟩
  cases w with
  | insertNonce r => exact List.mem_append_left _ hrow
  | _ => exact hrow

namespace IngestionService

variable {s : IngestionService} {x : Ingest}

/-- What a call was refused for stays a reason. -/
theorem lasting_refuses (e : Exn) : Lasting fun d => s.Refuses x d e := by
  rintro d w h
  cases h with
  | unavailable h => exact .unavailable h
  | conflict mem key hash =>
    obtain ⟨row, hrow, hkey, hne⟩ := lasting_request (fun row => row.idempotencyKey = x.key ∧
      row.requestHash ≠ (s.document x).requestHash.val) d w ⟨_, mem, key, hash⟩
    exact .conflict hrow hkey hne
  | reused mem claimed same =>
    obtain ⟨row, hrow, hsame⟩ := lasting_nonce (fun row => row.nonce = _) d w ⟨_, mem, same⟩
    exact .reused hrow claimed hsame
  | malformed h because => exact .malformed h because

end IngestionService

/-! ## The rule of an ingestion -/

section

variable {ι A : Type} [DecidableEq ι] {s : IngestionService} {x : Ingest} {i : ι}
  {g entry : Server ι Db Write Lock} {d₀ : Db} {ls : List Lock} {ws wrote : List Write}

/-- The sessions of the ingestions. -/
abbrev ingestOperations (ι : Type) (s : IngestionService) : Protocol ι (Server ι Db Write Lock) :=
  protocol schema (ingestDiscipline s.lockKey) (IngestInv s.hash)

/-- What the session of an ingestion knows. -/
abbrev IngestKnows (s : IngestionService) (i : ι) (session : Session Write) (ls : List Lock)
    (d : Db) (g : Server ι Db Write Lock) : Prop :=
  At schema (ingestDiscipline s.lockKey) i session [] ls d g

/-- How the database may change while that session holds its locks. -/
abbrev IngestBecomes (s : IngestionService) (ls : List Lock) (d d' : Db) : Prop :=
  Evolved schema (ingestDiscipline s.lockKey) ls d d'

/-- What the transaction of an ingestion owes : its end, with a failure as it is reported. -/
def Ingesting (s : IngestionService) (x : Ingest) (i : ι) (entry : Server ι Db Write Lock)
    (out : Except Exn IngestionOutcome) (g : Server ι Db Write Lock) : Prop :=
  (ingestOperations ι s).idle i g ∧
    s.Ingested x i entry (out.mapError IngestionService.reported) g

/-- What the session of an ingestion is to end in. -/
abbrev IngestDone (s : IngestionService) (x : Ingest) (i : ι) (entry : Server ι Db Write Lock) :
    Except Exn IngestionOutcome → Server ι Db Write Lock → Prop :=
  Done schema (ingestDiscipline s.lockKey) (IngestInv s.hash) i (entry.session i).wrote []
    (Ingesting s x i entry)

/-- Nobody else undoes what a call was answered. -/
theorem stable_ingested (out : Except Exn IngestionOutcome) :
    (ingestOperations ι s).Stable i fun g =>
      (ingestOperations ι s).idle i g ∧ s.Ingested x i entry out g := by
  rintro g g' - - hr ⟨hidle, h⟩
  refine ⟨(ingestOperations ι s).idle_rely i g g' hr hidle, ?_⟩
  obtain ⟨hs, -, ws, hdb, -⟩ := hr
  have hlasting {p : Db → Prop} (hp : Lasting p) (h : p g.db) : p g'.db :=
    hdb ▸ schema.applyAll_induction (fun d w _ => hp d w) h
  cases out with
  | error e => exact ⟨by rw [hs]; exact h.1, hlasting (IngestionService.lasting_refuses e) h.2⟩
  | ok outcome =>
    exact ⟨hlasting (lasting_request _) h.stored, by rw [hs]; exact h.wrote,
      by rw [hs]; exact h.repeated, h.unspent⟩

/-- A failure, as it is reported, has committed nothing. -/
theorem ingesting_error {e : Exn} {d : Db}
    (h : IngestKnows s i ⟨.idle, [], (entry.session i).wrote⟩ [] d g)
    (he : s.Refuses x d (IngestionService.reported e)) : Ingesting s x i entry (.error e) g :=
  ⟨h.idle, h.committed, h.evolved.lasting (IngestionService.lasting_refuses _) he⟩

/-- A failure of the database is a reason to refuse. -/
theorem refuses_sql (d : Db) (e : SqlError) :
    s.Refuses x d (IngestionService.reported (OfSql.ofSql e)) := by
  cases e <;> exact .unavailable rfl

/-- A statement that fails ends a call that has written nothing. -/
theorem fails_ingest (d : Db) : ReadCommitted.Fails schema (ingestDiscipline s.lockKey)
    (IngestInv s.hash) i (entry.session i).wrote [] d (IngestDone s x i entry) :=
  fun e _ _ h => ⟨_, _, _, _, h, fun _ h' => ingesting_error h' (refuses_sql _ e)⟩

/-- A failure in the transaction. -/
theorem wp_refuse {e : Exn} (hi : (ingestOperations ι s).inv g)
    (h : IngestKnows s i ⟨.inTrans, ws, (entry.session i).wrote⟩ ls d₀ g)
    (he : s.Refuses x d₀ (IngestionService.reported e)) :
    (ingestOperations ι s).wp i (.raise e : Client ι A IngestionOutcome)
      (IngestDone s x i entry) g :=
  wp_raise hi h fun _ _ h' => ⟨_, _, _, _, h', fun _ h'' => ingesting_error h'' he⟩

/-- A refusal of the ledger is a reason too. -/
theorem refuses_append {e : Exn} (d : Db)
    (he : e.isInstance .ledgerError ∨ e.isInstance .validationError) :
    s.Refuses x d (IngestionService.reported e) := by
  refine .unavailable ?_
  unfold IngestionService.reported
  rw [if_pos (by tauto)]
  rfl

/-- From the event of an outcome on. -/
theorem wp_finish {outcome : IngestionOutcome} {rawRef : String}
    {versions : Option VersionOverrides} (hi : (ingestOperations ι s).inv g)
    (h : IngestKnows s i ⟨.inTrans, ws, (entry.session i).wrote⟩ ls d₀ g)
    (hkey : .advisory (s.lockKey x.key) ∈ ls)
    (hok : ∀ e d, IngestInv s.hash d → IngestBecomes s ls d₀ d →
      (IngestionService.writer x).Appended (s.command x outcome rawRef versions)
        (schema.applyAll d ws) e →
      IngestInv s.hash (schema.applyAll d
        (ws ++ [Write.insertEvent e] ++ [Write.insertRequest (s.requestRow x outcome)])) ∧
      ∀ g', IngestKnows s i ⟨.idle, [], (entry.session i).wrote ++
          (ws ++ [Write.insertEvent e] ++ [Write.insertRequest (s.requestRow x outcome)])⟩ []
        (schema.applyAll d
          (ws ++ [Write.insertEvent e] ++ [Write.insertRequest (s.requestRow x outcome)]))
        g' → Ingesting s x i entry (.ok outcome) g') :
    (ingestOperations ι s).wp i (s.finish x outcome rawRef versions : Client ι A IngestionOutcome)
      (IngestDone s x i entry) g := by
  have hstrict := stricter_ingest s.lockKey
  unfold IngestionService.finish
  refine Protocol.wp_bind hi (Protocol.wp_raises (raises_append x.traceId)
    (wp_append_of hstrict hi h ?_ ?_ ?_))
  · exact fun e g' _ h' he => ⟨_, _, _, _, h', fun _ h'' =>
      ingesting_error h'' (refuses_append _ (he e rfl))⟩
  · exact fun e g' _ h' he => ⟨_, _, _, _, h', fun _ h'' =>
      ingesting_error h'' (refuses_append _ (he e rfl))⟩
  · intro e d₁ _ hev₁ ha g₁ hi₁ h₁ _
    refine wp_insert hi₁ h₁ (by simp [schema]) ?_ (fails_ingest _) ?_
    · simp [ingestDiscipline, discipline, IngestionService.requestRow, hkey]
    · intro d₂ _ hev₂ _ g₂ hi₂ h₂
      refine wp_ret hi₂ h₂ fun g₃ _ h₃ => ⟨_, _, _, _, h₃, .inl rfl, fun d hd hev => ?_⟩
      have hev' : IngestBecomes s (ls ++ LedgerWriter.locks e) d₁ d :=
        hev₂.trans (hev.mono (by simp; tauto))
      have hmem (l : Lock) (hl : l ∈ LedgerWriter.locks e) : l ∈ ls ++ LedgerWriter.locks e :=
        List.mem_append_right _ hl
      have ha' := ha.congr
        (hev'.guards_view ((guards_run? _).mono hstrict.locks)
          (hmem _ (by simp [LedgerWriter.locks])) ws)
        (hev'.guards_view ((guards_eventsOf _).mono hstrict.locks)
          (hmem _ (by simp [LedgerWriter.locks])) ws)
        (hev'.guards_view ((guards_event? _).mono hstrict.locks)
          (hmem _ (by simp [LedgerWriter.locks])) ws)
      obtain ⟨hinv, hend⟩ :=
      hok e d hd (hev₁.trans (hev'.mono fun l hl => List.mem_append_left _ hl)) ha'
      exact ⟨hinv, hend, fun e' g' h' => ingesting_error h' (refuses_sql _ e')⟩

/-! ## What a transaction has claimed -/

@[simp] theorem claims_requests (x : Ingest) (d : Db) :
    (schema.applyAll d x.claims).requests = d.requests := by
  unfold Ingest.claims
  split <;> rfl

@[simp] theorem claims_invoices (x : Ingest) (d : Db) :
    (schema.applyAll d x.claims).invoices = d.invoices := by
  unfold Ingest.claims
  split <;> rfl

@[simp] theorem claims_runs (x : Ingest) (d : Db) :
    (schema.applyAll d x.claims).runs = d.runs := by
  unfold Ingest.claims
  split <;> rfl

/-- Claiming a fresh nonce keeps the invariant. -/
theorem IngestInv.claims {hash : HashObject} {d : Db} (h : IngestInv hash d)
    (hx : x.Unclaimed d) : IngestInv hash (schema.applyAll d x.claims) := by
  unfold Ingest.claims
  unfold Ingest.Unclaimed at hx
  cases hnonce : x.nonce with
  | none => exact h
  | some nonce => exact h.claim (hx nonce hnonce)

/-- The lock of the nonce, if the request has one. -/
def Ingest.nonceLocks (x : Ingest) : List Lock :=
  match x.nonce with
  | none => []
  | some nonce => [.nonce nonce.nonce]

/-- The locks of the key and of the nonce, with what was found under the nonce's. -/
structure Holding (s : IngestionService) (x : Ingest) (entry : Db) (ls : List Lock) (d : Db) :
    Prop where
  unclaimed : x.Unclaimed d
  keyLock : .advisory (s.lockKey x.key) ∈ ls
  nonceLocks : ∀ l ∈ x.nonceLocks, l ∈ ls
  unspent : ∀ nonce ∈ x.nonce, ∀ row ∈ entry.nonces, row.nonce ≠ nonce.nonce

/-- The key has no outcome, and had none at the entry. -/
structure Unanswered (s : IngestionService) (x : Ingest) (entry : Db) (ls : List Lock) (d : Db) :
    Prop extends Holding s x entry ls d where
  key : d.request? x.key = none
  fresh : ∀ row ∈ entry.requests, row.idempotencyKey ≠ x.key

/-- What a call knows under its locks holds while it has them. -/
theorem Holding.becomes {entry : Db} {ls ls' : List Lock} {d d' : Db}
    (h : Holding s x entry ls d) (hd : IngestBecomes s ls d d') (hls : ∀ l ∈ ls, l ∈ ls') :
    Holding s x entry ls' d' where
  unclaimed nonce hnonce := by
    have hl : .nonce nonce.nonce ∈ x.nonceLocks := by
      rw [Ingest.nonceLocks, hnonce]
      exact List.mem_singleton.mpr rfl
    exact (hd.guards ((guards_nonce? _).mono (stricter_ingest s.lockKey).locks)
      (h.nonceLocks _ hl)).trans (h.unclaimed nonce hnonce)
  keyLock := hls _ h.keyLock
  nonceLocks l hl := hls _ (h.nonceLocks l hl)
  unspent := h.unspent

/-- That nobody has answered its key holds as long. -/
theorem Unanswered.becomes {entry : Db} {ls ls' : List Lock} {d d' : Db}
    (h : Unanswered s x entry ls d) (hd : IngestBecomes s ls d d') (hls : ∀ l ∈ ls, l ∈ ls') :
    Unanswered s x entry ls' d' where
  toHolding := h.toHolding.becomes hd hls
  key := (hd.guards ((guards_request? _).mono (stricter_ingest s.lockKey).locks)
    h.keyLock).trans h.key
  fresh := h.fresh

/-- A stored request is read back as the outcome that it was stored for. -/
theorem ofRow_requestRow (outcome : IngestionOutcome) :
    IngestionOutcome.ofRow (s.requestRow x outcome) = .ok outcome :=
  dif_pos outcome.status_ok

/-- An answer that was committed just now. -/
theorem ingesting_ok {outcome : IngestionOutcome} {d d' : Db}
    (hx : Unanswered s x entry.db ls d)
    (h : IngestKnows s i ⟨.idle, [], (entry.session i).wrote ++ (x.claims ++ ws)⟩ [] d' g)
    (hrow : s.requestRow x outcome ∈ d'.requests) (hws : s.Makes x outcome ws) :
    Ingesting s x i entry (.ok outcome) g := by
  refine ⟨h.idle, h.evolved.lasting (lasting_request _) ⟨_, hrow, rfl, rfl,
      ofRow_requestRow outcome⟩,
    ⟨ws, h.committed, hws⟩, ?_, hx.unspent⟩
  rintro ⟨row, hmem, hkey⟩
  exact absurd hkey (hx.fresh row hmem)

/-- The original of a content is the invoice of the content, with a run and the request that made
them. -/
theorem original?_some {d : Db} {contentHash : String} {o : OriginalIngestion}
    (h : d.original? contentHash = some o) :
    (o.invoice ∈ d.invoices ∧ o.invoice.contentHash = contentHash) ∧
      (o.run ∈ d.runs ∧ o.run.invoiceId = o.invoice.id) ∧ o.request ∈ d.requests ∧
      o.request.runId = o.run.id ∧ o.request.invoiceId = o.invoice.id := by
  have hmem : o ∈ d.originals contentHash :=
    (List.perm_insertionSort inRequestOrder _).mem_iff.mp (List.mem_of_head? h)
  simp only [Db.originals, List.mem_flatMap, List.mem_filter, List.mem_map,
    decide_eq_true_eq] at hmem
  obtain ⟨v, hv, r, hr, q, ⟨hq, hqr, hqv, -⟩, rfl⟩ := hmem
  exact ⟨hv, hr, hq, hqr, hqv⟩

/-- A claim of a nonce changes no invoice. -/
theorem claims_original? (x : Ingest) (d : Db) (contentHash : String) :
    (schema.applyAll d x.claims).original? contentHash = d.original? contentHash := by
  simp [Db.original?, Db.originals]

/-- The rule of a content that has an invoice. -/
theorem wp_reject (hi : (ingestOperations ι s).inv g)
    (h : IngestKnows s i ⟨.inTrans, x.claims, (entry.session i).wrote⟩ ls d₀ g)
    (hx : Unanswered s x entry.db ls d₀) :
    (ingestOperations ι s).wp i (s.reject x : Client ι A IngestionOutcome)
      (IngestDone s x i entry) g := by
  unfold IngestionService.reject
  refine wp_readForUpdate hi h (by simp [schema]) (fails_ingest _) ?_ ?_
  · exact fun d _ _ _ g' hi' h' => wp_refuse hi' h' (.unavailable rfl)
  · intro d₁ hd₁ hev₁ o ho g₁ hi₁ h₁
    rw [claims_original?] at ho
    obtain ⟨⟨hv, hhash⟩, -, hq, -, hqv⟩ := original?_some ho
    have hx₁ : Unanswered s x entry.db (ls ++ [Lock.invoiceRow o.invoice.id]) d₁ :=
      hx.becomes hev₁ fun l hl => List.mem_append_left _ hl
    dsimp only
    cases Version.ofString? o.run.graphVersion with
    | none => exact wp_refuse hi₁ h₁ (.unavailable rfl)
    | some graph =>
      refine wp_finish hi₁ h₁ hx₁.keyLock fun e d hd hev ha => ?_
      have hx' := hx₁.becomes hev fun _ h => h
      have hinvoice : d.invoice? o.invoice.id = some o.invoice :=
        (hev.guards ((guards_invoice? _).mono (stricter_ingest s.lockKey).locks) (by simp)).trans
          (lookup_of_mem hd₁.invoiceIds hv)
      have hv' : o.invoice ∈ d.invoices := mem_of_lookup hinvoice
      obtain ⟨q, hq', rfl⟩ := hev.lasting (lasting_request (· = o.request)) ⟨_, hq, rfl⟩
      have hnames := hd.requests _ hq'
      have hview : schema.applyAll d (x.claims ++ [Write.insertEvent e] ++
          [Write.insertRequest (s.requestRow x (.rejected o.request.responseBody))]) =
          IngestInv.rejected (schema.applyAll d x.claims) e
            (s.requestRow x (.rejected o.request.responseBody)) := by
        rw [Schema.applyAll_append, Schema.applyAll_append]
        rfl
      have hid : o.invoice.id = o.request.responseBody.invoiceId :=
        hqv.symm.trans hnames.invoiceId.symm
      rw [hview]
      refine ⟨(hd.claims hx'.unclaimed).reject (v := o.invoice) ?_ ?_ ?_ rfl ?_ ?_ ?_,
        fun g' h' => ?_⟩
      · rwa [claims_invoices]
      · rw [Db.request?, claims_requests]
        exact hx'.key
      · obtain ⟨r, hr, hrid, hri⟩ := hnames.run
        refine ⟨rfl, rfl, rfl, ⟨r, ?_, hrid.trans hnames.runId.symm,
          hri.trans hnames.invoiceId.symm⟩, o.invoice, ?_, hid, x.contentType, x.source, x.body,
          hhash, rfl⟩
        · rwa [claims_runs]
        · rwa [claims_invoices]
      · rw [ha.event]
        rfl
      · rw [ha.event]
        refine ⟨hid, ?_, rfl⟩
        rw [hhash]
        rfl
      · exact ((hd.claims hx'.unclaimed).ledger.append ha).congr rfl
          fun _ run hrun => ⟨run, hrun, rfl, rfl⟩
      · rw [List.append_assoc] at h'
        exact ingesting_ok hx' h' (List.mem_append_right _ (List.mem_singleton.mpr rfl))
          (.rejected e _ rfl)

/-- What is known of a new content : neither it, nor the identifiers of its invoice and its run, are
in the database. -/
structure Unknown (s : IngestionService) (x : Ingest) (ls : List Lock) (d : Db) : Prop where
  content : d.invoiceByHash? (s.invoiceRow x).contentHash = none
  invoice : d.invoice? x.invoiceId = none
  contentLock : .contentHash (s.invoiceRow x).contentHash ∈ ls
  invoiceLock : .invoiceRow x.invoiceId ∈ ls

/-- That the content is new holds while its lock is held. -/
theorem Unknown.becomes {ls ls' : List Lock} {d d' : Db} (h : Unknown s x ls d)
    (hd : IngestBecomes s ls d d') (hls : ∀ l ∈ ls, l ∈ ls') : Unknown s x ls' d' where
  content := fresh_hash hd h.contentLock h.content
  invoice := (hd.guards ((guards_invoice? _).mono (stricter_ingest s.lockKey).locks)
    h.invoiceLock).trans h.invoice
  contentLock := hls _ h.contentLock
  invoiceLock := hls _ h.invoiceLock

/-- A run that conflicts with nothing has a new id. -/
theorem run?_of_runConflict {d : Db} {row : RunRow} (h : d.runConflict row = none) :
    d.run? row.id = none := by
  by_contra hne
  have hsome := Option.ne_none_iff_isSome.mp hne
  simp only [Db.runConflict, hsome, if_true] at h
  split_ifs at h

/-- The rule of a content, whether it is new or not. -/
theorem wp_create (hi : (ingestOperations ι s).inv g)
    (h : IngestKnows s i ⟨.inTrans, x.claims, (entry.session i).wrote⟩ ls d₀ g)
    (hx : Unanswered s x entry.db ls d₀) :
    (ingestOperations ι s).wp i (s.create x : Client ι A IngestionOutcome)
      (IngestDone s x i entry) g := by
  unfold IngestionService.create
  refine wp_insertOnConflict hi h (by simp [schema]) (by simp [ingestDiscipline, discipline])
    (fails_ingest _) ?_ ?_
  · exact fun d _ hev _ g' hi' h' => wp_reject hi' h' (hx.becomes hev fun _ h => h)
  · intro d₁ _ hev₁ hcontent hinvoice g₁ hi₁ h₁
    have hnew : Unknown s x (ls ++ [Lock.invoiceRow (s.invoiceRow x).id,
        .invoicePk (s.invoiceRow x).id, .contentHash (s.invoiceRow x).contentHash]) d₁ := by
      refine ⟨?_, ?_, by simp, by simp [IngestionService.invoiceRow]⟩
      · simpa [Db.invoiceByHash?] using hcontent
      · by_contra hne
        have hsome : ((schema.applyAll d₁ x.claims).invoice? (s.invoiceRow x).id).isSome := by
          rw [Db.invoice?, claims_invoices]
          exact Option.ne_none_iff_isSome.mp hne
        simp [hsome] at hinvoice
    have hx₁ : Unanswered s x entry.db (ls ++ [Lock.invoiceRow (s.invoiceRow x).id,
        .invoicePk (s.invoiceRow x).id, .contentHash (s.invoiceRow x).contentHash]) d₁ :=
      hx.becomes hev₁ fun l hl => List.mem_append_left _ hl
    rw [if_pos rfl]
    refine wp_insert hi₁ h₁ (by simp [schema]) (by simp [ingestDiscipline, discipline])
      (fails_ingest _) ?_
    intro d₂ _ hev₂ hconflict g₂ hi₂ h₂
    have hrun : d₂.run? x.runId = none := by
      have hview := run?_of_runConflict hconflict
      rw [Schema.applyAll_append] at hview
      change lookup RunRow.id (schema.applyAll d₂ x.claims).runs x.runId = none at hview
      rwa [claims_runs] at hview
    have hx₂ := hx₁.becomes hev₂ fun _ h => h
    have hnew₂ := hnew.becomes hev₂ fun _ h => h
    refine wp_finish hi₂ h₂ (List.mem_append_left _ hx₂.keyLock) fun e d hd hev ha => ?_
    have hx' := hx₂.becomes (hev.mono fun l hl => List.mem_append_left _ hl) fun _ h => h
    have hnew' := hnew₂.becomes (hev.mono fun l hl => List.mem_append_left _ hl) fun _ h => h
    have hrun' : d.run? x.runId = none :=
      (hev.guards ((guards_run? _).mono (stricter_ingest s.lockKey).locks)
        (by simp [IngestionService.runRow])).trans hrun
    have hinv := hd.claims hx'.unclaimed
    have hview : schema.applyAll d (x.claims ++ [Write.insertInvoice (s.invoiceRow x)] ++
        [Write.insertRun (IngestionService.runRow x)] ++ [Write.insertEvent e] ++
        [Write.insertRequest (s.requestRow x (.accepted x.invoiceId x.runId))]) =
        IngestInv.accepted (schema.applyAll d x.claims) (s.invoiceRow x)
          (IngestionService.runRow x) e
          (s.requestRow x (.accepted x.invoiceId x.runId)) := by
      simp only [Schema.applyAll_append]
      rfl
    rw [hview]
    refine ⟨hinv.accept ?_ ?_ ?_ rfl ?_ ?_ rfl rfl rfl ?_ ?_ ?_, fun g' h' => ?_⟩
    · rw [Db.invoice?, claims_invoices]
      exact hnew'.invoice
    · rw [Db.invoiceByHash?, claims_invoices]
      exact hnew'.content
    · rw [Db.run?, claims_runs]
      exact hrun'
    · rw [Db.request?, claims_requests]
      exact hx'.key
    · exact ⟨rfl, rfl, rfl, ⟨_, List.mem_append_right _ (List.mem_singleton.mpr rfl), rfl, rfl⟩,
        _, List.mem_append_right _ (List.mem_singleton.mpr rfl), rfl, x.contentType, x.source,
        x.body, rfl, rfl⟩
    · rw [ha.event]
      rfl
    · rw [ha.event]
      exact ⟨rfl, rfl, rfl⟩
    · have hstarted : schema.applyAll d (x.claims ++ [Write.insertInvoice (s.invoiceRow x)] ++
          [Write.insertRun (IngestionService.runRow x)]) =
          IngestInv.started (schema.applyAll d x.claims) (s.invoiceRow x)
            (IngestionService.runRow x) := by
        simp only [Schema.applyAll_append]
        rfl
      rw [hstarted] at ha
      exact (hinv.ledger_started.append ha).congr rfl fun _ row hr => ⟨row, hr, rfl, rfl⟩
    · simp only [List.append_assoc] at h'
      exact ingesting_ok hx' h' (List.mem_append_right _ (List.mem_singleton.mpr rfl))
        (.accepted e rfl)

/-- A stored outcome is the answer, if the request is the one it was stored for. -/
theorem replayOf_some {requestHash : Sha256} {row : RequestRow} :
    replayOf requestHash (some row) =
      if row.requestHash ≠ requestHash.val then .error idempotencyConflict
      else (IngestionOutcome.ofRow row).map some := rfl

/-- A stored request that cannot be read is a validation error. -/
theorem ofRow_error {row : RequestRow} {e : Exn} (h : IngestionOutcome.ofRow row = .error e) :
    e = .new .validationError "IngestionOutcome" := by
  unfold IngestionOutcome.ofRow at h
  by_cases hstatus : row.responseStatus = if row.responseBody.duplicate then 200 else 201
  · rw [dif_pos hstatus] at h
    cases h
  · rw [dif_neg hstatus] at h
    exact (Except.error.inj h).symm

/-- What the replay of a stored row may refuse. -/
theorem refuses_replayOf {d : Db} {row : RequestRow} {e : Exn} (hrow : d.request? x.key = some row)
    (h : replayOf (s.document x).requestHash (some row) = .error e) :
    s.Refuses x d (IngestionService.reported e) := by
  rw [replayOf_some] at h
  split_ifs at h with hhash
  · cases h
    exact .conflict (mem_of_lookup hrow) (key_of_lookup hrow) hhash
  · cases hof : IngestionOutcome.ofRow row with
    | ok outcome => simp [hof, Except.map] at h
    | error e' =>
      obtain rfl : e' = e := by simpa [hof, Except.map] using h
      rw [ofRow_error hof]
      exact .unavailable rfl

/-- What the replay of a stored row answers. -/
theorem stored_replayOf {d : Db} {row : RequestRow} {outcome : IngestionOutcome}
    (hrow : d.request? x.key = some row)
    (h : replayOf (s.document x).requestHash (some row) = .ok (some outcome)) :
    ∃ row ∈ d.requests, row.idempotencyKey = x.key ∧
      row.requestHash = (s.document x).requestHash.val ∧
      IngestionOutcome.ofRow row = .ok outcome := by
  rw [replayOf_some] at h
  split_ifs at h with hhash
  refine ⟨row, mem_of_lookup hrow, key_of_lookup hrow, not_not.mp hhash, ?_⟩
  cases hof : IngestionOutcome.ofRow row with
  | error e => simp [hof, Except.map] at h
  | ok stored =>
    rw [hof] at h
    obtain rfl : stored = outcome := by simpa [Except.map] using h
    rfl

/-- A stored request is never taken for a missing one. -/
theorem replayOf_ne_none {requestHash : Sha256} {row : RequestRow} :
    replayOf requestHash (some row) ≠ .ok none := by
  rw [replayOf_some]
  split_ifs
  · simp
  · cases IngestionOutcome.ofRow row <;> simp [Except.map]

/-- From the second look for the outcome on. -/
theorem wp_answer (hi : (ingestOperations ι s).inv g)
    (h : IngestKnows s i ⟨.inTrans, x.claims, (entry.session i).wrote⟩ ls d₀ g)
    (hx : Holding s x entry.db ls d₀)
    (hentry : ∀ row ∈ entry.db.requests, row ∈ d₀.requests) :
    (ingestOperations ι s).wp i (do
      let stored ← s.replay x
      match stored with
      | some outcome => return outcome
      | none => s.create x : Client ι A IngestionOutcome) (IngestDone s x i entry) g := by
  unfold IngestionService.replay
  rw [Prog.bind_eq, Prog.bind_eq, Prog.bind_assoc]
  refine wp_read hi h (fails_ingest _) fun d₁ _ hev₁ g₁ hi₁ h₁ => ?_
  have hx₁ := hx.becomes hev₁ fun _ h => h
  rw [Db.request?, claims_requests]
  cases hrow : d₁.request? x.key with
  | none =>
    have hnone : lookup RequestRow.idempotencyKey d₁.requests x.key = none := hrow
    rw [hnone]
    refine wp_create hi₁ h₁ ⟨hx₁, hrow, fun row hmem => ?_⟩
    obtain ⟨row', hrow', rfl⟩ := hev₁.lasting (lasting_request (· = row))
      ⟨_, hentry row hmem, rfl⟩
    exact lookup_eq_none.mp hrow row' hrow'
  | some row =>
    have hsome : lookup RequestRow.idempotencyKey d₁.requests x.key = some row := hrow
    rw [hsome]
    cases hreplay : replayOf (s.document x).requestHash (some row) with
    | error e => exact wp_refuse hi₁ h₁ (refuses_replayOf hrow hreplay)
    | ok stored =>
      cases stored with
      | none => exact absurd hreplay replayOf_ne_none
      | some outcome =>
        have hstored := stored_replayOf hrow hreplay
        refine wp_ret hi₁ h₁ fun g₂ _ h₂ => ⟨_, _, _, _, h₂, .inl rfl, fun d hd hev => ?_⟩
        refine ⟨hd.claims (hx₁.becomes hev fun _ h => h).unclaimed, fun g' h' => ⟨h'.idle, ?_⟩,
          fun e g' h' => ingesting_error h' (refuses_sql _ e)⟩
        refine ⟨h'.evolved.lasting (lasting_request _) ?_, ⟨[], ?_, .replayed⟩,
          fun _ => h'.committed,
          hx₁.unspent⟩
        · rw [claims_requests]
          exact hev.lasting (lasting_request _) hstored
        · rw [List.append_nil]
          exact h'.committed

/-- The rule of the transaction of an ingestion. -/
theorem wp_ingestBody (hi : (ingestOperations ι s).inv g)
    (h : IngestKnows s i ⟨.inTrans, [], (entry.session i).wrote⟩ [] entry.db g) :
    (ingestOperations ι s).wp i (s.body x : Client ι A IngestionOutcome)
      (IngestDone s x i entry) g := by
  have hentry {ls : List Lock} {d : Db} (hev : IngestBecomes s ls entry.db d) :
      ∀ row ∈ entry.db.requests, row ∈ d.requests := by
    intro row hrow
    obtain ⟨row', hrow', rfl⟩ := hev.lasting (lasting_request (· = row)) ⟨_, hrow, rfl⟩
    exact hrow'
  unfold IngestionService.body IngestionService.lockKeyOf
  split_ifs with hascii
  · refine wp_lock hi h (by simp [schema]) (fails_ingest _) fun d₁ _ hev₁ g₁ hi₁ h₁ => ?_
    cases hnonce : x.nonce with
    | none =>
      refine wp_answer hi₁ (by rwa [Ingest.claims, hnonce]) ⟨?_, ?_, ?_, ?_⟩ (hentry hev₁)
      · simp [Ingest.Unclaimed, hnonce]
      · exact List.mem_append_right _ (List.mem_singleton.mpr rfl)
      · simp [Ingest.nonceLocks, hnonce]
      · simp [hnonce]
    | some nonce =>
      have hclaims : x.claims =
          [.insertNonce ⟨nonce.nonce, nonce.signedAt, x.createdAt⟩] := by
        rw [Ingest.claims, hnonce]
      unfold IngestionService.claimNonce
      dsimp only
      rw [Prog.bind_eq, Prog.bind_eq, Prog.bind_assoc]
      refine wp_insertOnConflict hi₁ h₁ (by simp [schema]) (by simp [ingestDiscipline, discipline])
        (fails_ingest _) ?_ ?_
      · intro d₂ _ _ hspent g₂ hi₂ h₂
        obtain ⟨row, hrow⟩ := Option.isSome_iff_exists.mp hspent
        exact wp_refuse hi₂ h₂ (.reused (mem_of_lookup hrow) hnonce (key_of_lookup hrow))
      · intro d₂ _ hev₂ hfree _ g₂ hi₂ h₂
        have hnone : d₂.nonce? nonce.nonce = none := by simpa using hfree
        have hev : IngestBecomes s [] entry.db d₂ := hev₁.trans (hev₂.mono (by simp))
        refine wp_answer hi₂ (by rwa [hclaims]) ⟨?_, ?_, ?_, ?_⟩ (hentry hev)
        · simpa [Ingest.Unclaimed, hnonce] using hnone
        · simp
        · simp [Ingest.nonceLocks, hnonce]
        · rintro nonce' hnonce' row hrow
          obtain rfl : nonce = nonce' := by simpa [hnonce] using hnonce'
          obtain ⟨row', hrow', rfl⟩ := hev.lasting (lasting_nonce (· = row)) ⟨_, hrow, rfl⟩
          exact lookup_eq_none.mp hnone row' hrow'
  · refine wp_refuse hi h (.malformed rfl (.inr ?_))
    simpa using hascii

/-- A failure between two statements. -/
theorem wp_refuse_idle {e : Exn} (hi : (ingestOperations ι s).inv g)
    (h : IngestKnows s i ⟨.idle, [], (entry.session i).wrote⟩ [] d₀ g)
    (he : s.Refuses x d₀ (IngestionService.reported e)) :
    (ingestOperations ι s).wp i (.raise e : Client ι A IngestionOutcome)
      (Ingesting s x i entry) g :=
  wp_raise hi h fun _ _ h' => ingesting_error h' he

/-- The document is stored, and the transaction run. -/
theorem wp_store (hi : (ingestOperations ι s).inv g)
    (h : IngestKnows s i ⟨.idle, [], (entry.session i).wrote⟩ [] entry.db g) :
    (ingestOperations ι s).wp i (do
      let _ ← S3RawStorage.put s.bucket (s.document x)
      transaction schema (s.body x) : Client ι PutAnswer IngestionOutcome)
      (Ingesting s x i entry) g := by
  unfold S3RawStorage.put
  rw [Prog.bind_eq, Prog.bind_eq, Prog.bind_assoc]
  refine wp_ask hi h fun answer g₁ hi₁ h₁ => ?_
  have hrun : (ingestOperations ι s).wp i
      (transaction schema (s.body x) : Client ι PutAnswer IngestionOutcome)
      (Ingesting s x i entry) g₁ :=
    wp_transaction (fun out => stable_ingested _) hi₁ h₁
      (fun e _ h' => ingesting_error h' (refuses_sql _ e)) fun g' hi' h' => wp_ingestBody hi' h'
  cases answer with
  | stored => exact hrun
  | clientError code =>
    dsimp only
    split_ifs
    · exact hrun
    · exact wp_refuse_idle hi₁ h₁ (.unavailable rfl)
  | unreachable cause => exact wp_refuse_idle hi₁ h₁ (.unavailable rfl)

/-- The rule of `ingest`. -/
theorem wp_ingest (hi : (ingestOperations ι s).inv entry)
    (hidle : (ingestOperations ι s).idle i entry) :
    (ingestOperations ι s).wp i (s.ingest x : Client ι PutAnswer IngestionOutcome)
      (fun out g => (ingestOperations ι s).idle i g ∧ s.Ingested x i entry out g) entry := by
  have hat := At.of_idle (S := schema) (D := ingestDiscipline s.lockKey) hidle
  unfold IngestionService.ingest
  split_ifs with hsource
  · refine wp_raise hi hat fun g _ h => ⟨h.idle, h.committed, .malformed rfl (.inl hsource)⟩
  · refine Protocol.wp_tryCatch hi (Protocol.wp_mono (Q := Ingesting s x i entry)
      (fun out g hi' h => ?_) ?_)
    · cases out with
      | ok outcome => exact h
      | error e => exact Protocol.wp_raise (stable_ingested _) hi' h fun _ _ h => h
    · unfold IngestionService.early
      cases hnonce : x.nonce with
      | some nonce => exact wp_store hi hat
      | none =>
        dsimp only
        unfold IngestionService.replay
        rw [Prog.bind_eq, Prog.bind_eq, Prog.bind_assoc]
        refine wp_read_idle hi hat (fun e g _ h => ingesting_error h (refuses_sql _ e)) ?_
        intro d _ hev g hi' h
        cases hrow : d.request? x.key with
        | none => exact wp_store hi' (h.since hev)
        | some row =>
          cases hreplay : replayOf (s.document x).requestHash (some row) with
          | error e => exact wp_refuse_idle hi' h (refuses_replayOf hrow hreplay)
          | ok stored =>
            cases stored with
            | none => exact absurd hreplay replayOf_ne_none
            | some outcome =>
              have hclaims : x.claims = [] := by rw [Ingest.claims, hnonce]
              refine wp_ret hi' h fun g' _ h' => ⟨h'.idle, ?_, ⟨[], ?_, .replayed⟩, fun _ => ?_, ?_⟩
              · exact h'.evolved.lasting (lasting_request _) (stored_replayOf hrow hreplay)
              · simpa [hclaims] using h'.committed
              · simpa [hclaims] using h'.committed
              · simp [hnonce]

/-! ## Any number of ingestions -/

/-- Calls of `ingest`, at once. -/
def ingestions (s : IngestionService) :
    System ι (Server ι Db Write Lock) PutAnswer Exn IngestionOutcome Ingest where
  body x := s.ingest x
  reset i g := g.close i

/-- Every call of `ingest`, from any state of the invariant, answers as its postcondition says. -/
theorem ingestions_verified : (ingestions s).Verified (ingestOperations ι s)
    fun x i entry out g => s.Ingested x i entry out g where
  body x i g hi hidle := wp_ingest hi hidle
  reset i g hi := by
    obtain ⟨hg, hi', hat⟩ := close_step hi
    exact ⟨hi', hg, hat.idle⟩

/-- A delivery claims its own nonce. -/
theorem claim_mem {x : Ingest} {nonce : WebhookNonce} (h : x.nonce = some nonce) :
    .insertNonce ⟨nonce.nonce, nonce.signedAt, x.createdAt⟩ ∈ x.claims := by
  rw [Ingest.claims, h]
  exact List.mem_singleton.mpr rfl

/-- The nonce a write claims. -/
def claimed? : Write → Option String
  | .insertNonce row => some row.nonce
  | _ => none

/-- The nonces of the store are those that were claimed, in their order. -/
theorem nonces_applyAll (ws : List Write) : ∀ d : Db,
    (schema.applyAll d ws).nonces.map NonceRow.nonce =
      d.nonces.map NonceRow.nonce ++ ws.filterMap claimed? := by
  induction ws with
  | nil => simp
  | cons w ws ih =>
    intro d
    rw [Schema.applyAll_cons, ih]
    cases w <;> simp [schema, Db.apply, claimed?, List.filterMap_cons]

/-- The nonces a log claims, with who has claimed them. -/
def claimsOf (log : List (ι × Write)) : List (ι × String) :=
  log.filterMap fun p => (claimed? p.2).map fun n => (p.1, n)

/-- A nonce is claimed once. -/
theorem claimsOf_nodup {d : Db} {log : List (ι × Write)} (hlog : IsLog schema d g log)
    (hnonces : (g.db.nonces.map NonceRow.nonce).Nodup) : ((claimsOf log).map Prod.snd).Nodup := by
  rw [hlog.1, nonces_applyAll] at hnonces
  have hclaimed := (List.nodup_append.mp hnonces).2.1
  rw [List.filterMap_map] at hclaimed
  simpa [claimsOf, List.map_filterMap, Function.comp_def] using hclaimed

/-- What a session has written is in the log of claims. -/
theorem mem_claimsOf {d : Db} {log : List (ι × Write)} (hlog : IsLog schema d g log) {i : ι}
    {row : NonceRow} (h : .insertNonce row ∈ (g.session i).wrote) :
    (i, row.nonce) ∈ claimsOf log := by
  rw [hlog.2 i] at h
  obtain ⟨p, hp, hrow⟩ := List.mem_map.mp h
  rw [List.mem_filter, decide_eq_true_eq] at hp
  exact List.mem_filterMap.mpr ⟨p, hp.1, by simp [claimed?, hrow, hp.2]⟩

/-- An answered ingestion has claimed its nonce. -/
theorem IngestionService.Answered.claims {outcome : IngestionOutcome}
    (h : s.Answered x i entry outcome g) {nonce : WebhookNonce} (hnonce : x.nonce = some nonce) :
    .insertNonce ⟨nonce.nonce, nonce.signedAt, x.createdAt⟩ ∈ (g.session i).wrote := by
  obtain ⟨ws, hwrote, -⟩ := h.wrote
  rw [hwrote]
  exact List.mem_append_right _ (List.mem_append_left _ (claim_mem hnonce))

/-- The accepted documents are the invoices, in the order they were committed. -/
theorem IngestInv.accepted_events {hash : HashObject} {d : Db} (h : IngestInv hash d) :
    (d.ledger.filter fun e => e.eventType = ingestAccepted).map LedgerEvent.invoiceId =
      d.invoices.map InvoiceRow.id := by
  have hne : ingestDuplicateRejected ≠ ingestAccepted := by decide
  have hfilter := congrArg
    (fun records => (records.filter fun r => r.eventType = ingestAccepted).map
      IngestRecord.invoiceId) h.recorded
  simp only [List.filter_map, List.map_map, Db.ingestEvents, List.filter_filter] at hfilter
  rw [h.invoices]
  refine Eq.trans ?_ (hfilter.trans ?_)
  · refine congrArg _ (List.filter_congr fun e _ => ?_)
    by_cases htype : e.eventType = ingestAccepted <;>
      simp [LedgerEvent.ingestRecord, isIngest, htype]
  · refine congrArg _ (List.filter_congr fun row _ => ?_)
    by_cases hold : row.responseBody.duplicate <;> simp [RequestRow.record, hold, hne]

/-- From a database that keeps the invariant, any interleaving of ingestions keeps it. A content has
one invoice, an invoice one run and one accepted event ; a key has one outcome, and each outcome one
event, in the order of the commits ; a duplicate's outcome is that of the request that made the
invoice, but for its mark, and its event describes that invoice. A nonce is claimed by one commit.
Every call ends as it should, two answers to one key are to one request and the same, and a nonce is
answered once. -/
theorem ingestion_idempotent {d : Db} (h₀ : IngestInv s.hash d)
    {cfg : Config ι (Server ι Db Write Lock) PutAnswer Exn IngestionOutcome Ingest}
    (h : (ingestions s).Reachable (Server.start d) cfg) :
    (cfg.store.db.invoices.map InvoiceRow.contentHash).Nodup ∧
    cfg.store.db.runs.map RunRow.invoiceId = cfg.store.db.invoices.map InvoiceRow.id ∧
    (cfg.store.db.ledger.filter fun e => e.eventType = ingestAccepted).map LedgerEvent.invoiceId =
      cfg.store.db.invoices.map InvoiceRow.id ∧
    (cfg.store.db.requests.map RequestRow.idempotencyKey).Nodup ∧
    cfg.store.db.ingestEvents.map LedgerEvent.ingestRecord =
      cfg.store.db.requests.map RequestRow.record ∧
    (∀ q ∈ cfg.store.db.requests, ∃ a ∈ cfg.store.db.acceptedRequests,
      q.responseBody = { a.responseBody with duplicate := q.responseBody.duplicate }) ∧
    (∀ e ∈ cfg.store.db.ledger, isIngest e.eventType →
      ∃ v ∈ cfg.store.db.invoices, e.Describes v) ∧
    (∃ log, IsLog schema d cfg.store log ∧ ((claimsOf log).map Prod.snd).Nodup) ∧
    (∀ i t out, cfg.thread i = some t → t.rest.outcome? = some out →
      s.Ingested t.call i t.entry out cfg.store) ∧
    ∀ i j t t' outcome outcome', cfg.thread i = some t → cfg.thread j = some t' →
      t.rest.outcome? = some (.ok outcome) → t'.rest.outcome? = some (.ok outcome') →
      (t.call.key = t'.call.key → outcome = outcome' ∧
        (s.document t.call).requestHash = (s.document t'.call).requestHash) ∧
      ∀ nonce nonce', t.call.nonce = some nonce → t'.call.nonce = some nonce' →
        nonce.nonce = nonce'.nonce → i = j := by
  have hv := @ingestions_verified ι _ s
  have hinv := (System.inv_of_reachable hv (inv_start h₀) (fun i => idle_start d) h).2
  have hpost (i t out) (ht : cfg.thread i = some t) (hout : t.rest.outcome? = some out) :
      s.Ingested t.call i t.entry out cfg.store :=
    System.post_of_reachable hv (inv_start h₀) (fun i => idle_start d) h ht hout
  obtain ⟨log, hlog⟩ := log_of_reachable hv h₀ h
  refine ⟨hinv.hashes, ?_, hinv.accepted_events, hinv.keys, hinv.recorded,
    fun q hq => hinv.original hq, hinv.events, ⟨log, hlog, claimsOf_nodup hlog hinv.nonces⟩,
    hpost, ?_⟩
  · have hruns := congrArg (List.map Prod.snd) hinv.runs
    simp only [List.map_map, Function.comp_def] at hruns
    rw [hruns, hinv.invoices]
  · intro i j t t' outcome outcome' ht ht' hout hout'
    have hend : s.Answered t.call i t.entry outcome cfg.store := hpost i t _ ht hout
    have hend' : s.Answered t'.call j t'.entry outcome' cfg.store := hpost j t' _ ht' hout'
    refine ⟨fun hkey => ?_, fun nonce nonce' hnonce hnonce' hsame => ?_⟩
    · obtain ⟨row, hrow, hrowKey, hhash, hof⟩ := hend.stored
      obtain ⟨row', hrow', hrowKey', hhash', hof'⟩ := hend'.stored
      obtain rfl : row = row' := List.inj_on_of_nodup_map hinv.keys hrow hrow'
        (hrowKey.trans (hkey.trans hrowKey'.symm))
      exact ⟨Except.ok.inj (hof.symm.trans hof'), Subtype.ext (hhash.symm.trans hhash')⟩
    · exact congrArg Prod.fst (List.inj_on_of_nodup_map (claimsOf_nodup hlog hinv.nonces)
        (mem_claimsOf hlog (hend.claims hnonce)) (mem_claimsOf hlog (hend'.claims hnonce')) hsame)

end

/-! ### Two uploads of one document -/

/-- It knows the digests of some bytes. -/
def HashObject.knowing (digests : List (List UInt8 × Sha256)) : HashObject where
  State := List UInt8
  new := []
  update := (· ++ ·)
  hexdigest data := (digests.lookup data).getD (HashObject.sample.hexdigest data)
  update_nil := List.append_nil
  update_append := List.append_assoc

/-- The digest of the sample document. -/
def sampleContentHash : Sha256 :=
  ⟨"38523c087796e5d5dd1cf9bad1fb026781a838dd9dd2cf8af58b9f6502a46778", by decide +kernel⟩

/-- A service that knows the digests of the sample. -/
def sampleIngestion : IngestionService where
  hash := .knowing [(DocumentType.pdf.signature, sampleContentHash),
    (encodeAscii "a",
      ⟨"ca978112ca1bbdcafac231b39a23dc4da786eff8147c4e72b9807785afee48bb", by decide +kernel⟩),
    (encodeAscii "bb",
      ⟨"3b64db95cb55c763391c707108489ae18b4112d783300de38e033b4c98c3deaf", by decide +kernel⟩),
    (encodeAscii ("UPLOAD\napplication/pdf\n" ++ sampleContentHash.val),
      ⟨"8732fe8de136b40f23a1532b0c4ce400e11f8c67764943e6c8dfeefa8294bd88", by decide +kernel⟩),
    (encodeAscii ("EMAIL\napplication/pdf\n" ++ sampleContentHash.val),
      ⟨"d7d74d3e0d8edec60a36e71e868d78f06ed044dd54a44e6ed150f25a175bebd4", by decide +kernel⟩)]
  bucket := "raw"

/-- An upload of the document `%PDF-`. -/
def sampleUpload (key : String) (id : Uuid) : Ingest where
  contentType := .pdf
  source := .upload
  body := DocumentType.pdf.signature
  key
  traceId := sampleTrace
  nonce := none
  invoiceId := id
  runId := id + 1
  createdAt := 0
  eventId := id + 2
  stamp := 0

/-- The empty store is within the invariant. -/
theorem ingestInv_empty (hash : HashObject) : IngestInv hash Db.empty where
  ledger := ⟨by simp [Db.empty], by simp [Db.empty, Db.eventsOf, oneTo], by simp [Db.empty],
    by simp [Db.empty]⟩
  invoiceIds := by simp [Db.empty]
  hashes := by simp [Db.empty]
  runIds := by simp [Db.empty]
  keys := by simp [Db.empty]
  nonces := by simp [Db.empty]
  invoices := by simp [Db.empty, Db.acceptedRequests]
  runs := by simp [Db.empty, Db.acceptedRequests]
  recorded := by simp [Db.empty, Db.ingestEvents]
  requests := by simp [Db.empty]
  events := by simp [Db.empty]

/-- The second upload waits for the invoice of the first. -/
def sampleUploads : List (Event ℕ PutAnswer Ingest) :=
  [Event.start 0 (sampleUpload "a" 10), .start 1 (sampleUpload "bb" 20),
    .stmt 0 .proceed, .stmt 0 (.answer PutAnswer.stored), .stmt 1 .proceed,
    .stmt 1 (.answer (.clientError "PreconditionFailed"))] ++
    List.replicate 4 (Event.stmt 0 .proceed) ++ List.replicate 3 (Event.stmt 1 .proceed) ++
    List.replicate 7 (Event.stmt 0 .proceed) ++ List.replicate 8 (Event.stmt 1 .proceed)

set_option maxRecDepth 20000 in
/-- The first upload is created and the second replayed. -/
theorem sampleUploads_statuses :
    (((ingestions sampleIngestion).replay (System.initial (Server.start Db.empty))
      sampleUploads).map fun cfg => cfg.store.db.requests.map RequestRow.responseStatus) =
        some [201, 200] := by
  decide +kernel

/-- The theorem applies to the sample uploads. -/
theorem ingestion_idempotent_sampleUploads :
    ∃ cfg : Config ℕ (Server ℕ Db Write Lock) PutAnswer Exn IngestionOutcome Ingest,
      cfg.store.db.requests.map RequestRow.responseStatus = [201, 200] ∧
      (cfg.store.db.invoices.map InvoiceRow.contentHash).Nodup := by
  obtain ⟨cfg, hcfg, hstatuses⟩ := Option.map_eq_some_iff.mp sampleUploads_statuses
  exact ⟨cfg, hstatuses, (ingestion_idempotent (ingestInv_empty _) ⟨sampleUploads, hcfg⟩).1⟩

end InvoiceOps
