import InvoiceOps.InvoiceCursors
import InvoiceOps.Keyset
import InvoiceOps.LedgerReader
import Mathlib.Data.Prod.Lex

/-!
# Reading the queue and an invoice's history

`LedgerReader.forInvoice` reads the events of an invoice over all its runs, oldest first, and
`PostgresInvoiceReader.list` the queue of invoices, newest first, under filters. Both read a page
after a cursor, with one row more than the page to see whether there is a next one ; the queue's
cursor is a text.

Rows with equal times are in the order of their ids, so following the cursors of either reads every
row once, for any limit (`keyset_pages_exact`).
-/

namespace InvoiceOps

/-! ## The history of an invoice -/

/-- Where a page of an invoice's history ends. -/
structure InvoiceCursor where
  invoiceId : Uuid
  createdAt : Instant
  id : Uuid
  deriving DecidableEq, Repr

namespace LedgerReader

/-- `ORDER BY created_at ASC, id ASC`. -/
def oldestFirst (event : LedgerEvent) : Instant ×ₗ Uuid :=
  toLex (event.createdAt, event.id)

/-- `WHERE invoice_id = %s AND (created_at, id) > (%s, %s) ORDER BY ... LIMIT %s`. -/
def selectHistory (d : Db) (invoiceId : Uuid) (after : Option InvoiceCursor) (limit : ℕ) :
    List LedgerEvent :=
  Keyset.select oldestFirst (d.ledger.filter fun e => e.invoiceId = invoiceId)
    (after.map fun c => toLex (c.createdAt, c.id)) limit

/-- `_read`, of an invoice's events. -/
def readHistory (view : Except Exn Db) (invoiceId : Uuid) (after : Option InvoiceCursor)
    (limit : ℕ) : Except Exn (List LedgerEvent) :=
  match view.bind fun d => (selectHistory d invoiceId after limit).mapM eventFromRow with
  | .ok events => .ok events
  | .error error =>
    if error.isInstance .psycopgError ∨ error.isInstance .validationError then
      .error (.chained .ledgerStorageError "Ledger history could not be read" error)
    else .error error

/-- `for_invoice`. -/
def forInvoice (view : Except Exn Db) (invoiceId : Uuid) (traceId : String) (limit : ℕ)
    (after : Option InvoiceCursor) : Except Exn (List LedgerEvent × Option InvoiceCursor) :=
  if ¬(isTraceId traceId ∧ 1 ≤ limit ∧ limit ≤ 200) then
    .error (.new .validationError "ReadQuery")
  else if after.any fun cursor => cursor.invoiceId ≠ invoiceId then
    .error (.new .ledgerCursorMismatch "Cursor belongs to another invoice")
  else do
    let rows ← readHistory view invoiceId after (limit + 1)
    let events := rows.take limit
    return (events, if limit < rows.length then
      events.getLast?.map fun e => ⟨invoiceId, e.createdAt, e.id⟩ else none)

end LedgerReader

/-! ## The queue -/

/-- A row of the queue, with its texts as they are stored. -/
structure InvoiceSummary where
  id : Uuid
  runId : Uuid
  status : InvoiceStatus
  runStatus : RunStatus
  source : IngestionSource
  contentType : DocumentType
  vendorName : Option String
  invoiceNumber : Option String
  poNumber : Option String
  currency : Option String
  totalAmount : Option Decimal
  exceptionId : Option Uuid
  exceptionType : Option String
  exceptionPriority : Option ℤ
  exceptionSlaDueAt : Option AwareDatetime
  createdAt : AwareDatetime
  /-- A `uuid` has 128 bits. -/
  id_lt : id < 2 ^ 128

namespace InvoiceSummary

/-- `InvoiceSummary.model_validate`. -/
def isValid (row : InvoiceSummary) : Bool :=
  (row.vendorName.all fun s => s.length ≤ 256) && (row.invoiceNumber.all fun s => s.length ≤ 128) &&
    (row.poNumber.all fun s => s.length ≤ 128) && row.currency.all isCurrency &&
    (row.exceptionType.all fun s => s.length ≤ 128) &&
    row.exceptionPriority.all fun n => 0 ≤ n && n ≤ 3

/-- `ORDER BY created_at DESC, id DESC`. -/
def newestFirst (row : InvoiceSummary) : (Instant ×ₗ Uuid)ᵒᵈ :=
  OrderDual.toDual (toLex (row.createdAt.val.instant, row.id))

end InvoiceSummary

/-- `InvoiceListQuery`, without its cursor. -/
structure InvoiceListQuery where
  status : Option InvoiceStatus
  runStatus : Option RunStatus
  source : Option IngestionSource
  exceptionOnly : Bool
  minPriority : Option ℤ
  limit : ℕ
  minPriority_valid : ∀ n ∈ minPriority, 0 ≤ n ∧ n ≤ 3
  limit_valid : 1 ≤ limit ∧ limit ≤ 100

/-- The filters, as they are in the `WHERE` of the statement. -/
def InvoiceListQuery.matches (query : InvoiceListQuery) (row : InvoiceSummary) : Bool :=
  (query.status.all fun s => row.status = s) && (query.runStatus.all fun s => row.runStatus = s) &&
    (query.source.all fun s => row.source = s) &&
    (!query.exceptionOnly || row.exceptionId.isSome) &&
    query.minPriority.all fun n => row.exceptionPriority.any fun p => n ≤ p

namespace PostgresInvoiceReader

/-- `InvoiceReadUnavailable`. -/
def invoiceReadUnavailable : ExnClass := .other "InvoiceReadUnavailable"

/-- The place a cursor stands for, if there is one. -/
def decodeAfter (host : CursorHost) : Option String →
    Except Exn (Option (AwareDatetime × Uuid))
  | none => .ok none
  | some value => (decodeCursor host value).map some

/-- The rows the query matches after the place of the cursor, the newest first. -/
def selectQueue (queue : List InvoiceSummary) (query : InvoiceListQuery)
    (after : Option (AwareDatetime × Uuid)) (limit : ℕ) : List InvoiceSummary :=
  Keyset.select InvoiceSummary.newestFirst (queue.filter query.matches)
    (after.map fun c => OrderDual.toDual (toLex (c.1.val.instant, c.2))) limit

/-- `list`, of the rows that the statement sees, or of the error it raises. The cursor of a query
has no more than 200 characters, and neither has that of a page. -/
def list (host : CursorHost) (queue : Except Exn (List InvoiceSummary)) (query : InvoiceListQuery)
    (cursor : Option String) : Except Exn (List InvoiceSummary × Option String) :=
  if cursor.any fun value => 200 < value.length then
    .error (.new .validationError "InvoiceListQuery")
  else do
    let after ← decodeAfter host cursor
    let rows ←
      match queue with
      | .ok queue => Except.ok (selectQueue queue query after (query.limit + 1))
      | .error error => .error (.chained invoiceReadUnavailable "Invoice queue read failed" error)
    let items := rows.take query.limit
    if items.all InvoiceSummary.isValid then
      let next := if query.limit < rows.length then
        items.getLast?.map fun item => encodeCursor item.createdAt item.id else none
      if next.any fun value => 200 < value.length then
        .error (.new .validationError "InvoicePage")
      else .ok (items, next)
    else .error (.new invoiceReadUnavailable "Invoice queue contains invalid stored data")

end PostgresInvoiceReader

/-! ## Pages of a history -/

namespace LedgerReader

variable {d : Db} {invoiceId : Uuid} {traceId : String} {limit : ℕ}

/-- The events of an invoice. -/
def historyOf (d : Db) (invoiceId : Uuid) : List LedgerEvent :=
  d.ledger.filter fun e => e.invoiceId = invoiceId

/-- `LedgerEvent.model_validate`. -/
def isEvent (e : LedgerEvent) : Bool :=
  1 ≤ e.sequence

/-- The rows are events if every one is. -/
theorem mapM_eventFromRow_eq (rows : List LedgerEvent) :
    rows.mapM eventFromRow =
      if rows.all isEvent then .ok rows else .error (.new .validationError "LedgerEvent") := by
  induction rows with
  | nil => rfl
  | cons e rows ih =>
    rw [List.mapM_cons, List.all_cons, ih, eventFromRow]
    by_cases he : 1 ≤ e.sequence
    · rw [if_pos he, isEvent, decide_eq_true he, Bool.true_and]
      split_ifs <;> rfl
    · rw [if_neg he, isEvent, decide_eq_false he, Bool.false_and]
      rfl

/-- A cursor stands before what is past it. -/
def Stands (d : Db) (invoiceId : Uuid) (after : Option InvoiceCursor) (l : List LedgerEvent) :
    Prop :=
  (∀ c ∈ after, c.invoiceId = invoiceId) ∧
    l = Keyset.rest oldestFirst (historyOf d invoiceId)
      (after.map fun c => toLex (c.createdAt, c.id))

/-- The keys of a history are distinct. -/
theorem nodup_oldestFirst (h : (d.ledger.map LedgerEvent.id).Nodup) (invoiceId : Uuid) :
    ((historyOf d invoiceId).map oldestFirst).Nodup := by
  refine List.Nodup.of_map (fun k => (ofLex k).2) ?_
  rw [List.map_map]
  exact (List.filter_sublist.map LedgerEvent.id).nodup h

/-- The page of a history after a cursor. -/
theorem forInvoice_eq (h : (d.ledger.map LedgerEvent.id).Nodup) (ht : isTraceId traceId)
    (h₁ : 1 ≤ limit) (h₂ : limit ≤ 200) {after : Option InvoiceCursor} {l : List LedgerEvent}
    (hstands : Stands d invoiceId after l) :
    forInvoice (.ok d) invoiceId traceId limit after =
      if (l.take (limit + 1)).all isEvent then
        .ok (l.take limit, if limit < l.length then
          (l.take limit).getLast?.map fun e => ⟨invoiceId, e.createdAt, e.id⟩ else none)
      else .error (.chained .ledgerStorageError "Ledger history could not be read"
        (.new .validationError "LedgerEvent")) := by
  obtain ⟨hscope, rfl⟩ := hstands
  have hnodup := nodup_oldestFirst h invoiceId
  obtain ⟨hpage, hmore⟩ := Keyset.select_succ hnodup
    (after.map fun c => toLex (c.createdAt, c.id)) limit
  have hscope' : ¬(after.any fun cursor => cursor.invoiceId ≠ invoiceId) = true := by
    cases after with
    | none => simp
    | some c => simp [hscope c rfl]
  have hread : readHistory (.ok d) invoiceId after (limit + 1) =
      if (selectHistory d invoiceId after (limit + 1)).all isEvent then
        .ok (selectHistory d invoiceId after (limit + 1))
      else .error (.chained .ledgerStorageError "Ledger history could not be read"
        (.new .validationError "LedgerEvent")) := by
    unfold readHistory
    simp only [Except.bind, mapM_eventFromRow_eq]
    split_ifs <;> rfl
  rw [forInvoice, if_neg (by simp [ht, h₁, h₂]), if_neg hscope', hread, ← Keyset.select_eq hnodup]
  change (if (selectHistory d invoiceId after (limit + 1)).all isEvent then _ else _) >>= _ =
    if (selectHistory d invoiceId after (limit + 1)).all isEvent then _ else _
  by_cases hall : (selectHistory d invoiceId after (limit + 1)).all isEvent
  · rw [if_pos hall, if_pos hall]
    simp only [bind, Except.bind, pure, Except.pure]
    unfold selectHistory
    rw [← historyOf, hpage]
    simp only [hmore]
  · rw [if_neg hall, if_neg hall]
    rfl

/-- Following the cursors of an invoice's history reads the pages of it. -/
theorem pages (h : (d.ledger.map LedgerEvent.id).Nodup) (ht : isTraceId traceId) (h₁ : 1 ≤ limit)
    (h₂ : limit ≤ 200) :
    Keyset.Pages (forInvoice (.ok d) invoiceId traceId limit) limit
      (fun e => isEvent e) (fun e => e.cls = .ledgerStorageError) (Stands d invoiceId) where
  limit_pos := h₁
  error := by
    intro after l e hstands hread
    rw [forInvoice_eq h ht h₁ h₂ hstands] at hread
    split_ifs at hread with hall
    obtain rfl := Except.error.inj hread
    obtain ⟨a, ha, hinvalid⟩ := List.all_eq_false.mp (Bool.eq_false_iff.mpr hall)
    exact ⟨rfl, a, List.mem_of_mem_take ha, hinvalid⟩
  valid := by
    intro after l items next hstands hread
    rw [forInvoice_eq h ht h₁ h₂ hstands] at hread
    split_ifs at hread with hall
    all_goals
      obtain ⟨rfl, -⟩ := Prod.mk.inj (Except.ok.inj hread)
      refine ⟨rfl, fun a ha => List.all_eq_true.mp hall a ?_⟩
      exact (List.take_subset_take_left l (Nat.le_succ limit)) ha
  last := by
    intro after l items hstands hread
    rw [forInvoice_eq h ht h₁ h₂ hstands] at hread
    split_ifs at hread with hall hlong
    · obtain ⟨last, hlast⟩ := Keyset.exists_getLast h₁ hlong
      rw [hlast] at hread
      cases hread
    · exact Nat.not_lt.mp hlong
  more := by
    intro after l items next hstands hread
    rw [forInvoice_eq h ht h₁ h₂ hstands] at hread
    split_ifs at hread with hall hlong
    · obtain ⟨last, hlast⟩ := Keyset.exists_getLast h₁ hlong
      rw [hlast] at hread
      obtain rfl := Option.some.inj (Prod.mk.inj (Except.ok.inj hread)).2
      obtain ⟨-, rfl⟩ := hstands
      refine ⟨hlong, fun c hc => ?_,
        (Keyset.rest_last (nodup_oldestFirst h invoiceId) hlast).symm⟩
      obtain rfl := Option.some.inj hc
      rfl
    · cases (Prod.mk.inj (Except.ok.inj hread)).2

end LedgerReader

/-! ## Pages of the queue -/

namespace PostgresInvoiceReader

variable {host : CursorHost} {queue : List InvoiceSummary} {query : InvoiceListQuery}

/-- The text of a cursor stands before what is past the row it was made of. -/
def Stands (queue : List InvoiceSummary) (query : InvoiceListQuery) (l : List InvoiceSummary) :
    Option String → Prop
  | none => l = Keyset.rest InvoiceSummary.newestFirst (queue.filter query.matches) none
  | some value => ∃ row : InvoiceSummary, value = encodeCursor row.createdAt row.id ∧
    l = Keyset.rest InvoiceSummary.newestFirst (queue.filter query.matches) (some row.newestFirst)

/-- The keys of a filtered queue are distinct. -/
theorem nodup_newestFirst (h : (queue.map InvoiceSummary.id).Nodup) (query : InvoiceListQuery) :
    ((queue.filter query.matches).map InvoiceSummary.newestFirst).Nodup := by
  refine List.Nodup.of_map (fun k => (ofLex (OrderDual.ofDual k)).2) ?_
  rw [List.map_map]
  exact (List.filter_sublist.map InvoiceSummary.id).nodup h

/-- What a cursor stands before, by the time and the id that are read from it. -/
theorem Stands.decode {cursor : Option String} {l : List InvoiceSummary}
    (h : Stands queue query l cursor) (host : CursorHost) :
    (cursor.any fun value => 200 < value.length) = false ∧
      ∃ after, decodeAfter host cursor = .ok after ∧
        l = Keyset.rest InvoiceSummary.newestFirst (queue.filter query.matches)
          (after.map fun c => OrderDual.toDual (toLex (c.1.val.instant, c.2))) := by
  cases cursor with
  | none => exact ⟨rfl, none, rfl, h⟩
  | some value =>
    obtain ⟨row, rfl, hl⟩ := h
    refine ⟨?_, some (row.createdAt, row.id), ?_, hl⟩
    · rw [Option.any_some, decide_eq_false_iff_not]
      exact Nat.not_lt.mpr (length_encodeCursor_le _ _)
    · rw [decodeAfter, decodeCursor_encodeCursor host row.createdAt row.id_lt]
      rfl

/-- The page of a queue after a cursor. -/
theorem list_eq (h : (queue.map InvoiceSummary.id).Nodup) {cursor : Option String}
    {l : List InvoiceSummary} (hstands : Stands queue query l cursor) :
    list host (.ok queue) query cursor =
      if (l.take query.limit).all InvoiceSummary.isValid then
        .ok (l.take query.limit, if query.limit < l.length then
          (l.take query.limit).getLast?.map fun item => encodeCursor item.createdAt item.id
          else none)
      else .error (.new invoiceReadUnavailable "Invoice queue contains invalid stored data") := by
  obtain ⟨hshort, after, hafter, rfl⟩ := hstands.decode host
  obtain ⟨hpage, hmore⟩ := Keyset.select_succ (nodup_newestFirst h query)
    (after.map fun c => OrderDual.toDual (toLex (c.1.val.instant, c.2))) query.limit
  have hnext : ∀ item : Option InvoiceSummary,
      ((item.map fun item => encodeCursor item.createdAt item.id).any fun value =>
        200 < value.length) = false := by
    intro item
    cases item with
    | none => rfl
    | some item =>
      rw [Option.map_some, Option.any_some, decide_eq_false_iff_not]
      exact Nat.not_lt.mpr (length_encodeCursor_le _ _)
  rw [list, if_neg (by rw [hshort]; exact Bool.false_ne_true), hafter]
  simp only [bind, Except.bind, selectQueue, hpage, hmore]
  split_ifs with hall hlong hlarge hlarge
  · rw [hnext] at hlarge
    cases hlarge
  · rfl
  · cases hlarge
  · rfl
  · rfl

/-- Following the cursors of the queue reads the pages of the rows that match. -/
theorem pages (host : CursorHost) (h : (queue.map InvoiceSummary.id).Nodup)
    (query : InvoiceListQuery) :
    Keyset.Pages (list host (.ok queue) query) query.limit (fun row => row.isValid)
      (fun e => e.cls = invoiceReadUnavailable) (fun after l => Stands queue query l after) where
  limit_pos := query.limit_valid.1
  error := by
    intro after l e hstands hread
    rw [list_eq h hstands] at hread
    split_ifs at hread with hall
    obtain rfl := Except.error.inj hread
    obtain ⟨a, ha, hinvalid⟩ := List.all_eq_false.mp (Bool.eq_false_iff.mpr hall)
    exact ⟨rfl, a, List.mem_of_mem_take ha, hinvalid⟩
  valid := by
    intro after l items next hstands hread
    rw [list_eq h hstands] at hread
    split_ifs at hread with hall
    all_goals
      obtain ⟨rfl, -⟩ := Prod.mk.inj (Except.ok.inj hread)
      exact ⟨rfl, fun a ha => List.all_eq_true.mp hall a ha⟩
  last := by
    intro after l items hstands hread
    rw [list_eq h hstands] at hread
    split_ifs at hread with hall hlong
    · obtain ⟨last, hlast⟩ := Keyset.exists_getLast query.limit_valid.1 hlong
      rw [hlast] at hread
      cases hread
    · exact Nat.not_lt.mp hlong
  more := by
    intro after l items next hstands hread
    rw [list_eq h hstands] at hread
    split_ifs at hread with hall hlong
    · obtain ⟨last, hlast⟩ := Keyset.exists_getLast query.limit_valid.1 hlong
      rw [hlast] at hread
      obtain rfl := Option.some.inj (Prod.mk.inj (Except.ok.inj hread)).2
      obtain ⟨-, after, -, rfl⟩ := hstands.decode host
      exact ⟨hlong, last, rfl, (Keyset.rest_last (nodup_newestFirst h query) hlast).symm⟩
    · cases (Prod.mk.inj (Except.ok.inj hread)).2

end PostgresInvoiceReader

/-- Following the cursors of an invoice's history, and of the queue under any filters, ends after
no more pages than there are rows and one. It gives all the rows in order, or stops at a row whose
data are not valid. A cursor is read back as the time and the id of its row, and every other text is
an invalid cursor. -/
theorem keyset_pages_exact (host : CursorHost) :
    (∀ (d : Db) (invoiceId : Uuid) (traceId : String) (limit : ℕ),
      (d.ledger.map LedgerEvent.id).Nodup → isTraceId traceId → 1 ≤ limit → limit ≤ 200 →
      ∃ out, (∀ n, (LedgerReader.historyOf d invoiceId).length < n →
          Keyset.follow (LedgerReader.forInvoice (.ok d) invoiceId traceId limit) n none =
            some out) ∧
        Keyset.Complete (Keyset.sorted LedgerReader.oldestFirst
            (LedgerReader.historyOf d invoiceId)) limit
          (fun e => LedgerReader.isEvent e) (fun e => e.cls = .ledgerStorageError) out) ∧
    (∀ (queue : List InvoiceSummary) (query : InvoiceListQuery),
      (queue.map InvoiceSummary.id).Nodup →
      ∃ out, (∀ n, (queue.filter query.matches).length < n →
          Keyset.follow (PostgresInvoiceReader.list host (.ok queue) query) n none = some out) ∧
        Keyset.Complete (Keyset.sorted InvoiceSummary.newestFirst (queue.filter query.matches))
          query.limit (fun row => row.isValid)
          (fun e => e.cls = PostgresInvoiceReader.invoiceReadUnavailable) out) ∧
    (∀ row : InvoiceSummary,
      decodeCursor host (encodeCursor row.createdAt row.id) = .ok (row.createdAt, row.id)) ∧
    ∀ (value : String) (e : Exn), decodeCursor host value = .error e →
      e.cls = invalidInvoiceCursor := by
  refine ⟨fun d invoiceId traceId limit h ht h₁ h₂ => ?_, fun queue query h => ?_,
    fun row => decodeCursor_encodeCursor host row.createdAt row.id_lt,
    fun value e => decodeCursor_error host⟩
  · have hstart : LedgerReader.Stands d invoiceId none
        (Keyset.sorted LedgerReader.oldestFirst (LedgerReader.historyOf d invoiceId)) :=
      ⟨by simp, (Keyset.rest_none _).symm⟩
    obtain ⟨out, hout, hcomplete⟩ := (LedgerReader.pages h ht h₁ h₂).follow_eq hstart
    rw [(Keyset.sorted_perm _).length_eq] at hout
    exact ⟨out, hout, hcomplete⟩
  · have hstart : PostgresInvoiceReader.Stands queue query
        (Keyset.sorted InvoiceSummary.newestFirst (queue.filter query.matches)) none :=
      (Keyset.rest_none _).symm
    obtain ⟨out, hout, hcomplete⟩ := (PostgresInvoiceReader.pages host h query).follow_eq hstart
    rw [(Keyset.sorted_perm _).length_eq] at hout
    exact ⟨out, hout, hcomplete⟩

/-! ### Rows of one time -/

/-- It reads nothing that the reader does not write itself. -/
def CursorHost.sample : CursorHost :=
  ⟨fun _ => none, fun _ => none, fun _ => none⟩

theorem newYear_valid : DateTimeFields.Valid ⟨2026, 1, 1, 0, 0, 0, 0, 0⟩ := by
  decide

theorem lt_two_pow {id : ℕ} (h : id < 4) : id < 2 ^ 128 :=
  h.trans (by norm_num)

/-- One of some rows that are of one time. -/
def tiedRow (id : Fin 4) : InvoiceSummary where
  id := id.val
  runId := id.val
  status := .needsReview
  runStatus := .paused
  source := .upload
  contentType := .pdf
  vendorName := none
  invoiceNumber := none
  poNumber := none
  currency := some "EUR"
  totalAmount := none
  exceptionId := none
  exceptionType := none
  exceptionPriority := none
  exceptionSlaDueAt := none
  createdAt := ⟨_, newYear_valid⟩
  id_lt := lt_two_pow id.isLt

/-- Three of them, out of order. -/
def tiedQueue : List InvoiceSummary :=
  [tiedRow 2, tiedRow 1, tiedRow 3]

theorem unfiltered_minPriority : ∀ n ∈ (none : Option ℤ), 0 ≤ n ∧ n ≤ 3 := by
  simp

/-- Two rows a page. -/
def unfiltered : InvoiceListQuery :=
  ⟨none, none, none, false, none, 2, unfiltered_minPriority, by decide⟩

/-- Three events of one time. -/
def tiedDb : Db :=
  { Db.empty with ledger := [(⟨samplePins, 12, 0⟩ : LedgerWriter).stamp sampleCommand 1,
      (⟨samplePins, 11, 0⟩ : LedgerWriter).stamp sampleCommand 2,
      (⟨samplePins, 10, 0⟩ : LedgerWriter).stamp sampleCommand 3] }

/-- Three rows of one time are read by their ids, two on the first page and one on the next. -/
theorem keyset_pages_exact_ties :
    ((Keyset.sorted LedgerReader.oldestFirst (LedgerReader.historyOf tiedDb 3)).map
      LedgerEvent.id = [10, 11, 12] ∧
    ∃ out, Keyset.follow (LedgerReader.forInvoice (.ok tiedDb) 3 sampleTrace 2) 4 none = some out ∧
      Keyset.Complete (Keyset.sorted LedgerReader.oldestFirst (LedgerReader.historyOf tiedDb 3)) 2
        (fun e => LedgerReader.isEvent e) (fun e => e.cls = .ledgerStorageError) out) ∧
    (Keyset.sorted InvoiceSummary.newestFirst (tiedQueue.filter unfiltered.matches)).map
      InvoiceSummary.id = [3, 2, 1] ∧
    ∃ out, Keyset.follow (PostgresInvoiceReader.list .sample (.ok tiedQueue) unfiltered) 4 none =
        some out ∧
      Keyset.Complete (Keyset.sorted InvoiceSummary.newestFirst
          (tiedQueue.filter unfiltered.matches)) 2 (fun row => row.isValid)
        (fun e => e.cls = PostgresInvoiceReader.invoiceReadUnavailable) out := by
  obtain ⟨hledger, hqueue, -⟩ := keyset_pages_exact .sample
  obtain ⟨events, hevents, hcomplete⟩ := hledger tiedDb 3 sampleTrace 2 (by decide) (by decide)
    (by decide) (by decide)
  obtain ⟨rows, hrows, hcomplete'⟩ := hqueue tiedQueue unfiltered (by decide)
  exact ⟨⟨by decide, events, hevents 4 (by decide), hcomplete⟩, by decide, rows,
    hrows 4 (by decide), hcomplete'⟩

end InvoiceOps
