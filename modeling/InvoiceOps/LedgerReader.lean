import InvoiceOps.Ledger
import InvoiceOps.Trace
import Mathlib.Data.List.Induction
import Mathlib.Data.List.Sort

/-!
# Reading a run's ledger

`LedgerReader.forRun` reads one page of a run's events after a cursor. `Export` follows the
cursors from the start, one page at a time, while any number of callers append ; each page
sees what is committed when it is read. `collectAuditRun` is the client's loop over the pages a
server answers with, which it does not trust.

A run's committed events have the sequences `1..n` in the order of their commits
(`LedgerInv`), so a page after the cursor `k` is the next stretch of that list, and nothing
can be committed behind a cursor.
-/

open Shared ReadCommitted

namespace InvoiceOps

/-! ## The reader -/

/-- Where a page of a run's history ends. -/
structure RunCursor where
  runId : Uuid
  sequence : ℤ
  deriving DecidableEq, Repr

/-- A page of a run's history. -/
structure RunPage where
  events : List LedgerEvent
  nextCursor : Option RunCursor
  deriving DecidableEq, Repr

namespace LedgerReader

/-- `_event_from_row`. -/
def eventFromRow (row : LedgerEvent) : Except Exn LedgerEvent :=
  if 1 ≤ row.sequence then .ok row else .error (.new .validationError "LedgerEvent")

/-- `WHERE run_id = %s AND sequence > %s ORDER BY sequence ASC LIMIT %s`. -/
def selectPage (d : Db) (runId : Uuid) (after : ℤ) (limit : ℕ) : List LedgerEvent :=
  (((d.eventsOf runId).filter fun e => after < e.sequence).insertionSort
    fun a b => a.sequence ≤ b.sequence).take limit

/-- `_read`. The statement has a view of the database or fails. -/
def read (view : Except Exn Db) (runId : Uuid) (after : ℤ) (limit : ℕ) :
    Except Exn (List LedgerEvent) :=
  match view.bind fun d => (selectPage d runId after limit).mapM eventFromRow with
  | .ok events => .ok events
  | .error error =>
    if error.isInstance .psycopgError ∨ error.isInstance .validationError then
      .error (.chained .ledgerStorageError "Ledger history could not be read" error)
    else .error error

/-- `for_run`. -/
def forRun (view : Except Exn Db) (runId : Uuid) (traceId : String) (limit : ℕ)
    (after : Option RunCursor) : Except Exn RunPage :=
  if ¬(isTraceId traceId ∧ 1 ≤ limit ∧ limit ≤ 200) then
    .error (.new .validationError "ReadQuery")
  else if after.any fun cursor => cursor.runId ≠ runId then
    .error (.new .ledgerCursorMismatch "Cursor belongs to another run")
  else do
    let rows ← read view runId (after.elim 0 RunCursor.sequence) (limit + 1)
    let events := rows.take limit
    return ⟨events,
      if limit < rows.length then events.getLast?.map fun e => ⟨runId, e.sequence⟩ else none⟩

end LedgerReader

/-! ## An export next to the callers -/

/-- A reader that follows a run's cursors from the start. -/
structure Export where
  cursor : Option RunCursor
  events : List LedgerEvent
  complete : Bool
  deriving DecidableEq, Repr

/-- What one page adds. A page that fails leaves the export where it was. -/
def Export.turn (x : Export) : Except Exn RunPage → Export
  | .error _ => x
  | .ok page =>
    if x.complete then x else ⟨page.nextCursor, x.events ++ page.events, page.nextCursor.isNone⟩

/-- The callers of the ledger and an export of one of its runs. -/
structure Export.State (ι A : Type) where
  callers : Config ι (Server ι Db Write Lock) A Exn Unit Caller
  reader : Export

namespace Export

section

variable {ι A : Type} [DecidableEq ι]

/-- What is committed. -/
def State.db (s : State ι A) : Db :=
  s.callers.store.db

/-- An event of the callers, or a page read by the export, of any size. -/
inductive Act (ι A : Type) where
  | callers (e : Event ι A Caller)
  | page (limit : ℕ) (failure : Option Exn)

variable (runId : Uuid) (traceId : String)

/-- The page the export reads next. -/
def State.page (s : State ι A) (limit : ℕ) (failure : Option Exn) : Except Exn RunPage :=
  LedgerReader.forRun (failure.elim (.ok s.db) .error) runId traceId limit s.reader.cursor

/-- The state after an event or a page. -/
def step (s : State ι A) : Act ι A → State ι A
  | .callers e => { s with callers := (InvoiceOps.callers.next s.callers e).getD s.callers }
  | .page limit failure =>
    { s with reader := s.reader.turn (s.page runId traceId limit failure) }

/-- No caller has begun, and no page has been read. -/
def start (d : Db) : State ι A :=
  ⟨System.initial (Server.start d), ⟨none, [], false⟩⟩

end

end Export

/-! ## Pages of a numbered list -/

section

variable {α : Type} {f : α → ℤ}

/-- The numbers from one are their own positions. -/
theorem getElem?_oneTo {n i : ℕ} (h : i < n) : (oneTo n)[i]? = some ((i : ℤ) + 1) := by
  simp [oneTo, h]

/-- They increase. -/
theorem pairwise_oneTo (n : ℕ) : (oneTo n).Pairwise (· < ·) := by
  rw [oneTo, List.pairwise_map]
  exact List.pairwise_lt_range.imp fun h => by omega

/-- So do events that are numbered so. -/
theorem pairwise_of_oneTo {l : List α} {n : ℕ} (h : l.map f = oneTo n) :
    l.Pairwise fun a b => f a < f b := by
  rw [← List.pairwise_map, h]
  exact pairwise_oneTo n

/-- The members of a numbered list after the number `k` are those after its first `k`. -/
theorem filter_of_oneTo {l : List α} (h : l.map f = oneTo l.length) (k : ℕ) :
    (l.filter fun a => (k : ℤ) < f a) = l.drop k := by
  induction l using List.reverseRecOn with
  | nil => simp
  | append_singleton l a ih =>
    rw [List.length_append, List.length_singleton, oneTo_succ, List.map_append] at h
    obtain ⟨hl, ha⟩ := List.append_inj' h rfl
    have hfa : f a = l.length + 1 := by simpa using ha
    rw [List.filter_append, ih hl, List.drop_append]
    congr 1
    rcases Nat.lt_or_ge l.length k with hlt | hge
    · have hk : ¬(k : ℤ) < f a := by omega
      have hpos : k - l.length = (k - l.length - 1) + 1 := by omega
      rw [List.filter_singleton, hpos]
      simp [hk]
    · have hk : (k : ℤ) < f a := by omega
      rw [List.filter_singleton, Nat.sub_eq_zero_of_le hge]
      simp [hk]

/-- The last number of a page that is not the last page. -/
theorem getLast?_page {l : List α} (h : l.map f = oneTo l.length) {k limit : ℕ}
    (hlimit : 1 ≤ limit) (hk : k + limit < l.length) :
    ((l.drop k).take limit).getLast?.map f = some ((k + limit : ℕ) : ℤ) := by
  have hlen : ((l.drop k).take limit).length = limit := by
    rw [List.length_take, List.length_drop]
    omega
  have hlast : (l.map f)[k + (limit - 1)]? = some ((k + (limit - 1) : ℕ) + 1) := by
    rw [h]
    exact getElem?_oneTo (by omega)
  rw [List.getLast?_eq_getElem?, hlen, List.getElem?_take_of_lt (by omega), List.getElem?_drop,
    ← List.getElem?_map, hlast]
  exact congrArg some (by omega)

end

namespace LedgerReader

variable {d : Db} {runId : Uuid} {traceId : String}

/-- Every row of the ledger is an event. -/
theorem mapM_eventFromRow {rows : List LedgerEvent} (h : ∀ e ∈ rows, 1 ≤ e.sequence) :
    rows.mapM eventFromRow = .ok rows := by
  induction rows with
  | nil => rfl
  | cons e rows ih =>
    have he : eventFromRow e = .ok e := if_pos (h e List.mem_cons_self)
    rw [List.mapM_cons, he, ih fun x hx => h x (List.mem_cons_of_mem e hx)]
    rfl

/-- A page is a piece of the events of the run. -/
theorem selectPage_eq (h : LedgerInv d) (k limit : ℕ) :
    selectPage d runId k limit = ((d.eventsOf runId).drop k).take limit := by
  have hseq := h.sequences runId
  have hsorted : ((d.eventsOf runId).drop k).Pairwise fun a b => a.sequence ≤ b.sequence :=
    ((pairwise_of_oneTo hseq).imp fun hlt => hlt.le).sublist (List.drop_sublist k _)
  rw [selectPage, filter_of_oneTo hseq, List.Pairwise.insertionSort_eq hsorted]

/-- The page after the first `k` events is the next `limit` of them, with a cursor if there are
more. -/
theorem forRun_eq (h : LedgerInv d) (ht : isTraceId traceId) {limit : ℕ} (h₁ : 1 ≤ limit)
    (h₂ : limit ≤ 200) {after : Option RunCursor} (hrun : ∀ c, after = some c → c.runId = runId)
    {k : ℕ} (hk : after.elim 0 RunCursor.sequence = k) :
    forRun (.ok d) runId traceId limit after = .ok ⟨((d.eventsOf runId).drop k).take limit,
      if k + limit < (d.eventsOf runId).length then some ⟨runId, (k + limit : ℕ)⟩ else none⟩ := by
  have hseq := h.sequences runId
  have hscope : ¬(after.any fun cursor => cursor.runId ≠ runId) = true := by
    cases after with
    | none => simp
    | some c => simp [hrun c rfl]
  have hpos : ∀ e ∈ ((d.eventsOf runId).drop k).take (limit + 1), 1 ≤ e.sequence := by
    intro e he
    have hmem := List.mem_of_mem_drop (List.mem_of_mem_take he)
    have hs : e.sequence ∈ oneTo (d.eventsOf runId).length := by
      rw [← hseq]
      exact List.mem_map_of_mem hmem
    obtain ⟨i, -, hi⟩ := List.mem_map.mp hs
    omega
  have hread : read (.ok d) runId (after.elim 0 RunCursor.sequence) (limit + 1) =
      .ok (((d.eventsOf runId).drop k).take (limit + 1)) := by
    have hrows := mapM_eventFromRow hpos
    rw [← selectPage_eq h] at hrows
    simp only [read, hk, Except.bind, hrows]
    rw [selectPage_eq h]
  have hmore : limit < (((d.eventsOf runId).drop k).take (limit + 1)).length ↔
      k + limit < (d.eventsOf runId).length := by
    rw [List.length_take, List.length_drop]
    omega
  rw [forRun, if_neg (by simp [ht, h₁, h₂]), if_neg hscope, hread]
  simp only [bind, Except.bind, pure, Except.pure, hmore, List.take_take,
    Nat.min_eq_left (Nat.le_succ limit)]
  congr 2
  split
  · rename_i hlt
    have hlast := getLast?_page hseq h₁ hlt
    obtain ⟨e, he, hes⟩ := Option.map_eq_some_iff.mp hlast
    rw [he, ← hes]
    rfl
  · rfl

end LedgerReader

/-! ## What an export has read -/

/-- Committing only appends to a run's events. -/
theorem prefix_applyAll (runId : Uuid) (ws : List Write) (d : Db) :
    d.eventsOf runId <+: (schema.applyAll d ws).eventsOf runId := by
  induction ws generalizing d with
  | nil => exact List.prefix_refl _
  | cons w ws ih =>
    refine List.IsPrefix.trans ?_ (ih (d.apply w))
    cases w with
    | insertEvent e =>
      simp only [Db.apply, Db.eventsOf, List.filter_append]
      exact List.prefix_append _ _
    | _ => exact List.prefix_refl _

namespace Export

section

variable {ι A : Type} {runId : Uuid} {traceId : String}

/-- The callers keep to their protocol, and an export that is not complete stands after the
events its cursor counts. -/
structure Inv (runId : Uuid) (s : State ι A) : Prop where
  valid : System.Valid (operations (fun _ => 0) LedgerInv)
    (fun _ i entry out g => CallerWrote (entry.session i).wrote out (g.session i).wrote) s.callers
  read : s.reader.events <+: s.db.eventsOf runId
  scope : ∀ c, s.reader.cursor = some c → c.runId = runId
  cursor : s.reader.complete = false →
    s.reader.cursor.elim 0 RunCursor.sequence = s.reader.events.length

/-- The store is a ledger whatever the export does. -/
theorem Inv.ledger {s : State ι A} (h : Inv runId s) : LedgerInv s.db :=
  h.valid.1.2

/-- The rest of the run after what has been read. -/
theorem drop_of_prefix {l l' : List LedgerEvent} (h : l <+: l') : l ++ l'.drop l.length = l' := by
  obtain ⟨t, rfl⟩ := h
  rw [List.drop_left]

/-- The next page : the next `limit` events, and the end if there are no more. -/
theorem Inv.page {s : State ι A} (h : Inv runId s) (ht : isTraceId traceId)
    (hopen : s.reader.complete = false) {limit : ℕ} (h₁ : 1 ≤ limit) (h₂ : limit ≤ 200) :
    s.page runId traceId limit none =
      .ok ⟨((s.db.eventsOf runId).drop s.reader.events.length).take limit,
        if s.reader.events.length + limit < (s.db.eventsOf runId).length then
          some ⟨runId, (s.reader.events.length + limit : ℕ)⟩ else none⟩ :=
  LedgerReader.forRun_eq h.ledger ht h₁ h₂ h.scope (h.cursor hopen)

/-- The only pages there are. -/
theorem limit_of_page {s : State ι A} {limit : ℕ} {failure : Option Exn} {page : RunPage}
    (h : s.page runId traceId limit failure = .ok page) :
    failure = none ∧ isTraceId traceId ∧ 1 ≤ limit ∧ limit ≤ 200 := by
  unfold State.page LedgerReader.forRun at h
  split_ifs at h with hq
  refine ⟨?_, hq⟩
  obtain ⟨rows, hrows, -⟩ := bind_eq_ok.mp h
  cases failure with
  | none => rfl
  | some e =>
    simp only [LedgerReader.read, Option.elim_some, Except.bind] at hrows
    split_ifs at hrows

variable [DecidableEq ι]

/-- The invariant holds at the start. -/
theorem Inv.start {d : Db} (h₀ : LedgerInv d) : Inv runId (start d : State ι A) := by
  refine ⟨⟨inv_start h₀, fun i => idle_start d⟩, List.nil_prefix, ?_, fun _ => rfl⟩
  intro c hc
  cases hc

/-- Every act keeps it: an append of anyone, or a page of the export. -/
theorem Inv.step {s : State ι A} (h : Inv runId s) (a : Act ι A) :
    Inv runId (step runId traceId s a) := by
  cases a with
  | callers e =>
    simp only [Export.step]
    cases he : InvoiceOps.callers.next s.callers e with
    | none => exact h
    | some cfg =>
      refine ⟨h.valid.next callers_verified e he, ?_, h.scope, h.cursor⟩
      obtain hs | ⟨i, -, -, ws, hdb, -⟩ := h.valid.guar_next callers_verified e he
      · simpa only [State.db, Option.getD_some, hs] using h.read
      · simp only [State.db, Option.getD_some, hdb]
        exact h.read.trans (prefix_applyAll runId ws _)
  | page limit failure =>
    simp only [Export.step]
    cases hp : s.page runId traceId limit failure with
    | error e => exact h
    | ok page =>
      cases hc : s.reader.complete with
      | true =>
        have hturn : s.reader.turn (.ok page) = s.reader := by simp [turn, hc]
        rw [hturn]
        exact h
      | false =>
        obtain ⟨rfl, ht, h₁, h₂⟩ := limit_of_page hp
        rw [h.page ht hc h₁ h₂] at hp
        obtain rfl := Except.ok.inj hp
        have hdrop := drop_of_prefix h.read
        refine ⟨h.valid, ?_, fun c hcur => ?_, fun hopen => ?_⟩
        · have hpage := (List.prefix_append_right_inj s.reader.events).mpr
            (List.take_prefix limit ((s.db.eventsOf runId).drop s.reader.events.length))
          rw [hdrop] at hpage
          simp only [turn, hc, Bool.false_eq_true, if_false]
          exact hpage
        · simp only [turn, hc, Bool.false_eq_true, if_false] at hcur
          split_ifs at hcur
          cases hcur
          rfl
        · simp only [turn, hc, Bool.false_eq_true, if_false] at hopen ⊢
          split_ifs at hopen ⊢ with hlt
          · simp only [Option.elim_some, List.length_append, List.length_take, List.length_drop]
            omega
          · cases hopen

/-- So does every run. -/
theorem Inv.run {d : Db} (h₀ : LedgerInv d) (acts : List (Act ι A)) :
    Inv runId (Trace.run (Export.step runId traceId) (Export.start d) acts) :=
  Trace.Meets.inv (fun _ a h (_ : True) => h.step a) (Inv.start h₀)
    (Trace.Meets.of_forall fun _ _ => trivial)

end

end Export

/-! ## The client -/

/-- `AuditRunPage`, as the server answers with it. -/
structure AuditRunPage where
  runId : Uuid
  invoiceId : Uuid
  traceId : String
  status : RunStatus
  events : List LedgerEvent
  nextCursor : Option RunCursor
  deriving DecidableEq, Repr

/-- The document of an export. -/
structure AuditRun where
  runId : Uuid
  invoiceId : Uuid
  traceId : String
  status : RunStatus
  exportedAt : String
  events : List LedgerEvent
  deriving DecidableEq, Repr

/-- `Number.MAX_SAFE_INTEGER`, which bounds `z.number().int()`. -/
def maxSafeInteger : ℤ := 9007199254740991

/-- `z.number().int().min(1)`. -/
def isSequence (n : ℤ) : Bool :=
  1 ≤ n && n ≤ maxSafeInteger

/-- `auditRunPageSchema.parse`, of an answer that has the types of a page. -/
def AuditRunPage.parse (page : AuditRunPage) : Except String AuditRunPage :=
  if isTraceId page.traceId ∧ page.events.length ≤ 200 ∧
      (page.events.all fun e => isSequence e.sequence) ∧
      page.nextCursor.all fun c => isSequence c.sequence then
    .ok page
  else .error "ZodError"

/-- `fetchAuditRunPage`, on the answer of the server or the failure to get one. -/
def fetchAuditRunPage (answer : Except String AuditRunPage) : Except String AuditRunPage :=
  answer.bind AuditRunPage.parse

/-- The variables of the loop. -/
structure Collect where
  events : List LedgerEvent
  seen : List ℤ
  after : Option ℤ
  first : Option AuditRunPage

/-- How a turn of the loop ends. -/
inductive Collect.Turn where
  | again (s : Collect)
  | leave (s : Collect)

namespace Collect

variable (runId : Uuid)

/-- The loop over a page's events, from `previous`. -/
def checkEvents (page : AuditRunPage) : ℤ → List LedgerEvent → Except String Unit
  | _, [] => .ok ()
  | previous, event :: events =>
    if event.runId ≠ runId ∨ event.invoiceId ≠ page.invoiceId ∨ event.sequence ≤ previous then
      .error "Audit event sequence or scope is invalid."
    else checkEvents page event.sequence events

/-- The cursor of a page, for the next turn. -/
def advance (s : Collect) (page : AuditRunPage) : Except String Turn :=
  match page.nextCursor with
  | none => .ok (.leave s)
  | some cursor =>
    if cursor.runId ≠ runId ∨ cursor.sequence ∈ s.seen ∨
        some cursor.sequence ≠ page.events.getLast?.map LedgerEvent.sequence then
      .error "Audit pagination did not advance."
    else .ok (.again { s with
      seen := s.seen ++ [cursor.sequence], after := some cursor.sequence })

/-- One turn, on what `loadPage` returned or threw. -/
def turn (s : Collect) (loaded : Except String AuditRunPage) : Except String Turn := do
  let page ← loaded
  if page.runId ≠ runId ∨ s.first.any fun first =>
      page.invoiceId ≠ first.invoiceId ∨ page.traceId ≠ first.traceId then
    throw "Audit history changed scope during export."
  checkEvents runId page (s.after.getD 0) page.events
  advance runId
    { s with first := some (s.first.getD page), events := s.events ++ page.events } page

/-- The document, after the loop. -/
def document (exportedAt : String) (s : Collect) : Except String AuditRun :=
  match s.first with
  | none => .error "Audit history was not returned."
  | some first => .ok ⟨first.runId, first.invoiceId, first.traceId, first.status, exportedAt,
      s.events⟩

/-- The loop from `s`, on what each call of `loadPage` comes to : the cursors of the calls, and
how the loop ended, if the answers did not run out. -/
def loop (exportedAt : String) : Collect → List (Except String AuditRunPage) →
    List (Option ℤ) × Option (Except String AuditRun)
  | s, [] => ([s.after], none)
  | s, loaded :: rest =>
    match s.turn runId loaded with
    | .error e => ([s.after], some (.error e))
    | .ok (.leave s') => ([s.after], some (s'.document exportedAt))
    | .ok (.again s') => (s.after :: (loop exportedAt s' rest).1, (loop exportedAt s' rest).2)

end Collect

/-- `collectAuditRun` : the cursors it asked for, and the document it made. -/
def collectAuditRun (runId : Uuid) (exportedAt : String)
    (loaded : List (Except String AuditRunPage)) :
    List (Option ℤ) × Option (Except String AuditRun) :=
  Collect.loop runId exportedAt ⟨[], [], none, none⟩ loaded

namespace Collect

variable {runId : Uuid} {exportedAt : String}

/-- Events that pass the check are numbered upwards, past the cursor. -/
theorem checkEvents_ok {page : AuditRunPage} : ∀ {previous : ℤ} {events : List LedgerEvent},
    checkEvents runId page previous events = .ok () →
      (events.Pairwise fun a b => a.sequence < b.sequence) ∧
        ∀ e ∈ events, previous < e.sequence ∧ e.runId = runId ∧ e.invoiceId = page.invoiceId
  | _, [], _ => ⟨List.Pairwise.nil, fun _ he => absurd he List.not_mem_nil⟩
  | previous, event :: events, h => by
    unfold checkEvents at h
    split_ifs at h with hbad
    rw [not_or, not_or, not_not, not_not, not_le] at hbad
    obtain ⟨hrun, hinvoice, hlt⟩ := hbad
    obtain ⟨hpair, hall⟩ := checkEvents_ok h
    refine ⟨List.pairwise_cons.mpr ⟨fun e he => (hall e he).1, hpair⟩, fun e he => ?_⟩
    rcases List.mem_cons.mp he with rfl | he
    · exact ⟨hlt, hrun, hinvoice⟩
    · exact ⟨hlt.trans (hall e he).1, (hall e he).2⟩

/-- The loop has read `pages` : their events, in order, of the first page's invoice. -/
structure Collected (runId : Uuid) (s : Collect) (pages : List AuditRunPage) : Prop where
  events : s.events = pages.flatMap AuditRunPage.events
  sorted : s.events.Pairwise fun a b => a.sequence < b.sequence
  first : s.first = pages.head?
  scope : ∀ first, s.first = some first → first.runId = runId ∧
    ∀ e ∈ s.events, e.runId = runId ∧ e.invoiceId = first.invoiceId

/-- What the cursor of the next page has passed. -/
def Below (s : Collect) : Prop :=
  ∀ e ∈ s.events, e.sequence ≤ s.after.getD 0

/-- A page ends the collection or moves the cursor to its last event. -/
theorem advance_ok {s : Collect} {page : AuditRunPage} {t : Turn}
    (h : advance runId s page = .ok t) :
    page.nextCursor = none ∧ t = .leave s ∨ ∃ cursor last, page.nextCursor = some cursor ∧
      page.events.getLast? = some last ∧ cursor.sequence = last.sequence ∧
      t = .again { s with
        seen := s.seen ++ [cursor.sequence], after := some cursor.sequence } := by
  unfold advance at h
  cases hc : page.nextCursor with
  | none =>
    rw [hc] at h
    exact .inl ⟨rfl, (Except.ok.inj h).symm⟩
  | some cursor =>
    simp only [hc] at h
    split_ifs at h with hbad
    rw [not_or, not_or, not_not, not_not] at hbad
    obtain ⟨last, hlast, heq⟩ := Option.map_eq_some_iff.mp hbad.2.2.symm
    exact .inr ⟨cursor, last, rfl, hlast, heq.symm, (Except.ok.inj h).symm⟩

/-- A turn that does not throw has read one more page. -/
theorem turn_ok {s : Collect} {loaded : Except String AuditRunPage} {t : Turn}
    (h : s.turn runId loaded = .ok t) :
    ∃ page, loaded = .ok page ∧ page.runId = runId ∧
      (∀ first, s.first = some first → page.invoiceId = first.invoiceId) ∧
      checkEvents runId page (s.after.getD 0) page.events = .ok () ∧
      advance runId { s with first := some (s.first.getD page), events := s.events ++ page.events }
        page = .ok t := by
  obtain ⟨page, hpage, h⟩ := bind_eq_ok.mp h
  dsimp only at h
  split_ifs at h with hbad
  · cases h
  · rw [not_or, not_not] at hbad
    obtain ⟨u, hu, h⟩ := bind_eq_ok.mp h
    refine ⟨page, hpage, hbad.1, fun first hfirst => ?_, hu, h⟩
    by_contra hne
    simp [hfirst, hne] at hbad

/-- One more page. -/
theorem Collected.append {s : Collect} {pages : List AuditRunPage} {page : AuditRunPage}
    (h : s.Collected runId pages) (hbelow : s.Below) (hrun : page.runId = runId)
    (hinvoice : ∀ first, s.first = some first → page.invoiceId = first.invoiceId)
    (hevents : checkEvents runId page (s.after.getD 0) page.events = .ok ()) (seen : List ℤ)
    (after : Option ℤ) :
    Collected runId ⟨s.events ++ page.events, seen, after, some (s.first.getD page)⟩
      (pages ++ [page]) := by
  obtain ⟨hpair, hall⟩ := checkEvents_ok hevents
  refine ⟨by simp [h.events], ?_, ?_, ?_⟩
  · refine List.pairwise_append.mpr ⟨h.sorted, hpair, fun a ha b hb => ?_⟩
    have := hbelow a ha
    have := (hall b hb).1
    omega
  · have hfirst := h.first
    cases pages with
    | nil => simp_all
    | cons p pages => simp_all
  · intro first' hfirst
    obtain rfl := Option.some.inj hfirst
    cases hf : s.first with
    | none =>
      refine ⟨hrun, fun e he => ?_⟩
      have hnone : s.events = [] := by
        rw [h.events, List.head?_eq_none_iff.mp (h.first.symm.trans hf), List.flatMap_nil]
      simp only [hnone, List.nil_append] at he
      exact (hall e he).2
    | some first =>
      obtain ⟨hr, he'⟩ := h.scope first hf
      refine ⟨hr, fun e he => ?_⟩
      rcases List.mem_append.mp he with he | he
      · exact he' e he
      · exact ⟨(hall e he).2.1, (hall e he).2.2.trans (hinvoice first hf)⟩

/-- The next cursor is past the last one and past all that was read. -/
theorem turn_again {s s' : Collect} {loaded : Except String AuditRunPage} (hbelow : s.Below)
    (h : s.turn runId loaded = .ok (.again s')) :
    s.after.getD 0 < s'.after.getD 0 ∧ s'.Below ∧
      ∃ page cursor, loaded = .ok page ∧ page.nextCursor = some cursor ∧
        s'.after = some cursor.sequence := by
  obtain ⟨page, hpage, -, -, hevents, hadv⟩ := turn_ok h
  obtain ⟨-, ht⟩ | ⟨cursor, last, hc, hlast, hseq, ht⟩ := advance_ok hadv
  · cases ht
  · cases ht
    obtain ⟨hpair, hall⟩ := checkEvents_ok hevents
    have hmem := List.mem_of_getLast? hlast
    have hlt := (hall last hmem).1
    refine ⟨?_, fun e he => ?_, page, cursor, hpage, hc, rfl⟩
    · simp only [Option.getD_some]
      omega
    · simp only [Option.getD_some, hseq]
      rcases List.mem_append.mp he with he | he
      · have := hbelow e he
        omega
      · obtain ⟨init, hinit⟩ := List.getLast?_eq_some_iff.mp hlast
        rw [hinit] at hpair he
        rcases List.mem_append.mp he with he | he
        · exact ((List.pairwise_append.mp hpair).2.2 e he last (List.mem_singleton.mpr rfl)).le
        · rw [List.mem_singleton.mp he]

/-- Each request asks for what is past the one before. -/
theorem pairwise_requests : ∀ (loaded : List (Except String AuditRunPage)) {s : Collect},
    s.Below → ((loop runId exportedAt s loaded).1.Pairwise fun a b => a.getD 0 < b.getD 0) ∧
      ∀ r ∈ (loop runId exportedAt s loaded).1, s.after.getD 0 ≤ r.getD 0
  | [], s, _ => by simp [loop]
  | loaded :: rest, s, hbelow => by
    unfold loop
    cases ht : s.turn runId loaded with
    | error e => simp
    | ok t =>
      cases t with
      | leave s' => simp
      | again s' =>
        obtain ⟨hlt, hbelow', -⟩ := turn_again hbelow ht
        obtain ⟨hpair, hle⟩ := pairwise_requests rest hbelow'
        refine ⟨List.pairwise_cons.mpr ⟨fun r hr => hlt.trans_le (hle r hr), hpair⟩, ?_⟩
        intro r hr
        rcases List.mem_cons.mp hr with rfl | hr
        · exact le_rfl
        · exact hlt.le.trans (hle r hr)

/-- No page is asked for twice. -/
theorem nodup_requests (loaded : List (Except String AuditRunPage)) {s : Collect}
    (hbelow : s.Below) : (loop runId exportedAt s loaded).1.Nodup :=
  (pairwise_requests loaded hbelow).1.imp fun hlt heq => by
    rw [heq] at hlt
    exact lt_irrefl _ hlt

/-- A document is made of one page for each request. -/
theorem loop_ok : ∀ (loaded : List (Except String AuditRunPage)) {s : Collect}
    {pages : List AuditRunPage} {run : AuditRun}, s.Collected runId pages → s.Below →
    (loop runId exportedAt s loaded).2 = some (.ok run) →
    ∃ (more : List AuditRunPage) (last : Collect),
      loaded.take (loop runId exportedAt s loaded).1.length = more.map .ok ∧
      last.Collected runId (pages ++ more) ∧ last.document exportedAt = .ok run
  | [], s, pages, run, _, _, h => by simp [loop] at h
  | loaded :: rest, s, pages, run, hs, hbelow, h => by
    unfold loop at h ⊢
    cases ht : s.turn runId loaded with
    | error e => simp [ht] at h
    | ok t =>
      obtain ⟨page, hpage, hrun, hinvoice, hevents, hadv⟩ := turn_ok ht
      subst hpage
      obtain ⟨-, rfl⟩ | ⟨cursor, last, hc, hlast, hseq, rfl⟩ := advance_ok hadv
      · simp only [ht] at h
        exact ⟨[page], _, rfl, hs.append hbelow hrun hinvoice hevents _ _, Option.some.inj h⟩
      · simp only [ht] at h
        have hs' := hs.append hbelow hrun hinvoice hevents (s.seen ++ [cursor.sequence])
          (some cursor.sequence)
        obtain ⟨more, final, htake, hfinal, hdoc⟩ := loop_ok rest hs' (turn_again hbelow ht).2.1 h
        refine ⟨page :: more, final, ?_, ?_, hdoc⟩
        · simp only [List.length_cons, List.take_succ_cons, List.map_cons, htake]
        · rwa [List.append_assoc] at hfinal

/-- On parsed pages the loop ends : the cursors grow, and are bounded. -/
theorem loop_ends (answers : ℕ → Except String AuditRunPage) {s : Collect} (hbelow : s.Below) :
    ∃ n requested out, loop runId exportedAt s
        ((List.range n).map fun k => fetchAuditRunPage (answers k)) = (requested, some out) ∧
      requested.length = n := by
  induction hm : (maxSafeInteger - s.after.getD 0).toNat using Nat.strong_induction_on
    generalizing s answers with
  | _ m ih =>
    cases ht : s.turn runId (fetchAuditRunPage (answers 0)) with
    | error e => exact ⟨1, [s.after], .error e, by simp [loop, ht], rfl⟩
    | ok t =>
      cases t with
      | leave s' => exact ⟨1, [s.after], s'.document exportedAt, by simp [loop, ht], rfl⟩
      | again s' =>
        obtain ⟨hlt, hbelow', page, cursor, hpage, hc, hafter⟩ := turn_again hbelow ht
        have hsafe : cursor.sequence ≤ maxSafeInteger := by
          obtain ⟨raw, -, hparse⟩ := bind_eq_ok.mp hpage
          unfold AuditRunPage.parse at hparse
          split_ifs at hparse with hvalid
          cases hparse
          have hcursor := hvalid.2.2.2
          rw [hc] at hcursor
          simp only [isSequence, Option.all_some, Bool.and_eq_true, decide_eq_true_eq] at hcursor
          exact hcursor.2
        have hdec : (maxSafeInteger - s'.after.getD 0).toNat < m := by
          rw [hafter] at hlt ⊢
          simp only [Option.getD_some] at hlt ⊢
          omega
        obtain ⟨n, requested, out, hloop, hn⟩ := ih _ hdec (fun k => answers (k + 1)) hbelow' rfl
        refine ⟨n + 1, s.after :: requested, out, ?_, congrArg (· + 1) hn⟩
        rw [List.range_succ_eq_map, List.map_cons, List.map_map, loop, ht]
        exact congrArg (fun r => (s.after :: r.1, r.2)) hloop

end Collect

/-- Whatever a server answers, the client throws or returns the events of the pages it read, in
increasing sequence, of one run and one invoice, and asks for no cursor twice. -/
theorem collectAuditRun_sound (runId : Uuid) (exportedAt : String)
    (answers : ℕ → Except String AuditRunPage) :
    ∃ n requested out, collectAuditRun runId exportedAt
        ((List.range n).map fun k => fetchAuditRunPage (answers k)) = (requested, some out) ∧
      requested.length = n ∧ requested.Nodup ∧ ∀ run, out = .ok run →
        (∃ pages : List AuditRunPage, ((List.range n).map fun k => fetchAuditRunPage (answers k)) =
          pages.map .ok ∧ run.events = pages.flatMap AuditRunPage.events) ∧
        (run.events.Pairwise fun a b => a.sequence < b.sequence) ∧ run.runId = runId ∧
        ∀ e ∈ run.events, e.runId = runId ∧ e.invoiceId = run.invoiceId := by
  have hbelow : Collect.Below ⟨[], [], none, none⟩ := fun e he => absurd he List.not_mem_nil
  have hstart : Collect.Collected runId ⟨[], [], none, none⟩ [] :=
    ⟨rfl, List.Pairwise.nil, rfl, fun first hfirst => absurd hfirst
      (Option.some_ne_none first).symm⟩
  obtain ⟨n, requested, out, hloop, hn⟩ :=
    @Collect.loop_ends runId exportedAt answers _ hbelow
  have hnodup := @Collect.nodup_requests runId exportedAt
    ((List.range n).map fun k => fetchAuditRunPage (answers k)) _ hbelow
  rw [hloop] at hnodup
  refine ⟨n, requested, out, hloop, hn, hnodup, fun run hout => ?_⟩
  subst hout
  obtain ⟨pages, last, htake, hlast, hdoc⟩ := Collect.loop_ok _ hstart hbelow (by rw [hloop])
  rw [hloop, hn, List.take_of_length_le (by simp)] at htake
  unfold Collect.document at hdoc
  cases hf : last.first with
  | none => simp [hf] at hdoc
  | some first =>
    simp only [hf] at hdoc
    obtain rfl := Except.ok.inj hdoc
    obtain ⟨hrun, hall⟩ := hlast.scope first hf
    exact ⟨⟨pages, htake, hlast.events⟩, hlast.sorted, hrun, hall⟩

namespace Export

variable {ι A : Type} [DecidableEq ι] {runId : Uuid} {traceId : String} {s : State ι A}

/-- The page that completes an export brings what is committed when it is read. -/
theorem Inv.complete (h : Inv runId s) {limit : ℕ} {failure : Option Exn}
    (hopen : s.reader.complete = false)
    (hdone : (Export.step runId traceId s (.page limit failure)).reader.complete = true) :
    (Export.step runId traceId s (.page limit failure)).reader.events = s.db.eventsOf runId := by
  simp only [Export.step] at hdone ⊢
  cases hp : s.page runId traceId limit failure with
  | error e => simp [hp, turn, hopen] at hdone
  | ok page =>
    obtain ⟨rfl, ht, h₁, h₂⟩ := limit_of_page hp
    rw [h.page ht hopen h₁ h₂] at hp
    obtain rfl := Except.ok.inj hp
    have hdrop := drop_of_prefix h.read
    rw [h.page ht hopen h₁ h₂] at hdone
    simp only [turn, hopen, Bool.false_eq_true, if_false, Option.isNone_iff_eq_none,
      ite_eq_right_iff, reduceCtorEq, imp_false, not_lt] at hdone ⊢
    rw [List.take_of_length_le (by rw [List.length_drop]; omega)]
    exact hdrop

/-- A page that does not complete the export is a full one. -/
theorem Inv.progress (h : Inv runId s) (ht : isTraceId traceId) {limit : ℕ} (h₁ : 1 ≤ limit)
    (h₂ : limit ≤ 200) (hopen : s.reader.complete = false)
    (hmore : (Export.step runId traceId s (.page limit none)).reader.complete = false) :
    (Export.step runId traceId s (.page limit none)).reader.events.length =
      s.reader.events.length + limit := by
  simp only [Export.step] at hmore ⊢
  rw [h.page ht hopen h₁ h₂] at hmore ⊢
  simp only [turn, hopen, Bool.false_eq_true, if_false] at hmore ⊢
  split_ifs at hmore with hlt
  · rw [List.length_append, List.length_take, List.length_drop]
    omega
  · cases hmore

/-- The first events of a run are numbered from one. -/
theorem sequences_of_prefix {d : Db} (h : LedgerInv d) {l : List LedgerEvent}
    (hl : l <+: d.eventsOf runId) : l.map LedgerEvent.sequence = oneTo l.length := by
  obtain ⟨t, ht⟩ := hl
  have hseq := h.sequences runId
  have hlen : (oneTo (d.eventsOf runId).length).take l.length = oneTo l.length := by
    rw [oneTo, ← List.map_take, List.take_range, ← ht]
    simp [oneTo]
  rw [← hlen, ← hseq, ← ht, List.map_append]
  simp

end Export

/-- From a ledger that keeps its invariant, with any callers appending in between, what an export
has read is at any time the run's events `1..m` ; the page that completes it, of any size, brings
it to all the events committed when that page is read, every other page adds as many events as
were asked for, and a complete export stays as it is. The client's own loop is sound for any
answers. -/
theorem ledger_export_complete {ι A : Type} [DecidableEq ι] {d : Db} (h₀ : LedgerInv d)
    (runId : Uuid) {traceId : String} (ht : isTraceId traceId) :
    (∀ acts : List (Export.Act ι A),
      let s := Trace.run (Export.step runId traceId) (Export.start d) acts
      s.reader.events.map LedgerEvent.sequence = oneTo s.reader.events.length ∧
      s.reader.events <+: s.db.eventsOf runId ∧
      (∀ limit failure, s.reader.complete = false →
        (Export.step runId traceId s (.page limit failure)).reader.complete = true →
        (Export.step runId traceId s (.page limit failure)).reader.events =
          s.db.eventsOf runId) ∧
      (∀ limit, 1 ≤ limit → limit ≤ 200 → s.reader.complete = false →
        (Export.step runId traceId s (.page limit none)).reader.complete = true ∨
          (Export.step runId traceId s (.page limit none)).reader.events.length =
            s.reader.events.length + limit) ∧
      ∀ a, s.reader.complete = true → (Export.step runId traceId s a).reader = s.reader) ∧
    ∀ exportedAt (answers : ℕ → Except String AuditRunPage),
      ∃ n requested out, collectAuditRun runId exportedAt
          ((List.range n).map fun k => fetchAuditRunPage (answers k)) = (requested, some out) ∧
        requested.length = n ∧ requested.Nodup ∧ ∀ run, out = .ok run →
          (∃ pages : List AuditRunPage,
            ((List.range n).map fun k => fetchAuditRunPage (answers k)) = pages.map .ok ∧
              run.events = pages.flatMap AuditRunPage.events) ∧
          (run.events.Pairwise fun a b => a.sequence < b.sequence) ∧ run.runId = runId ∧
          ∀ e ∈ run.events, e.runId = runId ∧ e.invoiceId = run.invoiceId := by
  refine ⟨fun acts => ?_, collectAuditRun_sound runId⟩
  intro s
  have hinv : Export.Inv runId s := Export.Inv.run h₀ acts
  refine ⟨Export.sequences_of_prefix hinv.ledger hinv.read, hinv.read,
    fun limit failure hopen hdone => hinv.complete hopen hdone, fun limit h₁ h₂ hopen => ?_,
    fun a hdone => ?_⟩
  · cases hmore : (Export.step runId traceId s (.page limit none)).reader.complete with
    | true => exact .inl rfl
    | false => exact .inr (hinv.progress ht h₁ h₂ hopen hmore)
  · cases a with
    | callers e => rfl
    | page limit failure =>
      simp only [Export.step]
      cases s.page runId traceId limit failure with
      | error e => rfl
      | ok page => simp [Export.turn, hdone]

/-! ### An export of two pages -/

/-- Both callers of `sampleSchedule`, then a page of one event. -/
def sampleExport : List (Export.Act ℕ Empty) :=
  sampleSchedule.map Export.Act.callers ++ [Export.Act.page 1 none]

set_option maxRecDepth 20000 in
/-- The reader's pages of the sample. -/
theorem sampleExport_reader :
    let s := Trace.run (Export.step 7 sampleTrace)
      (Export.start { Db.empty with runs := [sampleRun] }) sampleExport
    s.reader.cursor = some ⟨7, 1⟩ ∧ s.reader.complete = false ∧
      (Export.step 7 sampleTrace s (.page 1 none)).reader.complete = true := by
  decide +kernel

/-- The sample is exported whole. -/
theorem ledger_export_complete_sampleExport :
    let s := Trace.run (Export.step 7 sampleTrace)
      (Export.start { Db.empty with runs := [sampleRun] }) sampleExport
    s.reader.events.map LedgerEvent.sequence = oneTo s.reader.events.length ∧
      (Export.step 7 sampleTrace s (.page 1 none)).reader.events = s.db.eventsOf 7 := by
  intro s
  obtain ⟨-, hopen, hdone⟩ := sampleExport_reader
  have htrace : isTraceId sampleTrace := by decide
  have hcomplete := (ledger_export_complete ledgerInv_sampleRun 7 htrace).1 sampleExport
  exact ⟨hcomplete.1, hcomplete.2.2.1 1 none hopen hdone⟩

end InvoiceOps
