import InvoiceOps.Values
import InvoiceOps.Trace

/-!
# The run lock

`PostgresRunLock.acquire` holds a session-level advisory lock of Postgres over a guarded body.
The server counts how often a session took a lock and gives it back when the session ends ; the
client learns of it one answer at a time, and a failure or a cancellation may come at any await,
before the server acted or after. A `Connection` is one process with its session : the acquires
that wait for its local lock, the one that is inside with its stage, and what is on the wire
between the two. `RunLock` is all of them with the server's lock table, and an `Action` one
atomic step.

A stage says what the session holds (`Fits`) as long as its connection is open : where the client
cannot know it, it closes the connection. So at most one body of a run executes
(`one_body`), and an acquire that was inside leaves nothing behind (`left_nothing`).
-/

namespace InvoiceOps

/-! ## Connections -/

/-- Where the acquire inside stands. -/
inductive Stage where
  /-- `pg_try_advisory_lock` is awaited : `acquired` is `None`. -/
  | trying
  /-- The guarded body : `acquired` is `True`. -/
  | body
  /-- `pg_advisory_unlock` is awaited. -/
  | unlocking
  deriving DecidableEq, Repr

/-- What is on its way between the client and its session. -/
inductive Wire where
  | idle
  | tryLock (key : ℤ)
  | unlock (key : ℤ)
  | replied (ok : Bool)
  deriving DecidableEq, Repr

/-- What is known of a connection. -/
inductive ConnectionStatus where
  | «open»
  /-- The client closed it, the server has not seen it yet. -/
  | closing
  /-- The session ended. -/
  | ended
  deriving DecidableEq, Repr

/-- A call of `acquire`, by the task that made it. -/
structure Acquire where
  task : ℕ
  runId : Uuid
  deriving DecidableEq, Repr

/-- A connection of a process, and the tasks that use it. -/
structure Connection where
  status : ConnectionStatus
  wire : Wire
  waiting : List Acquire
  /-- The owner of the local lock. -/
  inside : Option (Acquire × Stage)
  deriving DecidableEq, Repr

namespace Connection

/-- An open connection nobody uses. -/
def fresh : Connection := ⟨.open, .idle, [], none⟩

/-- `execute` : the statement is sent, if the connection is open. -/
def execute (c : Connection) (statement : Wire) : Connection :=
  if c.status = .open then { c with wire := statement } else c

/-- `close`. -/
def close (c : Connection) : Connection :=
  if c.status = .open then { c with status := .closing } else c

/-- A statement that is sent does not change the status of a connection. -/
theorem execute_status (c : Connection) (w : Wire) :
    (c.execute w).status = c.status := by
  unfold execute
  split_ifs <;> rfl

/-- On an open connection it is what the wire has. -/
theorem execute_open {c : Connection} (h : c.status = .open) (w : Wire) :
    c.execute w = { c with wire := w } :=
  if_pos h

/-- A connection that is closed is not open, and ended only if it was before. -/
theorem close_status (c : Connection) :
    c.close.status ≠ .open ∧ (c.close.status = .ended → c.status = .ended) := by
  unfold close
  split_ifs with h
  · exact ⟨nofun, nofun⟩
  · exact ⟨h, id⟩

end Connection

/-! ## The system -/

/-- The processes with their connections, and the advisory locks : who holds a key, and how
often. -/
structure RunLock (P : Type) where
  connection : P → Connection
  table : ℤ → Option (P × ℕ)

namespace RunLock

variable {P : Type} [DecidableEq P] (lockKey : Uuid → ℤ)

/-- What can happen, in any order. -/
inductive Action (P : Type) where
  /-- A task calls `acquire` and waits for the local lock. -/
  | call (p : P) (a : Acquire)
  /-- The local lock is free and goes to a task that waits. -/
  | enter (p : P) (a : Acquire)
  /-- The server executes what is on the wire. -/
  | serve (p : P)
  /-- The client gets its answer. -/
  | receive (p : P)
  /-- The body returns, fails or is cancelled. -/
  | finish (p : P)
  /-- What the acquire inside awaits fails or is cancelled, or its answer is malformed. -/
  | fail (p : P)
  /-- An acquire is cancelled while it waits for the local lock. -/
  | cancel (p : P) (a : Acquire)
  /-- A session ends, and the server releases its locks. -/
  | endSession (p : P)

/-- No task has called, and no session holds a lock. -/
def start : RunLock P := ⟨fun _ => .fresh, fun _ => none⟩

/-- The state with the connection of a process replaced. -/
def set (s : RunLock P) (p : P) (c : Connection) : RunLock P :=
  { s with connection := Function.update s.connection p c }

/-- How often the session of `p` holds a key. -/
def count (s : RunLock P) (p : P) (key : ℤ) : ℕ :=
  match s.table key with
  | some (q, n) => if q = p then n else 0
  | none => 0

/-- `pg_try_advisory_lock` and `pg_advisory_unlock`, with the answer. -/
def serveTable (table : ℤ → Option (P × ℕ)) (p : P) : Wire → (ℤ → Option (P × ℕ)) × Bool
  | .tryLock key =>
    match table key with
    | none => (Function.update table key (some (p, 1)), true)
    | some (q, n) =>
      if q = p then (Function.update table key (some (p, n + 1)), true) else (table, false)
  | .unlock key =>
    match table key with
    | some (q, n + 1) =>
      if q = p then
        (Function.update table key (if n = 0 then none else some (p, n)), true)
      else (table, false)
    | _ => (table, false)
  | _ => (table, false)

/-- The context is left : the local lock is free again. -/
def leave (c : Connection) : Connection :=
  { c with inside := none, wire := if c.status = .open then .idle else c.wire }

/-- The state after an action ; one that is not possible changes nothing. -/
def step (s : RunLock P) : Action P → RunLock P
  | .call p a => s.set p { s.connection p with waiting := (s.connection p).waiting ++ [a] }
  | .enter p a =>
    let c := s.connection p
    if c.inside = none ∧ a ∈ c.waiting then
      s.set p (Connection.execute
        { c with waiting := c.waiting.erase a, inside := some (a, .trying) }
        (.tryLock (lockKey a.runId)))
    else s
  | .serve p =>
    let c := s.connection p
    match c.wire with
    | .idle | .replied _ => s
    | statement =>
      if c.status = .ended then s
      else
        let (table, ok) := serveTable s.table p statement
        ⟨Function.update s.connection p { c with wire := .replied ok }, table⟩
  | .receive p =>
    let c := s.connection p
    if c.status = .open then
      match c.inside, c.wire with
      | some (a, .trying), .replied true =>
        s.set p { c with inside := some (a, .body), wire := .idle }
      -- `RunInProgress` : nothing is released
      | some (_, .trying), .replied false => s.set p (leave c)
      | some (_, .unlocking), .replied _ => s.set p (leave c)
      | _, _ => s
    else s
  | .finish p =>
    let c := s.connection p
    match c.inside with
    | some (a, .body) =>
      s.set p (Connection.execute { c with inside := some (a, .unlocking) }
        (.unlock (lockKey a.runId)))
    | _ => s
  | .fail p =>
    let c := s.connection p
    match c.inside with
    | some (_, .trying) | some (_, .unlocking) => s.set p (leave c.close)
    | _ => s
  | .cancel p a => s.set p { s.connection p with waiting := (s.connection p).waiting.erase a }
  | .endSession p =>
    { connection := Function.update s.connection p
        { s.connection p with status := .ended, wire := .idle }
      table := fun key => (s.table key).filter fun h => h.1 ≠ p }

/-- The acquire an action takes out of its context, with the process. -/
def exits (s : RunLock P) (a : Action P) : Option (P × Acquire) :=
  match a with
  | .receive p | .fail p =>
    match (s.connection p).inside, ((s.step lockKey a).connection p).inside with
    | some (acquire, _), none => some (p, acquire)
    | _, _ => none
  | .cancel p acquire => if acquire ∈ (s.connection p).waiting then some (p, acquire) else none
  | _ => none

/-! ## What a session holds -/

/-- One key, held once. -/
def once (key : ℤ) : ℤ → ℕ :=
  fun k => if k = key then 1 else 0

/-- The stage of the acquire inside says what the session holds. -/
def Fits (c : Connection) (held : ℤ → ℕ) : Prop :=
  match c.inside, c.wire with
  | none, .idle => ∀ k, held k = 0
  | some (a, .trying), .tryLock key => key = lockKey a.runId ∧ ∀ k, held k = 0
  | some (a, .trying), .replied true => held = once (lockKey a.runId)
  | some (_, .trying), .replied false => ∀ k, held k = 0
  | some (a, .body), .idle => held = once (lockKey a.runId)
  | some (a, .unlocking), .unlock key => key = lockKey a.runId ∧ held = once key
  | some (_, .unlocking), .replied _ => ∀ k, held k = 0
  | _, _ => False

/-- Every open connection fits what its session holds, and a session that ended holds nothing. -/
structure Inv (s : RunLock P) : Prop where
  fits : ∀ p, (s.connection p).status = .open → Fits lockKey (s.connection p) (s.count p)
  ended : ∀ p, (s.connection p).status = .ended → ∀ k, s.count p k = 0

@[simp] theorem count_set (s : RunLock P) (p : P) (c : Connection) : (s.set p c).count = s.count :=
  rfl

@[simp] theorem set_connection (s : RunLock P) (p : P) (c : Connection) :
    (s.set p c).connection = Function.update s.connection p c :=
  rfl

/-- Two sessions do not hold one key. -/
theorem eq_of_count {s : RunLock P} {p q : P} {key : ℤ} (hp : s.count p key ≠ 0)
    (hq : s.count q key ≠ 0) : p = q := by
  unfold count at hp hq
  cases ht : s.table key with
  | none => simp [ht] at hp
  | some h =>
    simp only [ht, ne_eq, ite_eq_right_iff, Classical.not_imp] at hp hq
    exact hp.1.symm.trans hq.1

/-- A statement of one session changes nothing of another. -/
theorem count_serve_other (s : RunLock P) {p q : P} (hq : q ≠ p) (statement : Wire)
    (c : P → Connection) (k : ℤ) :
    count ⟨c, (serveTable s.table p statement).1⟩ q k = s.count q k := by
  cases statement with
  | tryLock key =>
    by_cases hk : k = key
    · subst hk
      cases ht : s.table k with
      | none => simp [serveTable, count, ht, hq.symm]
      | some h =>
        by_cases hh : h.1 = p
        · simp [serveTable, count, ht, hh, hq.symm]
        · simp [serveTable, count, ht, hh]
    · cases ht : s.table key with
      | none => simp [serveTable, count, ht, hk]
      | some h => by_cases hh : h.1 = p <;> simp [serveTable, count, ht, hh, hk]
  | unlock key =>
    by_cases hk : k = key
    · subst hk
      rcases ht : s.table k with _ | ⟨h, _ | n⟩
      · simp [serveTable, count, ht]
      · simp [serveTable, count, ht]
      · by_cases hh : h = p
        · by_cases hn : n = 0 <;> simp [serveTable, count, ht, hh, hn, hq.symm]
        · simp [serveTable, count, ht, hh]
    · rcases ht : s.table key with _ | ⟨h, _ | n⟩
      · simp [serveTable, count, ht]
      · simp [serveTable, count, ht]
      · by_cases hh : h = p <;> simp [serveTable, count, ht, hh, hk]
  | idle | replied => rfl

/-- An attempt that succeeds holds its key once more, one that fails changes nothing. -/
theorem count_tryLock (s : RunLock P) (p : P) (key : ℤ) (c : P → Connection) :
    (serveTable s.table p (.tryLock key)).2 = true ∧
        (∀ k, count ⟨c, (serveTable s.table p (.tryLock key)).1⟩ p k =
          s.count p k + once key k) ∨
      (serveTable s.table p (.tryLock key)) = (s.table, false) := by
  cases ht : s.table key with
  | none =>
    refine .inl ⟨by simp [serveTable, ht], fun k => ?_⟩
    by_cases hk : k = key
    · subst hk
      simp [serveTable, count, once, ht]
    · simp [serveTable, count, once, ht, hk]
  | some h =>
    by_cases hh : h.1 = p
    · refine .inl ⟨by simp [serveTable, ht, hh], fun k => ?_⟩
      by_cases hk : k = key
      · subst hk
        simp [serveTable, count, once, ht, hh]
      · simp [serveTable, count, once, ht, hh, hk]
    · exact .inr (by simp [serveTable, ht, hh])

/-- Giving back a key held once leaves none. -/
theorem count_unlock (s : RunLock P) (p : P) (key : ℤ) (c : P → Connection)
    (h : s.count p = once key) (k : ℤ) :
    count ⟨c, (serveTable s.table p (.unlock key)).1⟩ p k = 0 := by
  have hkey : s.count p key = 1 := by rw [h, once, if_pos rfl]
  have ht : s.table key = some (p, 1) := by
    unfold count at hkey
    cases ht : s.table key with
    | none => simp [ht] at hkey
    | some hd =>
      obtain ⟨q, n⟩ := hd
      by_cases hq : q = p
      · simp only [ht, hq, if_true] at hkey
        rw [hq, hkey]
      · simp [ht, hq] at hkey
  by_cases hk : k = key
  · subst hk
    simp [serveTable, count, ht]
  · have h0 : s.count p k = 0 := by rw [h, once, if_neg hk]
    simpa [serveTable, count, ht, hk] using h0

variable {lockKey}

/-- An action of one process leaves the others as they were. -/
theorem Inv.update {s : RunLock P} (h : Inv lockKey s) {p : P} {c : Connection}
    {table : ℤ → Option (P × ℕ)}
    (hother : ∀ q, q ≠ p → count ⟨Function.update s.connection p c, table⟩ q = s.count q)
    (hfits : c.status = .open →
      Fits lockKey c (count ⟨Function.update s.connection p c, table⟩ p))
    (hended : c.status = .ended → ∀ k, count ⟨Function.update s.connection p c, table⟩ p k = 0) :
    Inv lockKey ⟨Function.update s.connection p c, table⟩ := by
  constructor
  · intro q hq
    by_cases hqp : q = p
    · subst hqp
      simp only [Function.update_self] at hq ⊢
      exact hfits hq
    · simp only [Function.update_of_ne hqp] at hq ⊢
      rw [hother q hqp]
      exact h.fits q hq
  · intro q hq
    by_cases hqp : q = p
    · subst hqp
      simp only [Function.update_self] at hq
      exact hended hq
    · simp only [Function.update_of_ne hqp] at hq
      rw [hother q hqp]
      exact h.ended q hq

/-- An action of the client alone leaves the lock table as it was. -/
theorem Inv.set {s : RunLock P} (h : Inv lockKey s) {p : P} {c : Connection}
    (hstatus : c.status = .ended → (s.connection p).status = .ended)
    (hfits : c.status = .open → Fits lockKey c (s.count p)) : Inv lockKey (s.set p c) :=
  h.update (fun _ _ => rfl) hfits fun hc => h.ended p (hstatus hc)

/-- The server keeps the invariant, whichever statement it serves. -/
theorem Inv.serve {s : RunLock P} (h : Inv lockKey s) (p : P) :
    Inv lockKey (s.step lockKey (.serve p)) := by
  obtain hw | ⟨key, hw⟩ | ⟨key, hw⟩ : ((s.connection p).wire = .idle ∨
      ∃ ok, (s.connection p).wire = .replied ok) ∨
        (∃ key, (s.connection p).wire = .tryLock key) ∨
          ∃ key, (s.connection p).wire = .unlock key := by
    cases (s.connection p).wire <;> simp
  · obtain hw | ⟨ok, hw⟩ := hw <;> simpa [step, hw] using h
  all_goals
    by_cases hend : (s.connection p).status = .ended
    · simpa [step, hw, hend] using h
  · simp only [step, hw, hend, if_false]
    refine h.update (fun q hq => funext fun k => count_serve_other s hq _ _ k) (fun ho => ?_)
      (fun he => absurd he hend)
    have hf := h.fits p ho
    rcases hi : (s.connection p).inside with _ | ⟨a, _ | _ | _⟩
    all_goals simp only [Fits, hi, hw] at hf
    obtain ⟨rfl, h0⟩ := hf
    obtain ⟨hok, hc⟩ | hc := count_tryLock s p (lockKey a.runId) (Function.update s.connection p
      { s.connection p with
        wire := .replied (serveTable s.table p (.tryLock (lockKey a.runId))).2 })
    · simp only [Fits, hok]
      funext k
      have := hc k
      rw [h0 k, Nat.zero_add] at this
      rwa [hok] at this
    · simp only [Fits, hc]
      exact h0
  · simp only [step, hw, hend, if_false]
    refine h.update (fun q hq => funext fun k => count_serve_other s hq _ _ k) (fun ho => ?_)
      (fun he => absurd he hend)
    have hf := h.fits p ho
    rcases hi : (s.connection p).inside with _ | ⟨a, _ | _ | _⟩
    all_goals simp only [Fits, hi, hw] at hf
    obtain ⟨rfl, h1⟩ := hf
    simp only [Fits]
    exact count_unlock s p _ _ h1

variable (lockKey) in
/-- The locks of a session go with it, and no others. -/
theorem count_endSession (s : RunLock P) (p q : P) (k : ℤ) :
    (s.step lockKey (.endSession p)).count q k = if q = p then 0 else s.count q k := by
  rcases ht : s.table k with _ | ⟨h, n⟩
  · simp [step, count, ht]
  · by_cases hh : h = p
    · subst hh
      by_cases hq : q = h
      · simp [step, count, ht, hq, Option.filter]
      · simp [step, count, ht, hq, Ne.symm hq, Option.filter]
    · by_cases hq : q = p
      · subst hq
        simp [step, count, ht, hh, Option.filter]
      · simp [step, count, ht, hh, hq, Option.filter]

/-- An answer that comes in keeps it. -/
theorem Inv.receive {s : RunLock P} (h : Inv lockKey s) (p : P) :
    Inv lockKey (s.step lockKey (.receive p)) := by
  by_cases ho : (s.connection p).status = .open
  · have hf := h.fits p ho
    rcases hi : (s.connection p).inside with _ | ⟨a, _ | _ | _⟩ <;>
      rcases hw : (s.connection p).wire with _ | key | key | _ | _
    all_goals simp only [Fits, hi, hw] at hf
    all_goals simp only [step, hi, hw, ho, if_true]
    all_goals first
      | exact h
      | exact h.set nofun fun _ => hf
      | exact h.set (fun he => absurd (ho.symm.trans he) nofun) fun _ => by
          simpa [Fits, leave, ho] using hf
  · simpa [step, ho] using h

/-- So does a caller that enters. -/
theorem Inv.enter {s : RunLock P} (h : Inv lockKey s) (p : P) (a : Acquire) :
    Inv lockKey (s.step lockKey (.enter p a)) := by
  simp only [step]
  split_ifs with hc
  · refine h.set (fun he => by simpa [Connection.execute_status] using he) fun ho => ?_
    rw [Connection.execute_status] at ho
    rw [Connection.execute_open ho]
    have hf := h.fits p ho
    rcases hw : (s.connection p).wire with _ | key | key | _
    all_goals simp only [Fits, hc.1, hw] at hf
    exact ⟨rfl, hf⟩
  · exact h

/-- So does one that finishes. -/
theorem Inv.finish {s : RunLock P} (h : Inv lockKey s) (p : P) :
    Inv lockKey (s.step lockKey (.finish p)) := by
  rcases hi : (s.connection p).inside with _ | ⟨a, _ | _ | _⟩
  all_goals simp only [step, hi]
  · exact h
  · exact h
  · refine h.set (fun he => by simpa [Connection.execute_status] using he) fun ho => ?_
    rw [Connection.execute_status] at ho
    rw [Connection.execute_open ho]
    have hf := h.fits p ho
    rcases hw : (s.connection p).wire with _ | key | key | _
    all_goals simp only [Fits, hi, hw] at hf
    exact ⟨rfl, hf⟩
  · exact h

/-- So does one whose body fails. -/
theorem Inv.fail {s : RunLock P} (h : Inv lockKey s) (p : P) :
    Inv lockKey (s.step lockKey (.fail p)) := by
  have hclose := (s.connection p).close_status
  rcases hi : (s.connection p).inside with _ | ⟨a, _ | _ | _⟩
  all_goals simp only [step, hi]
  · exact h
  · exact h.set hclose.2 fun ho => absurd ho hclose.1
  · exact h
  · exact h.set hclose.2 fun ho => absurd ho hclose.1

/-- Every action keeps the invariant. -/
theorem Inv.step {s : RunLock P} (h : Inv lockKey s) (a : Action P) :
    Inv lockKey (s.step lockKey a) := by
  cases a with
  | call p a => exact h.set id (h.fits p)
  | enter p a => exact h.enter p a
  | serve p => exact h.serve p
  | receive p => exact h.receive p
  | finish p => exact h.finish p
  | fail p => exact h.fail p
  | cancel p a => exact h.set id (h.fits p)
  | endSession p =>
    refine h.update (fun q hq => funext fun k => ?_) nofun fun _ k => ?_
    · exact (count_endSession lockKey s p q k).trans (if_neg hq)
    · exact (count_endSession lockKey s p p k).trans (if_pos rfl)

/-- The invariant holds at the start. -/
theorem Inv.start : Inv lockKey (start : RunLock P) :=
  ⟨fun _ _ _ => rfl, fun _ _ _ => rfl⟩

/-! ## Mutual exclusion -/

/-- A body of an open connection holds the lock of its run. -/
theorem Inv.body_holds {s : RunLock P} (h : Inv lockKey s) {p : P} {a : Acquire}
    (ho : (s.connection p).status = .open) (hi : (s.connection p).inside = some (a, .body)) :
    s.count p (lockKey a.runId) = 1 := by
  have hf := h.fits p ho
  rcases hw : (s.connection p).wire with _ | key | key | _
  all_goals simp only [Fits, hi, hw] at hf
  rw [hf, once, if_pos rfl]

/-- Two open connections in the body of one run are one, and so are their calls. -/
theorem Inv.one_body {s : RunLock P} (h : Inv lockKey s) {p q : P} {a b : Acquire}
    (hp : (s.connection p).status = .open) (hq : (s.connection q).status = .open)
    (ha : (s.connection p).inside = some (a, .body))
    (hb : (s.connection q).inside = some (b, .body)) (hrun : a.runId = b.runId) :
    p = q ∧ a = b := by
  have hpk := h.body_holds hp ha
  have hqk := h.body_holds hq hb
  rw [← hrun] at hqk
  obtain rfl : p = q := eq_of_count (by rw [hpk]; decide) (by rw [hqk]; decide)
  rw [ha] at hb
  exact ⟨rfl, congrArg Prod.fst (Option.some.inj hb)⟩

/-- A session with no acquire inside holds nothing, or is closed. -/
theorem Inv.left_nothing {s : RunLock P} (h : Inv lockKey s) {p : P}
    (hi : (s.connection p).inside = none) :
    (s.connection p).status ≠ .open ∨ ∀ k, s.count p k = 0 := by
  by_cases ho : (s.connection p).status = .open
  · have hf := h.fits p ho
    rcases hw : (s.connection p).wire with _ | key | key | _
    all_goals simp only [Fits, hi, hw] at hf
    exact .inr hf
  · exact .inl ho

/-- Only an acquire that is inside, or one that waits, leaves its context. -/
theorem inside_of_exits {s : RunLock P} {a : Action P} {p : P} {x : Acquire}
    (h : s.exits lockKey a = some (p, x)) :
    (∃ y, a = .cancel p y) ∨ ((s.step lockKey a).connection p).inside = none := by
  cases a with
  | receive q | fail q =>
    simp only [exits] at h
    split at h
    next hi =>
      obtain ⟨rfl, -⟩ := Prod.mk.inj (Option.some.inj h)
      exact .inr hi
    next => exact nomatch h
  | cancel q y =>
    simp only [exits] at h
    split_ifs at h
    obtain ⟨rfl, -⟩ := Prod.mk.inj (Option.some.inj h)
    exact .inl ⟨y, rfl⟩
  | call | enter | serve | finish | endSession => exact nomatch h

/-- The process of an action. -/
def Action.process : Action P → P
  | .call p _ | .enter p _ | .serve p | .receive p | .finish p | .fail p | .cancel p _
  | .endSession p => p

/-- What one process does leaves what the other sessions hold. -/
theorem count_other (s : RunLock P) (a : Action P) {q : P} (hq : q ≠ a.process) (k : ℤ) :
    (s.step lockKey a).count q k = s.count q k := by
  cases a with
  | serve p =>
    simp only [step]
    split
    · rfl
    · rfl
    · split_ifs
      · rfl
      · exact count_serve_other s hq _ _ k
  | endSession p => exact (count_endSession lockKey s p q k).trans (if_neg hq)
  | call | cancel => rfl
  | enter p x =>
    simp only [step]
    split_ifs <;> rfl
  | receive p =>
    simp only [step]
    split_ifs
    · split <;> rfl
    · rfl
  | finish p | fail p =>
    simp only [step]
    split <;> rfl

/-- An attempt that is answered with `false` raises `RunInProgress` and sends nothing more. -/
theorem step_refused {s : RunLock P} {p : P} {x : Acquire}
    (hi : (s.connection p).inside = some (x, .trying))
    (hw : (s.connection p).wire = .replied false) :
    (s.step lockKey (.receive p)).table = s.table := by
  simp only [step, hi, hw]
  split_ifs <;> rfl

end RunLock

/-- In every run of acquires over any connections : at most one body of a run executes on an open
connection ; an acquire that was inside leaves a session that holds no lock of its run or is
closed ; one that is cancelled while it waits for the local lock changes no lock ; and an action
of one process, a refused attempt among them, releases nothing of another. -/
theorem run_lock_exclusive {P : Type} [DecidableEq P] (lockKey : Uuid → ℤ)
    (as : List (RunLock.Action P)) (a : RunLock.Action P) :
    let s := Trace.run (RunLock.step lockKey) RunLock.start as
    let s' := s.step lockKey a
    (∀ p q x y, (s.connection p).status = .open → (s.connection q).status = .open →
      (s.connection p).inside = some (x, .body) → (s.connection q).inside = some (y, .body) →
      x.runId = y.runId → p = q ∧ x = y) ∧
    (∀ p x, s.exits lockKey a = some (p, x) → (∀ y, a ≠ .cancel p y) →
      (s'.connection p).status ≠ .open ∨ s'.count p (lockKey x.runId) = 0) ∧
    (∀ p x, a = .cancel p x → s'.table = s.table) ∧
    (∀ q, q ≠ a.process → s'.count q = s.count q) ∧
    ∀ p x, a = .receive p → (s.connection p).inside = some (x, .trying) →
      (s.connection p).wire = .replied false → s'.table = s.table := by
  intro s s'
  have hinv : RunLock.Inv lockKey s :=
    Trace.Meets.inv (fun _ a h (_ : True) => h.step a) RunLock.Inv.start
      (Trace.Meets.of_forall fun _ _ => trivial)
  refine ⟨fun p q x y hp hq hx hy hrun => hinv.one_body hp hq hx hy hrun, fun p x he hne => ?_,
    ?_, fun q hq => funext fun k => RunLock.count_other s a hq k, ?_⟩
  · obtain ⟨y, rfl⟩ | hi := RunLock.inside_of_exits he
    · exact absurd rfl (hne y)
    · obtain ho | h0 := (hinv.step a).left_nothing hi
      · exact .inl ho
      · exact .inr (h0 _)
  · rintro p x rfl
    rfl
  · rintro p x rfl hi hw
    exact RunLock.step_refused hi hw

namespace RunLock

/-! ## Two tasks on one connection -/

/-- Two tasks of one process acquire the same run : the first is in its body when the second is
cancelled at the local lock. -/
def sharedConnection : List (Action ℕ) :=
  [.call 0 ⟨1, 7⟩, .call 0 ⟨2, 7⟩, .enter 0 ⟨1, 7⟩, .serve 0, .receive 0]

end RunLock

/-- The second acquire is left with the lock of the run held by the open session. -/
theorem cancelled_while_waiting :
    let s := Trace.run (RunLock.step fun r => r) RunLock.start RunLock.sharedConnection
    let s' := s.step (fun r => r) (.cancel 0 ⟨2, 7⟩)
    s.exits (fun r => r) (.cancel 0 ⟨2, 7⟩) = some (0, ⟨2, 7⟩) ∧
      (s'.connection 0).status = .open ∧ s'.count 0 7 = 1 := by
  decide

end InvoiceOps
