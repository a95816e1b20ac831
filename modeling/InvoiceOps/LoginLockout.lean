import InvoiceOps.AuthStore
import InvoiceOps.Lockout
import InvoiceOps.Tables
import Mathlib.Data.List.Pairwise

/-!
# The lockout of an account

A login reads its account `FOR UPDATE` and tests the password against what it read ; until it
commits or fails, every other login of the account waits at its read. In a `Logins` any number of
requests are between the two (`pending`), and an `Event` is one step of one of them. `history` has
the attempts that were answered, with the lock of the account before and after.

The row a request holds is the row that is stored (`Logins.Inv`), so that the attempts at one
account follow each other as if they had been made alone (`login_lockout`).
-/

namespace InvoiceOps

/-- The lock of an account. -/
def AuthUser.lock (user : AuthUser) : Lockout.Lock :=
  ⟨user.failedAttempts, user.lockedUntil⟩

namespace PostgresAuthStore

/-- `_MAX_FAILURES` and `_LOCK_MINUTES`. -/
def lockout : Lockout.Policy where
  limit := maxFailures
  period := lockTime
  limit_pos := by decide
  period_pos := by decide

variable (store : PostgresAuthStore)

/-- The part of `login` after the read of the account. -/
def answer (db : AuthDb) (now : Instant) (user : Option AuthUser) (password key : String) :
    AuthDb × Except HttpException LoginResponse :=
  match user with
  | none => (db, .error invalidLogin)
  | some user =>
    if isLocked user now then (db, .error invalidLogin)
    else if store.verifyPassword password user.passwordHash then
      store.openSession db user now key
    else
      let failures := user.failedAttempts + 1
      let lockedUntil := if maxFailures ≤ failures then some (now + lockTime) else none
      (setUser db { user with failedAttempts := failures, lockedUntil }, .error invalidLogin)

/-- A login is answered by the user that its e-mail finds. -/
theorem login_eq_answer (db : AuthDb) (now : Instant) (email password key : String) :
    store.login db now email password key =
      store.answer db now (findUser db (store.normalize email)) password key :=
  rfl

/-- What came of a request for an account. -/
def outcome (user : AuthUser) (now : Instant) (password : String)
    (response : Except HttpException LoginResponse) : Lockout.Outcome :=
  match response with
  | .ok _ => .right
  | .error _ =>
    if isLocked user now then .locked
    else if store.verifyPassword password user.passwordHash then .void
    else .wrong

/-- The lock of the account with the identifier. -/
def lockOf (db : AuthDb) (id : Uuid) : Lockout.Lock :=
  ((lookup AuthUser.id db.users id).map AuthUser.lock).getD .fresh

end PostgresAuthStore

/-! ## Requests -/

/-- A login that has read its account. -/
structure LoginRequest where
  id : ℕ
  user : Option AuthUser
  password : String
  key : String
  deriving DecidableEq, Repr

/-- An answer for an account. -/
structure LoginAttempt where
  user : Uuid
  attempt : Lockout.Attempt
  response : Except HttpException LoginResponse

/-- The state of the logins : the users, the clock, the logins under way, and the answers so
far. -/
structure Logins where
  db : AuthDb
  now : Instant
  pending : List LoginRequest
  history : List LoginAttempt

namespace Logins

/-- What can happen, in any order. -/
inductive Event where
  | read (id : ℕ) (email password key : String)
  | finish (id : ℕ)
  /-- The transaction rolls back : a timeout, a cancellation, or an error of the database. -/
  | abort (id : ℕ)
  | advance (time : ℕ)

/-- No login is under way. -/
def start (db : AuthDb) (now : Instant) : Logins :=
  ⟨db, now, [], []⟩

/-- The row lock of the account is taken. -/
def isHeld (s : Logins) (user : AuthUser) : Bool :=
  s.pending.any fun request => request.user.any fun u => u.id = user.id

/-- The logins under way without one. -/
def release (s : Logins) (id : ℕ) : List LoginRequest :=
  s.pending.filter fun request => request.id ≠ id

variable (store : PostgresAuthStore)

/-- The attempt of a request at its account. -/
def attempt (s : Logins) (request : LoginRequest)
    (answer : AuthDb × Except HttpException LoginResponse) (user : AuthUser) : LoginAttempt where
  user := user.id
  attempt.time := s.now
  attempt.outcome := store.outcome user s.now request.password answer.2
  attempt.before := PostgresAuthStore.lockOf s.db user.id
  attempt.after := PostgresAuthStore.lockOf answer.1 user.id
  response := answer.2

/-- A read whose account is held waits : it is made again later. -/
def step (s : Logins) : Event → Logins
  | .read id email password key =>
    let user := PostgresAuthStore.findUser s.db (store.normalize email)
    if user.any s.isHeld then s
    else { s with pending := s.pending ++ [⟨id, user, password, key⟩] }
  | .finish id =>
    match s.pending.find? fun request => request.id = id with
    | none => s
    | some request =>
      let answer := store.answer s.db s.now request.user request.password request.key
      { s with
        db := answer.1
        pending := s.release id
        history := s.history ++ request.user.toList.map (s.attempt store request answer) }
  | .abort id => { s with pending := s.release id }
  | .advance time => { s with now := s.now + time }

/-- The attempts at one account. -/
def attemptsOf (s : Logins) (user : Uuid) : List Lockout.Attempt :=
  (s.history.filter fun entry => entry.user = user).map LoginAttempt.attempt

end Logins

/-! ## One attempt -/

namespace PostgresAuthStore

variable {store : PostgresAuthStore}

/-- A session does not change the users. -/
theorem insertSession_users (db : AuthDb) (session : AuthSession) :
    (insertSession db session).users = db.users := by
  unfold insertSession
  split_ifs <;> rfl

/-- A user is not locked just when the lock is open. -/
theorem isLocked_eq_false {user : AuthUser} {now : Instant} :
    isLocked user now = false ↔ user.lock.Open now := by
  unfold isLocked Lockout.Lock.Open AuthUser.lock
  cases user.lockedUntil with
  | none => exact ⟨fun _ => nofun, fun _ => rfl⟩
  | some l =>
    rw [Option.any_some, decide_eq_false_iff_not]
    exact ⟨fun h l' hl' => by obtain rfl := Option.some.inj hl'; exact Int.not_lt.mp h,
      fun h => Int.not_lt.mpr (h l rfl)⟩

/-- The user with another lock. -/
def withLock (user : AuthUser) (lock : Lockout.Lock) : AuthUser :=
  { user with failedAttempts := lock.failures, lockedUntil := lock.lockedUntil }

/-- Setting a user replaces it. -/
theorem setUser_users (db : AuthDb) (user : AuthUser) :
    (setUser db user).users = replace AuthUser.id db.users user :=
  rfl

/-- Setting a user to itself changes nothing. -/
theorem setUser_self {db : AuthDb} {user : AuthUser} (hkeyed : (db.users.map AuthUser.id).Nodup)
    (h : user ∈ db.users) : setUser db user = db := by
  have hsame : ∀ u ∈ db.users, (if u.id = user.id then user else u) = u := by
    intro u hu
    split_ifs with hid
    · exact (List.inj_on_of_nodup_map hkeyed hu h hid).symm
    · rfl
  rw [setUser, List.map_congr_left hsame, List.map_id'']
  exact fun _ => rfl

/-- An answer does to the account what its outcome says, and nothing to the others. -/
theorem answer_sound (store : PostgresAuthStore) {db : AuthDb} {user : AuthUser}
    (hkeyed : (db.users.map AuthUser.id).Nodup) (h : user ∈ db.users) (now : Instant)
    (password key : String) :
    ∃ lock, (store.answer db now (some user) password key).1.users =
        (setUser db (withLock user lock)).users ∧
      (⟨now, store.outcome user now password (store.answer db now (some user) password key).2,
        user.lock, lock⟩ : Lockout.Attempt).Sound lockout := by
  have hself : (setUser db (withLock user user.lock)).users = db.users :=
    congrArg AuthDb.users (setUser_self hkeyed h)
  unfold answer
  dsimp only
  by_cases hlocked : isLocked user now
  · rw [if_pos hlocked]
    obtain ⟨l, hl, hlt⟩ := (Option.any_eq_true ..).mp hlocked
    refine ⟨user.lock, hself.symm, .locked ?_ hl (of_decide_eq_true hlt) rfl⟩
    simp only [outcome, if_pos hlocked]
  have hopen := isLocked_eq_false.mp (Bool.eq_false_iff.mpr hlocked)
  rw [if_neg hlocked]
  by_cases hvalid : store.verifyPassword password user.passwordHash
  · have hvoid : ∀ e : HttpException,
        store.outcome user now password (.error e) = .void := by
      intro e
      simp only [outcome, if_neg hlocked, if_pos hvalid]
    rw [if_pos hvalid]
    unfold openSession
    dsimp only
    split
    · split_ifs
      · exact ⟨user.lock, hself.symm, .void (hvoid expiredLogin) rfl⟩
      · exact ⟨.fresh, insertSession_users _ _, .right rfl hopen rfl⟩
    · exact ⟨user.lock, hself.symm, .void (hvoid ⟨500, "Internal Server Error"⟩) rfl⟩
  · rw [if_neg hvalid]
    refine ⟨user.lock.fail lockout now, rfl, .wrong ?_ hopen rfl⟩
    simp only [outcome, if_neg hlocked, if_neg hvalid]

/-- A locked user is answered without a look at the password. -/
theorem answer_locked (store : PostgresAuthStore) {db : AuthDb} {user : AuthUser} {now : Instant}
    {password key : String}
    (h : store.outcome user now password (store.answer db now (some user) password key).2 =
      .locked) :
    (store.answer db now (some user) password key).2 = .error invalidLogin := by
  by_cases hlocked : isLocked user now
  · simp only [answer, if_pos hlocked]
  · unfold outcome at h
    rw [if_neg hlocked] at h
    split at h
    · cases h
    · split_ifs at h

/-- The lock of a user of the store. -/
theorem lockOf_of_mem {db : AuthDb} {user : AuthUser} (hkeyed : (db.users.map AuthUser.id).Nodup)
    (h : user ∈ db.users) : lockOf db user.id = user.lock := by
  rw [lockOf, lookup_of_mem hkeyed h]
  rfl

/-- The lock that was set. -/
theorem lockOf_withLock {db db' : AuthDb} {user : AuthUser} {lock : Lockout.Lock}
    (hkeyed : (db.users.map AuthUser.id).Nodup) (hu : user ∈ db.users)
    (h : db'.users = (setUser db (withLock user lock)).users) : lockOf db' user.id = lock := by
  have hkeys : (db'.users.map AuthUser.id).Nodup := by
    rw [h, setUser_users, map_key_replace]
    exact hkeyed
  have hmem : withLock user lock ∈ db'.users := by
    rw [h]
    exact List.mem_map.mpr ⟨user, hu, if_pos rfl⟩
  exact lockOf_of_mem hkeys hmem

/-- Nobody else's lock is changed. -/
theorem lockOf_of_ne {db db' : AuthDb} {user : AuthUser} (h : db'.users = (setUser db user).users)
    {id : Uuid} (hid : user.id ≠ id) : lockOf db' id = lockOf db id := by
  rw [lockOf, h, setUser_users, lookup_replace_of_ne hid, lockOf]

end PostgresAuthStore

/-! ## Every run -/

namespace Logins

variable {store : PostgresAuthStore}

/-- A request holds the row that is stored, and no other request holds it. -/
structure Inv (s : Logins) : Prop where
  keyed : (s.db.users.map AuthUser.id).Nodup
  stored : ∀ request ∈ s.pending, ∀ user ∈ request.user, user ∈ s.db.users
  alone : s.pending.Pairwise fun r r' => ∀ user ∈ r.user, ∀ user' ∈ r'.user, user.id ≠ user'.id
  path : ∀ user, Lockout.Path PostgresAuthStore.lockout .fresh (s.attemptsOf user)
    (PostgresAuthStore.lockOf s.db user)
  ordered : ∀ user, Lockout.Ordered (s.attemptsOf user)
  past : ∀ user, ∀ a ∈ s.attemptsOf user, a.time ≤ s.now
  silent : ∀ entry ∈ s.history, entry.attempt.outcome = .locked →
    entry.response = .error PostgresAuthStore.invalidLogin

/-- The invariant holds at the start. -/
theorem Inv.start {db : AuthDb} (hkeyed : (db.users.map AuthUser.id).Nodup)
    (hfresh : ∀ user ∈ db.users, user.lock = .fresh) (now : Instant) : (start db now).Inv where
  keyed := hkeyed
  stored _ h := absurd h List.not_mem_nil
  alone := .nil
  path id := by
    have hlock : PostgresAuthStore.lockOf db id = .fresh := by
      unfold PostgresAuthStore.lockOf
      cases hu : lookup AuthUser.id db.users id with
      | none => rfl
      | some user => exact hfresh user (mem_of_lookup hu)
    unfold Logins.start
    rw [hlock]
    exact .nil _
  ordered _ := .nil
  past _ _ h := absurd h List.not_mem_nil
  silent _ h := absurd h List.not_mem_nil

/-- A read keeps it. -/
theorem Inv.read {s : Logins} (h : s.Inv) (id : ℕ) (email password key : String) :
    (s.step store (.read id email password key)).Inv := by
  unfold step
  dsimp only
  split_ifs with hheld
  · exact h
  refine ⟨h.keyed, ?_, ?_, h.path, h.ordered, h.past, h.silent⟩
  · rintro request hr user hu
    rcases List.mem_append.mp hr with hr | hr
    · exact h.stored request hr user hu
    · obtain rfl := List.mem_singleton.mp hr
      exact List.mem_of_find?_eq_some hu
  · rw [List.pairwise_append]
    refine ⟨h.alone, List.pairwise_singleton _ _, ?_⟩
    rintro request hr request' hr' user hu user' hu' hid
    obtain rfl := List.mem_singleton.mp hr'
    refine hheld ((Option.any_eq_true ..).mpr ⟨user', hu', ?_⟩)
    rw [isHeld, List.any_eq_true]
    exact ⟨request, hr, (Option.any_eq_true ..).mpr ⟨user, hu, decide_eq_true hid⟩⟩

/-- So does a rollback. -/
theorem Inv.abort {s : Logins} (h : s.Inv) (id : ℕ) : (s.step store (.abort id)).Inv :=
  ⟨h.keyed, fun request hr => h.stored request (List.mem_filter.mp hr).1, h.alone.filter _,
    h.path, h.ordered, h.past, h.silent⟩

/-- So does the clock. -/
theorem Inv.advance {s : Logins} (h : s.Inv) (time : ℕ) : (s.step store (.advance time)).Inv :=
  ⟨h.keyed, h.stored, h.alone, h.path, h.ordered,
    fun user a ha => (h.past user a ha).trans
      (Int.le_add_of_nonneg_right (Int.natCast_nonneg time)),
    h.silent⟩

/-- A request that is answered is the only one that holds its account. -/
theorem Inv.others {s : Logins} (h : s.Inv) {request : LoginRequest} (hr : request ∈ s.pending)
    {user : AuthUser} (hu : user ∈ request.user) :
    ∀ r ∈ s.release request.id, ∀ user' ∈ r.user, user'.id ≠ user.id := by
  intro r hrel user' hu'
  obtain ⟨hmem, hne⟩ := List.mem_filter.mp hrel
  have hne : r ≠ request := fun he => of_decide_eq_true hne (congrArg LoginRequest.id he)
  have hsymm : Std.Symm fun r r' : LoginRequest =>
      ∀ user ∈ r.user, ∀ user' ∈ r'.user, user.id ≠ user'.id :=
    ⟨fun _ _ hrr' user hu user' hu' => (hrr' user' hu' user hu).symm⟩
  exact h.alone.forall hmem hr hne user' hu' user hu

/-- The attempts of one more part of the history. -/
theorem attemptsOf_append (s : Logins) (entries : List LoginAttempt) (user : Uuid) :
    { s with history := s.history ++ entries }.attemptsOf user =
      s.attemptsOf user ++
        (entries.filter fun entry => entry.user = user).map LoginAttempt.attempt := by
  rw [attemptsOf, List.filter_append, List.map_append]
  rfl

/-- An attempt that is answered, with what it did to its account. -/
theorem Inv.record {s : Logins} (h : s.Inv) {user : AuthUser} (hu : user ∈ s.db.users)
    {pending : List LoginRequest} (hpending : pending.Sublist s.pending)
    (hothers : ∀ r ∈ pending, ∀ user' ∈ r.user, user'.id ≠ user.id) {db : AuthDb}
    {entry : LoginAttempt} (hid : entry.user = user.id) (htime : entry.attempt.time = s.now)
    (hbefore : entry.attempt.before = user.lock)
    (hsound : entry.attempt.Sound PostgresAuthStore.lockout)
    (hdb : db.users =
      (PostgresAuthStore.setUser s.db (PostgresAuthStore.withLock user entry.attempt.after)).users)
    (hsilent : entry.attempt.outcome = .locked →
      entry.response = .error PostgresAuthStore.invalidLogin) :
    ({ s with db, pending, history := s.history ++ [entry] } : Logins).Inv := by
  have hkeys : db.users.map AuthUser.id = s.db.users.map AuthUser.id := by
    rw [hdb, PostgresAuthStore.setUser_users, map_key_replace]
  have hkeyed : (db.users.map AuthUser.id).Nodup := hkeys ▸ h.keyed
  have hattempts : ∀ id, ({ s with db, pending, history := s.history ++ [entry] } :
      Logins).attemptsOf id = s.attemptsOf id ++
        (([entry].filter fun entry => entry.user = id).map LoginAttempt.attempt) :=
    fun id => attemptsOf_append s [entry] id
  have hsame : ∀ id, user.id ≠ id →
      ([entry].filter fun entry => entry.user = id).map LoginAttempt.attempt = [] := by
    intro id hne
    rw [List.filter_singleton, hid, decide_eq_false hne]
    rfl
  have hown : ([entry].filter fun entry => entry.user = user.id).map LoginAttempt.attempt =
      [entry.attempt] := by
    rw [List.filter_singleton, hid, decide_eq_true rfl]
    rfl
  refine ⟨hkeyed, ?_, h.alone.sublist hpending, ?_, ?_, ?_, ?_⟩
  · intro r hr user' hu'
    rw [hdb]
    have hstored := h.stored r (hpending.subset hr) user' hu'
    exact List.mem_map.mpr ⟨user', hstored, if_neg (hothers r hr user' hu')⟩
  · intro id
    rw [hattempts]
    by_cases hne : user.id = id
    · subst hne
      rw [hown]
      rw [PostgresAuthStore.lockOf_withLock h.keyed hu hdb]
      refine Lockout.Path.snoc ?_ hsound
      rw [hbefore, ← PostgresAuthStore.lockOf_of_mem h.keyed hu]
      exact h.path user.id
    · rw [hsame id hne, List.append_nil]
      have hlock := PostgresAuthStore.lockOf_of_ne hdb hne
      rw [hlock]
      exact h.path id
  · intro id
    rw [hattempts]
    by_cases hne : user.id = id
    · subst hne
      rw [hown, Lockout.Ordered, List.pairwise_append]
      refine ⟨h.ordered user.id, List.pairwise_singleton _ _, fun a ha b hb => ?_⟩
      obtain rfl := List.mem_singleton.mp hb
      rw [htime]
      exact h.past user.id a ha
    · rw [hsame id hne, List.append_nil]
      exact h.ordered id
  · intro id a ha
    rw [hattempts] at ha
    rcases List.mem_append.mp ha with ha | ha
    · exact h.past id a ha
    · obtain ⟨e, he, rfl⟩ := List.mem_map.mp ha
      obtain rfl := List.mem_singleton.mp (List.mem_filter.mp he).1
      exact htime.le
  · intro e he hlocked
    rcases List.mem_append.mp he with he | he
    · exact h.silent e he hlocked
    · obtain rfl := List.mem_singleton.mp he
      exact hsilent hlocked

/-- The end of a login keeps the invariant. -/
theorem Inv.finish {s : Logins} (h : s.Inv) (id : ℕ) : (s.step store (.finish id)).Inv := by
  unfold step
  dsimp only
  cases hfind : s.pending.find? fun request => request.id = id with
  | none => exact h
  | some request =>
  have hr := List.mem_of_find?_eq_some hfind
  obtain rfl : request.id = id := of_decide_eq_true (List.find?_some hfind :)
  dsimp only
  cases huser : request.user with
  | none =>
    -- no account : nothing is stored
    rw [Option.toList_none, List.map_nil, List.append_nil]
    have habort : (s.step store (.abort request.id)).Inv := h.abort request.id
    exact habort
  | some user =>
    have hu := h.stored request hr user huser
    obtain ⟨lock, husers, hsound⟩ := PostgresAuthStore.answer_sound store h.keyed hu s.now
      request.password request.key
    have hbefore := PostgresAuthStore.lockOf_of_mem h.keyed hu
    have hafter := PostgresAuthStore.lockOf_withLock h.keyed hu husers
    rw [Option.toList_some, List.map_singleton]
    refine h.record hu List.filter_sublist (h.others hr huser) rfl rfl hbefore ?_ ?_ ?_
    · unfold attempt
      rw [hbefore, hafter]
      exact hsound
    · unfold attempt
      rw [hafter]
      exact husers
    · exact PostgresAuthStore.answer_locked store

/-- Every event keeps it. -/
theorem Inv.step {s : Logins} (h : s.Inv) (event : Event) : (s.step store event).Inv := by
  cases event with
  | read id email password key => exact h.read id email password key
  | finish id => exact h.finish id
  | abort id => exact h.abort id
  | advance time => exact h.advance time

end Logins

/-- In every interleaving of login requests at accounts that are new at its start, each account is
guarded, a request that is locked out is answered as if the password were wrong, and the stored
count is that of the failures in a row. -/
theorem login_lockout (store : PostgresAuthStore) {db : AuthDb} (now : Instant)
    (hkeyed : (db.users.map AuthUser.id).Nodup) (hfresh : ∀ user ∈ db.users, user.lock = .fresh)
    (events : List Logins.Event) :
    let s := Trace.run (Logins.step store) (Logins.start db now) events
    (∀ user, Lockout.Guarded PostgresAuthStore.lockout (s.attemptsOf user)) ∧
      (∀ entry ∈ s.history, entry.attempt.outcome = .locked →
        entry.response = .error PostgresAuthStore.invalidLogin) ∧
      ∀ user, (PostgresAuthStore.lockOf s.db user).failures =
        Lockout.consecutive (s.attemptsOf user) := by
  intro s
  have hinv : s.Inv := Trace.Meets.inv (fun _ event hs _ => hs.step event)
    (Logins.Inv.start hkeyed hfresh now) (Trace.Meets.of_forall fun _ _ => trivial)
  exact ⟨fun user => (hinv.path user).guarded (hinv.ordered user), hinv.silent,
    fun user => (hinv.path user).failures⟩

namespace Logins

def sampleUser : AuthUser :=
  ⟨7, .analyst, "analyst@example.test", "first-password", 0, none⟩

/-- A login that is read and answered, a microsecond after the one before. -/
def login (id : ℕ) (password : String) : List Event :=
  [.advance 1, .read id "analyst@example.test" password "k1", .finish id]

/-- Of the first two requests, the second one waits. After five failures the password is right,
within the time of the lock and after it. -/
def lockedOut : List Event :=
  [Event.read 0 "analyst@example.test" "wrong" "k1", .read 1 "analyst@example.test" "wrong" "k1",
    .finish 0] ++ login 1 "wrong" ++ login 2 "wrong" ++ login 3 "wrong" ++ login 4 "wrong" ++
    login 5 "first-password" ++ [Event.advance (15 * 60 * 1000000)] ++ login 6 "first-password"

end Logins

/-- The theorem applies to five failures, a login that finds the user locked and one after it. -/
theorem login_lockout_sample :
    let s := Trace.run (Logins.step Auth.sampleStore) (Logins.start ⟨[Logins.sampleUser], []⟩ 0)
      Logins.lockedOut
    s.history.map (fun entry => entry.attempt.outcome) =
        List.replicate 5 Lockout.Outcome.wrong ++ [.locked, .right] ∧
      (∀ user, Lockout.Guarded PostgresAuthStore.lockout (s.attemptsOf user)) ∧
      (∀ entry ∈ s.history, entry.attempt.outcome = .locked →
        entry.response = .error PostgresAuthStore.invalidLogin) ∧
      ∀ user, (PostgresAuthStore.lockOf s.db user).failures =
        Lockout.consecutive (s.attemptsOf user) := by
  refine ⟨by decide, login_lockout Auth.sampleStore 0 ?_ (fun user hu => ?_) _⟩
  · exact List.nodup_singleton _
  · obtain rfl := List.mem_singleton.mp hu
    rfl

end InvoiceOps
