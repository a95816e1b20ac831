import InvoiceOps.Values
import InvoiceOps.Trace
import Mathlib.Data.List.Nodup

/-!
# Login sessions

`PostgresAuthStore` keeps the digest of each session's token. The token of a login is derived
from the user and the idempotency key of the request, so that a repeated login answers with the
same token ; `logout` and a rotation of the credentials delete the session. A digest that was
deleted can be inserted again by a later login with its key, although a login whose session has
expired is refused. In every sequence of calls without such a login a revoked token stays revoked
(`revoked_sessions_stay_revoked`).

The hash functions and the text normalisation are parameters : nothing here depends on them.
-/

namespace InvoiceOps

/-- What the API answers instead of a result. -/
structure HttpException where
  status : ℕ
  detail : String
  deriving DecidableEq, Repr

/-- The four roles. -/
inductive AuthRole where
  | analyst | manager | auditor | platform
  deriving DecidableEq, Repr

/-- A row of the users. -/
structure AuthUser where
  id : Uuid
  role : AuthRole
  email : String
  passwordHash : String
  failedAttempts : ℕ
  lockedUntil : Option Instant
  deriving DecidableEq, Repr

/-- A row of the sessions ; the token is stored as its hash. -/
structure AuthSession where
  tokenHash : String
  secretFingerprint : String
  userId : Uuid
  expiresAt : Instant
  deriving DecidableEq, Repr

/-- The tables of users and sessions. -/
structure AuthDb where
  users : List AuthUser
  sessions : List AuthSession
  deriving DecidableEq, Repr

/-- Who a token belongs to. -/
structure SessionUser where
  email : String
  role : AuthRole
  deriving DecidableEq, Repr

/-- What a login answers. -/
structure LoginResponse where
  email : String
  role : AuthRole
  token : String
  expiresAt : Instant
  deriving DecidableEq, Repr

/-- The settings of the store, with the functions of the standard library it calls. -/
structure PostgresAuthStore where
  sessionSecret : String
  sessionHours : ℕ
  sha256 : String → String
  /-- `hmac.new(secret, message, sha256).hexdigest()`. -/
  hmacSha256 : String → String → String
  verifyPassword : String → String → Bool
  hashPassword : (salt password : String) → String
  /-- `email.strip().lower()`. -/
  normalize : String → String

namespace PostgresAuthStore

variable (store : PostgresAuthStore)

/-- So many failures in a row lock an account. -/
def maxFailures : ℕ := 5

/-- Fifteen minutes, in microseconds. -/
def lockTime : ℤ := 15 * 60 * 1000000

/-- The answer to a wrong address or password. -/
def invalidLogin : HttpException := ⟨401, "Invalid email or password."⟩
/-- The answer to a key whose session has ended. -/
def expiredLogin : HttpException := ⟨409, "Login attempt expired; retry with a new key."⟩

/-- The token of a user's login ; the same key makes the same token. -/
def token (userId : Uuid) (key : String) : String :=
  "io_" ++ store.hmacSha256 store.sessionSecret s!"{userId}:{key}"

/-- The lock has not run out. -/
def isLocked (user : AuthUser) (now : Instant) : Bool :=
  user.lockedUntil.any fun t => now < t

/-- The user of an address. -/
def findUser (db : AuthDb) (email : String) : Option AuthUser :=
  db.users.find? fun u => u.email = email

/-- The table with a user's row replaced. -/
def setUser (db : AuthDb) (user : AuthUser) : AuthDb :=
  { db with users := db.users.map fun u => if u.id = user.id then user else u }

/-- `INSERT ... ON CONFLICT (token_hash) DO NOTHING`. -/
def insertSession (db : AuthDb) (session : AuthSession) : AuthDb :=
  if db.sessions.any fun s => s.tokenHash = session.tokenHash then db
  else { db with sessions := db.sessions ++ [session] }

/-- The session a login of a user inserts, or finds. -/
def newSession (user : AuthUser) (now : Instant) (key : String) : AuthSession where
  tokenHash := store.sha256 (store.token user.id key)
  secretFingerprint := store.sha256 store.sessionSecret
  userId := user.id
  expiresAt := now + store.sessionHours * 3600000000

/-- A login with the right password. -/
def openSession (db : AuthDb) (user : AuthUser) (now : Instant) (key : String) :
    AuthDb × Except HttpException LoginResponse :=
  let db' := insertSession (setUser db { user with failedAttempts := 0, lockedUntil := none })
    (store.newSession user now key)
  match db'.sessions.find? fun s => s.tokenHash = store.sha256 (store.token user.id key) with
  | some session =>
    if session.expiresAt ≤ now then (db, .error expiredLogin)
    else (db', .ok ⟨user.email, user.role, store.token user.id key, session.expiresAt⟩)
  | none => (db, .error ⟨500, "Internal Server Error"⟩)

/-- `login`. -/
def login (db : AuthDb) (now : Instant) (email password key : String) :
    AuthDb × Except HttpException LoginResponse :=
  match findUser db (store.normalize email) with
  | none => (db, .error invalidLogin)
  | some user =>
    if isLocked user now then (db, .error invalidLogin)
    else if store.verifyPassword password user.passwordHash then
      store.openSession db user now key
    else
      let failures := user.failedAttempts + 1
      let lockedUntil := if maxFailures ≤ failures then some (now + lockTime) else none
      (setUser db { user with failedAttempts := failures, lockedUntil }, .error invalidLogin)

/-- The form of a token : `io_` and 64 more characters, all of them ASCII. -/
def isToken (token : String) : Bool :=
  token.length = 67 && "io_".toList.isPrefixOf token.toList &&
    token.toList.all fun c => c.toNat < 128

/-- `resolve` : the user of a session that is in the table, has not expired and was made under the
present secret. -/
def resolve (db : AuthDb) (now : Instant) (token : String) : Option SessionUser :=
  if isToken token then
    db.sessions.findSome? fun s =>
      if s.tokenHash = store.sha256 token ∧
          s.secretFingerprint = store.sha256 store.sessionSecret ∧ now < s.expiresAt then
        (db.users.find? fun u => u.id = s.userId).map fun u => ⟨u.email, u.role⟩
      else none
  else none

/-- `logout` ; a token that is not well formed is ignored. -/
def logout (db : AuthDb) (token : String) : AuthDb :=
  if isToken token then
    { db with sessions := db.sessions.filter fun s => s.tokenHash ≠ store.sha256 token }
  else db

/-! ## Rotation -/

/-- One of the accounts `seed_auth_users` is given, with what the database and the password
hash choose for it. -/
structure Account where
  role : AuthRole
  email : String
  password : String
  newId : Uuid
  salt : String

/-- One account of `seed_auth_users`, or nothing where the statement fails : the email is another
account's, or no text. -/
def reconcile (db : AuthDb) (account : Account) : Option AuthDb :=
  let hash := store.hashPassword account.salt account.password
  match db.users.find? fun u => u.role = account.role with
  | none =>
    if hasNul account.email || db.users.any fun u => u.email = account.email then none
    else
      some { db with
        users := db.users ++ [⟨account.newId, account.role, account.email, hash, 0, none⟩] }
  | some user =>
    if user.email ≠ account.email ∨
        store.verifyPassword account.password user.passwordHash = false then
      if hasNul account.email ||
          db.users.any fun u => u.id ≠ user.id ∧ u.email = account.email then none
      else
        let db := setUser db { user with email := account.email, passwordHash := hash,
                                         failedAttempts := 0, lockedUntil := none }
        some { db with sessions := db.sessions.filter fun s => s.userId ≠ user.id }
    else some db

/-- `seed_auth_users` : all the accounts in one transaction. -/
def seed (db : AuthDb) (accounts : List Account) : AuthDb :=
  (accounts.foldlM store.reconcile db).getD db

end PostgresAuthStore

/-! ## Sequences of calls -/

/-- The store with its clock, and what was revoked : the tokens that were logged out and the
digests whose sessions a rotation deleted. -/
structure Auth where
  db : AuthDb
  now : Instant
  loggedOut : List String
  rotated : List String
  deriving DecidableEq, Repr

namespace Auth

/-- The calls of the API. -/
inductive Call where
  | login (email password key : String)
  | logout (token : String)
  | seed (accounts : List PostgresAuthStore.Account)
  | advance (time : ℕ)

/-- The migrated database, with no account yet. -/
def start (now : Instant) : Auth := ⟨⟨[], []⟩, now, [], []⟩

variable (store : PostgresAuthStore)

/-- The state after a call. -/
def step (s : Auth) : Call → Auth
  | .login email password key => { s with db := (store.login s.db s.now email password key).1 }
  | .logout token =>
    { s with db := store.logout s.db token, loggedOut := s.loggedOut ++ [token] }
  | .seed accounts =>
    let db := store.seed s.db accounts
    { s with
      db := db
      rotated := s.rotated ++
        (s.db.sessions.filter fun session => session ∉ db.sessions).map (·.tokenHash) }
  | .advance time => { s with now := s.now + time }

/-- The digest was revoked. -/
def Revoked (s : Auth) (digest : String) : Prop :=
  digest ∈ s.rotated ∨
    ∃ token ∈ s.loggedOut, PostgresAuthStore.isToken token ∧ store.sha256 token = digest

instance (s : Auth) (digest : String) : Decidable (s.Revoked store digest) :=
  inferInstanceAs (Decidable (_ ∨ ∃ token ∈ s.loggedOut, _ ∧ _))

/-- No login that is let in derives a revoked token again. -/
def NotReissued (s : Auth) : Call → Prop
  | .login email password key =>
    ∀ user, PostgresAuthStore.findUser s.db (store.normalize email) = some user →
      PostgresAuthStore.isLocked user s.now = false →
      store.verifyPassword password user.passwordHash = true →
      ¬ s.Revoked store (store.sha256 (store.token user.id key))
  | _ => True

end Auth

/-! ## What a call does to the sessions -/

namespace PostgresAuthStore

variable {store : PostgresAuthStore}

@[simp] theorem setUser_sessions (db : AuthDb) (user : AuthUser) :
    (setUser db user).sessions = db.sessions :=
  rfl

/-- A session is added only if its token is not in the table. -/
theorem insertSession_sessions (db : AuthDb) (session : AuthSession) :
    (insertSession db session).sessions = db.sessions ∨
      (insertSession db session).sessions = db.sessions ++ [session] ∧
        ∀ s ∈ db.sessions, s.tokenHash ≠ session.tokenHash := by
  unfold insertSession
  split_ifs with h
  · exact .inl rfl
  · refine .inr ⟨rfl, fun s hs he => h ?_⟩
    rw [List.any_eq_true]
    exact ⟨s, hs, decide_eq_true he⟩

variable (store) in
/-- So a login adds at most its own session. -/
theorem openSession_sessions (db : AuthDb) (user : AuthUser) (now : Instant) (key : String) :
    (store.openSession db user now key).1.sessions = db.sessions ∨
      (store.openSession db user now key).1.sessions =
          db.sessions ++ [store.newSession user now key] ∧
        ∀ s ∈ db.sessions, s.tokenHash ≠ store.sha256 (store.token user.id key) := by
  have hins := insertSession_sessions
    (setUser db { user with failedAttempts := 0, lockedUntil := none })
    (store.newSession user now key)
  simp only [openSession]
  split
  · split_ifs
    · exact .inl rfl
    · exact hins
  · exact .inl rfl

variable (store) in
/-- A login adds at most one session, under the digest it derives and only if it is let in. -/
theorem login_sessions (db : AuthDb) (now : Instant) (email password key : String) :
    (store.login db now email password key).1.sessions = db.sessions ∨
      ∃ user, findUser db (store.normalize email) = some user ∧ isLocked user now = false ∧
        store.verifyPassword password user.passwordHash = true ∧
        (store.login db now email password key).1.sessions =
          db.sessions ++ [store.newSession user now key] ∧
        ∀ s ∈ db.sessions, s.tokenHash ≠ store.sha256 (store.token user.id key) := by
  unfold login
  cases hu : findUser db (store.normalize email) with
  | none => exact .inl rfl
  | some user =>
    dsimp only
    split_ifs with hl hv
    · exact .inl rfl
    · obtain hold | hnew := openSession_sessions store db user now key
      · exact .inl hold
      · exact .inr ⟨user, rfl, by simpa using hl, hv, hnew⟩
    all_goals exact .inl rfl

/-- A seeding adds no session. -/
theorem reconcile_sublist {db db' : AuthDb} {account : Account}
    (h : store.reconcile db account = some db') : db'.sessions.Sublist db.sessions := by
  unfold reconcile at h
  split at h
  · split_ifs at h
    obtain rfl := Option.some.inj h
    exact List.Sublist.refl _
  · split_ifs at h
    · obtain rfl := Option.some.inj h
      exact List.filter_sublist
    · obtain rfl := Option.some.inj h
      exact List.Sublist.refl _

variable (store) in
/-- A rotation only deletes sessions. -/
theorem seed_sublist (db : AuthDb) (accounts : List Account) :
    (store.seed db accounts).sessions.Sublist db.sessions := by
  have hfold : ∀ (accounts : List Account) {db db' : AuthDb},
      accounts.foldlM store.reconcile db = some db' → db'.sessions.Sublist db.sessions := by
    intro accounts
    induction accounts with
    | nil =>
      intro db db' h
      obtain rfl := Option.some.inj h
      exact List.Sublist.refl _
    | cons account accounts ih =>
      intro db db' h
      obtain ⟨db₁, h₁, h₂⟩ := Option.bind_eq_some_iff.1 h
      exact (ih h₂).trans (reconcile_sublist h₁)
  unfold seed
  cases h : accounts.foldlM store.reconcile db with
  | none => exact List.Sublist.refl _
  | some db' => exact hfold accounts h

/-- A token whose digest has no session resolves to nobody. -/
theorem resolve_eq_none {db : AuthDb} {now : Instant} {token : String}
    (h : isToken token → ∀ s ∈ db.sessions, s.tokenHash ≠ store.sha256 token) :
    store.resolve db now token = none := by
  unfold resolve
  split_ifs with ht
  · rw [List.findSome?_eq_none_iff]
    intro s hs
    rw [if_neg fun hc => h ht s hs hc.1]
  · rfl

end PostgresAuthStore

/-! ## Revocation -/

namespace Auth

variable {store : PostgresAuthStore}

/-- The digests are unique, and none of them was revoked. -/
structure Inv (store : PostgresAuthStore) (s : Auth) : Prop where
  keyed : (s.db.sessions.map (·.tokenHash)).Nodup
  kept : ∀ session ∈ s.db.sessions, ¬ s.Revoked store session.tokenHash

/-- Nothing is revoked at first. -/
theorem Inv.start (now : Instant) : Inv store (start now) :=
  ⟨List.nodup_nil, fun _ h => absurd h List.not_mem_nil⟩

/-- A login keeps the invariant, if it does not issue a revoked token again. -/
theorem Inv.login {s : Auth} (h : Inv store s) {email password key : String}
    (hok : s.NotReissued store (.login email password key)) :
    Inv store (s.step store (.login email password key)) := by
  obtain hold | ⟨user, hu, hl, hv, hnew, hfresh⟩ :=
    PostgresAuthStore.login_sessions store s.db s.now email password key
  · refine ⟨?_, ?_⟩
    · simp only [step, hold]
      exact h.keyed
    · simp only [step, hold]
      exact h.kept
  · refine ⟨?_, ?_⟩
    · simp only [step, hnew, List.map_append, List.map_singleton]
      rw [List.nodup_append]
      refine ⟨h.keyed, List.nodup_singleton _, ?_⟩
      intro a ha b hb
      obtain rfl := List.mem_singleton.1 hb
      obtain ⟨session, hs, rfl⟩ := List.mem_map.1 ha
      exact hfresh session hs
    · intro session hs
      simp only [step, hnew, List.mem_append, List.mem_singleton] at hs
      obtain hs | rfl := hs
      · exact h.kept session hs
      · exact hok user hu hl hv

/-- So does a logout. -/
theorem Inv.logout {s : Auth} (h : Inv store s) (token : String) :
    Inv store (s.step store (.logout token)) := by
  have hsub : (store.logout s.db token).sessions.Sublist s.db.sessions := by
    unfold PostgresAuthStore.logout
    split_ifs
    · exact List.filter_sublist
    · exact List.Sublist.refl _
  refine ⟨(hsub.map _).nodup h.keyed, fun session hs hrev => ?_⟩
  obtain hrot | ⟨t, ht, hform, heq⟩ := hrev
  · exact h.kept session (hsub.subset hs) (.inl hrot)
  · obtain ht | ht := List.mem_append.1 ht
    · exact h.kept session (hsub.subset hs) (.inr ⟨t, ht, hform, heq⟩)
    · obtain rfl := List.mem_singleton.1 ht
      simp only [step, PostgresAuthStore.logout, if_pos hform, List.mem_filter] at hs
      exact of_decide_eq_true hs.2 heq.symm

/-- So does a seeding. -/
theorem Inv.seed {s : Auth} (h : Inv store s) (accounts : List PostgresAuthStore.Account) :
    Inv store (s.step store (.seed accounts)) := by
  have hsub := PostgresAuthStore.seed_sublist store s.db accounts
  refine ⟨(hsub.map _).nodup h.keyed, fun session hs hrev => ?_⟩
  obtain hrot | hout := hrev
  · obtain hold | hdel := List.mem_append.1 hrot
    · exact h.kept session (hsub.subset hs) (.inl hold)
    · obtain ⟨deleted, hd, heq⟩ := List.mem_map.1 hdel
      obtain ⟨hd, hgone⟩ := List.mem_filter.1 hd
      -- the digest is a key : the session that was deleted is the one that is there
      obtain rfl := List.inj_on_of_nodup_map h.keyed hd (hsub.subset hs) heq
      exact of_decide_eq_true hgone hs
  · exact h.kept session (hsub.subset hs) (.inr hout)

/-- So does every call. -/
theorem Inv.step {s : Auth} (h : Inv store s) {call : Call} (hok : s.NotReissued store call) :
    Inv store (s.step store call) := by
  cases call with
  | login email password key => exact h.login hok
  | logout token => exact h.logout token
  | seed accounts => exact h.seed accounts
  | advance time => exact ⟨h.keyed, h.kept⟩

end Auth

/-- A token that was logged out, or whose session a rotation deleted, resolves to nobody at every
later time of every sequence of calls in which no login that is let in derives it again. -/
theorem revoked_sessions_stay_revoked (store : PostgresAuthStore) (now : Instant)
    {calls : List Auth.Call}
    (h : Trace.Meets (Auth.step store) (Auth.NotReissued store) (Auth.start now) calls)
    {token : String}
    (ht : token ∈ (Trace.run (Auth.step store) (Auth.start now) calls).loggedOut ∨
      store.sha256 token ∈ (Trace.run (Auth.step store) (Auth.start now) calls).rotated) :
    store.resolve (Trace.run (Auth.step store) (Auth.start now) calls).db
      (Trace.run (Auth.step store) (Auth.start now) calls).now token = none := by
  have hinv : Auth.Inv store (Trace.run (Auth.step store) (Auth.start now) calls) :=
    Trace.Meets.inv (fun _ _ hs hok => hs.step hok) (Auth.Inv.start now) h
  refine PostgresAuthStore.resolve_eq_none fun hform session hs heq => ?_
  refine hinv.kept session hs ?_
  rw [heq]
  obtain hout | hrot := ht
  · exact .inr ⟨token, hout, hform, rfl⟩
  · exact .inl hrot

/-! ## A token that comes back -/

namespace Auth

/-- A store whose digests are the texts themselves, and whose derivation gives the key `k1` of
the user 7 its own token. -/
def sampleStore : PostgresAuthStore where
  sessionSecret := "synthetic-session-secret-0123456789"
  sessionHours := 8
  sha256 := id
  hmacSha256 _ message := String.ofList (List.replicate 64 (if message = "7:k1" then 'a' else 'b'))
  verifyPassword password hash := password = hash
  hashPassword _ password := password
  normalize := id

/-- A well-formed token. -/
def sampleToken : String :=
  "io_" ++ String.ofList (List.replicate 64 'a')

/-- The analyst's account, under a password. -/
def account (password : String) : PostgresAuthStore.Account :=
  ⟨.analyst, "analyst@example.test", password, 7, ""⟩

/-- A login, its logout, and a login with another key ; then a rotation. -/
def revocations : List Call :=
  [.seed [account "first-password"], .login "analyst@example.test" "first-password" "k1",
    .logout sampleToken, .login "analyst@example.test" "first-password" "k2",
    .seed [account "second-password"], .advance 1]

end Auth

set_option maxRecDepth 16000 in
theorem revoked_sessions_stay_revoked_sample :
    Auth.sampleToken ∈
        (Trace.run (Auth.step Auth.sampleStore) (Auth.start 0) Auth.revocations).loggedOut ∧
      Auth.sampleStore.resolve
        (Trace.run (Auth.step Auth.sampleStore) (Auth.start 0) Auth.revocations).db
        (Trace.run (Auth.step Auth.sampleStore) (Auth.start 0) Auth.revocations).now
        Auth.sampleToken = none := by
  have hout : Auth.sampleToken ∈
      (Trace.run (Auth.step Auth.sampleStore) (Auth.start 0) Auth.revocations).loggedOut := by
    decide +kernel
  have hnew : Trace.Meets (Auth.step Auth.sampleStore) (Auth.NotReissued Auth.sampleStore)
      (Auth.start 0) Auth.revocations := by
    refine ⟨trivial, fun user hu _ _ => ?_, trivial, fun user hu _ _ => ?_, trivial, trivial,
      trivial⟩
    all_goals
      obtain rfl := Option.some.inj hu
      decide +kernel
  exact ⟨hout, revoked_sessions_stay_revoked Auth.sampleStore 0 hnew (.inl hout)⟩

set_option maxRecDepth 16000 in
/-- The same login after the logout makes the token valid again, and so it does after a rotation
of the password. -/
theorem revoked_token_revived :
    Auth.sampleStore.resolve
        (Trace.run (Auth.step Auth.sampleStore) (Auth.start 0)
          [.seed [Auth.account "first-password"],
            .login "analyst@example.test" "first-password" "k1", .logout Auth.sampleToken,
            .login "analyst@example.test" "first-password" "k1"]).db 0 Auth.sampleToken =
      some ⟨"analyst@example.test", .analyst⟩ ∧
    Auth.sampleStore.resolve
        (Trace.run (Auth.step Auth.sampleStore) (Auth.start 0)
          [.seed [Auth.account "first-password"],
            .login "analyst@example.test" "first-password" "k1",
            .seed [Auth.account "second-password"],
            .login "analyst@example.test" "second-password" "k1"]).db 0 Auth.sampleToken =
      some ⟨"analyst@example.test", .analyst⟩ := by
  decide +kernel

end InvoiceOps
