import InvoiceOps.AuthStore
import InvoiceOps.LoginLockout
import InvoiceOps.Passwords
import InvoiceOps.Tables

/-!
# Account seeding

`seed_auth_users` reconciles the four role accounts one after the other, in one transaction. The
emails of the database are unique after every statement, so an account cannot take an email that
the account of a later role still has. The run is complete exactly when no email is wanted by an
earlier role than the one that has it, and every email is a text of Postgres
(`seed_converges_iff`) : two roles cannot change emails.
-/

namespace InvoiceOps

open PostgresAuthStore

/-! ## Settings -/

/-- `re.fullmatch(r"[^\s@]+@[^\s@]+\.[^\s@]+", email)`. -/
def isEmail (email : String) : Bool :=
  match email.toList.splitOn '@' with
  | [name, domain] =>
    !name.isEmpty && !(name ++ domain).any isPythonSpace && domain.tail.dropLast.contains '.'
  | _ => false

/-- `normalize_email`, of the email it returns. -/
def isRoleEmail (email : String) : Bool :=
  email.length ≤ 254 && isEmail email

/-- `validate_password`. -/
def isRolePassword (password : String) : Bool :=
  12 ≤ password.length && password.length ≤ 1024 && !hasNul password

/-- `AuthSeedSettings`. -/
structure AuthSeedSettings where
  analystEmail : String
  analystPassword : String
  managerEmail : String
  managerPassword : String
  auditorEmail : String
  auditorPassword : String
  platformEmail : String
  platformPassword : String
  emails_valid : [analystEmail, managerEmail, auditorEmail, platformEmail].all isRoleEmail
  passwords_valid :
    [analystPassword, managerPassword, auditorPassword, platformPassword].all isRolePassword
  /-- `distinct_emails`. -/
  distinct : [analystEmail, managerEmail, auditorEmail, platformEmail].Nodup

namespace AuthSeedSettings

variable (settings : AuthSeedSettings)

/-- The addresses of the four accounts. -/
def emails : List String :=
  [settings.analystEmail, settings.managerEmail, settings.auditorEmail, settings.platformEmail]

/-- The accounts in the order of `ROLES`, with the id and the salt that are drawn for each. -/
def accounts (drawn : AuthRole → Uuid × String) : List Account :=
  [⟨.analyst, settings.analystEmail, settings.analystPassword, (drawn .analyst).1,
      (drawn .analyst).2⟩,
    ⟨.manager, settings.managerEmail, settings.managerPassword, (drawn .manager).1,
      (drawn .manager).2⟩,
    ⟨.auditor, settings.auditorEmail, settings.auditorPassword, (drawn .auditor).1,
      (drawn .auditor).2⟩,
    ⟨.platform, settings.platformEmail, settings.platformPassword, (drawn .platform).1,
      (drawn .platform).2⟩]

end AuthSeedSettings

/-- The store with the password functions of a host. -/
def PasswordHost.store (host : PasswordHost) (store : PostgresAuthStore) : PostgresAuthStore :=
  { store with verifyPassword := host.verifyPassword, hashPassword := host.hashPassword }

/-- The host verifies the hash it made. -/
theorem PasswordHost.store_verify (host : PasswordHost) (store : PostgresAuthStore)
    (salt password : String) :
    (host.store store).verifyPassword password ((host.store store).hashPassword salt password) =
      true := by
  dsimp only [PasswordHost.store]
  exact host.verifyPassword_hashPassword salt password

/-! ## What a seeding is to do -/

/-- The email and the password are the configured ones. -/
def Account.Settled (store : PostgresAuthStore) (account : Account) (user : AuthUser) : Prop :=
  user.email = account.email ∧ store.verifyPassword account.password user.passwordHash = true

/-- What a seeding that commits has made of the users. -/
structure Seeded (store : PostgresAuthStore) (accounts : List Account) (db db' : AuthDb) :
    Prop where
  /-- One account for each role, and it has the configured email and password. -/
  settled : ∀ account ∈ accounts, ∃ user ∈ db'.users, user.role = account.role ∧
    Account.Settled store account user ∧ ∀ u ∈ db'.users, u.role = account.role → u = user
  /-- An account that did not change keeps its row and its sessions. -/
  kept : ∀ account ∈ accounts, ∀ user ∈ db.users, user.role = account.role →
    Account.Settled store account user →
      user ∈ db'.users ∧ ∀ session ∈ db.sessions, session.userId = user.id → session ∈ db'.sessions
  /-- An account that changed loses its lock and its sessions. -/
  changed : ∀ account ∈ accounts, ∀ user ∈ db.users, user.role = account.role →
    ¬Account.Settled store account user →
      (∃ u ∈ db'.users, u.id = user.id ∧ u.role = user.role ∧ u.lock = .fresh) ∧
        ∀ session ∈ db'.sessions, session.userId ≠ user.id

/-- A seeding is complete, and does what it is to do. -/
def Converges (store : PostgresAuthStore) (accounts : List Account) (db : AuthDb) : Prop :=
  ∃ db', accounts.foldlM store.reconcile db = some db' ∧ Seeded store accounts db db'

namespace Auth

/-- `gen_random_uuid()` draws ids that no account has. -/
def FreshIds (s : Auth) : Call → Prop
  | .seed accounts =>
    (accounts.map Account.newId).Nodup ∧
      ∀ account ∈ accounts, ∀ user ∈ s.db.users, user.id ≠ account.newId
  | _ => True

end Auth

/-! ## One account -/

/-- The unique constraints, and that the emails are texts. -/
structure AuthDb.Keyed (db : AuthDb) : Prop where
  ids : (db.users.map AuthUser.id).Nodup
  roles : (db.users.map AuthUser.role).Nodup
  emails : (db.users.map AuthUser.email).Nodup
  texts : ∀ user ∈ db.users, hasNul user.email = false

/-- No other account has the email. -/
def AuthDb.Free (db : AuthDb) (account : Account) : Prop :=
  hasNul account.email = false ∧
    ∀ user ∈ db.users, user.role ≠ account.role → user.email ≠ account.email

namespace PostgresAuthStore

variable {store : PostgresAuthStore}

/-- The row of an account that had none. -/
def inserted (store : PostgresAuthStore) (account : Account) : AuthUser :=
  ⟨account.newId, account.role, account.email, store.hashPassword account.salt account.password, 0,
    none⟩

/-- The row of an account that had one : its address and password are replaced, its lock is
lifted. -/
def rotated (store : PostgresAuthStore) (account : Account) (user : AuthUser) : AuthUser :=
  { user with
    email := account.email, passwordHash := store.hashPassword account.salt account.password
    failedAttempts := 0, lockedUntil := none }

/-- What `reconcile` does. -/
inductive Reconciled (store : PostgresAuthStore) (db : AuthDb) (account : Account) : AuthDb → Prop
  | inserted (hnone : ∀ user ∈ db.users, user.role ≠ account.role) :
      Reconciled store db account { db with users := db.users ++ [store.inserted account] }
  | rotated {user : AuthUser} (hu : user ∈ db.users) (hrole : user.role = account.role)
      (hchanged : ¬Account.Settled store account user) :
      Reconciled store db account
        ⟨replace AuthUser.id db.users (store.rotated account user),
          db.sessions.filter fun session => session.userId ≠ user.id⟩
  | kept {user : AuthUser} (hu : user ∈ db.users) (hrole : user.role = account.role)
      (hsettled : Account.Settled store account user) : Reconciled store db account db

/-- An account that is not settled has another e-mail or another password. -/
theorem settled_iff {account : Account} {user : AuthUser} :
    ¬Account.Settled store account user ↔
      user.email ≠ account.email ∨
        store.verifyPassword account.password user.passwordHash = false := by
  rw [Account.Settled, not_and_or, Bool.not_eq_true]

/-- With the account of the role, the statement fails where the email is not free. -/
theorem free_iff_of_mem {db : AuthDb} (hkeyed : db.Keyed) {account : Account} {user : AuthUser}
    (hu : user ∈ db.users) (hrole : user.role = account.role) :
    db.Free account ↔ (hasNul account.email ||
      db.users.any fun u => u.id ≠ user.id ∧ u.email = account.email) = false := by
  rw [Bool.or_eq_false_iff, List.any_eq_false]
  refine and_congr_right fun _ => forall₂_congr fun u hmem => ?_
  have hother : u.id ≠ user.id ↔ u.role ≠ account.role := by
    rw [← hrole]
    exact not_congr ⟨fun h => congrArg _ (List.inj_on_of_nodup_map hkeyed.ids hmem hu h),
      fun h => congrArg _ (List.inj_on_of_nodup_map hkeyed.roles hmem hu h)⟩
  rw [decide_eq_true_iff, hother, not_and]

/-- The e-mail of a settled account is free for it. -/
theorem free_of_settled {db : AuthDb} (hkeyed : db.Keyed) {account : Account} {user : AuthUser}
    (hu : user ∈ db.users) (hrole : user.role = account.role)
    (hsettled : Account.Settled store account user) : db.Free account := by
  refine ⟨hsettled.1 ▸ hkeyed.texts user hu, fun u hmem hne hemail => hne ?_⟩
  rw [List.inj_on_of_nodup_map hkeyed.emails hmem hu (hemail.trans hsettled.1.symm), hrole]

/-- A reconciliation succeeds just when the e-mail is free, and does what `Reconciled` says. -/
theorem reconcile_eq_some {db db' : AuthDb} (hkeyed : db.Keyed) {account : Account} :
    store.reconcile db account = some db' ↔
      db.Free account ∧ Reconciled store db account db' := by
  unfold reconcile
  dsimp only
  cases hfind : db.users.find? fun u => u.role = account.role with
  | none =>
    have hnone : ∀ user ∈ db.users, user.role ≠ account.role := by
      intro user hu hrole
      exact List.find?_eq_none.mp hfind user hu (decide_eq_true hrole)
    have hfree : db.Free account ↔
        (hasNul account.email || db.users.any fun u => u.email = account.email) = false := by
      rw [Bool.or_eq_false_iff, List.any_eq_false]
      refine and_congr_right fun _ => forall₂_congr fun u hmem => ?_
      rw [decide_eq_true_iff]
      exact ⟨fun h => h (hnone u hmem), fun h _ => h⟩
    dsimp only
    rw [hfree, Bool.eq_false_iff]
    constructor
    · intro h
      split_ifs at h with hany
      obtain rfl := Option.some.inj h
      exact ⟨hany, .inserted hnone⟩
    · rintro ⟨hany, hdb⟩
      rw [if_neg hany]
      cases hdb with
      | inserted => rfl
      | rotated hu hrole _ | kept hu hrole _ => exact absurd hrole (hnone _ hu)
  | some user =>
    have hu := List.mem_of_find?_eq_some hfind
    have hrole : user.role = account.role := of_decide_eq_true (List.find?_some hfind :)
    have hsame : ∀ u ∈ db.users, u.role = account.role → u = user := fun u hmem h =>
      List.inj_on_of_nodup_map hkeyed.roles hmem hu (h.trans hrole.symm)
    dsimp only
    by_cases hsettled : Account.Settled store account user
    · rw [if_neg fun h => settled_iff.mpr h hsettled]
      constructor
      · intro h
        obtain rfl := Option.some.inj h
        exact ⟨free_of_settled hkeyed hu hrole hsettled, .kept hu hrole hsettled⟩
      · rintro ⟨-, hdb⟩
        cases hdb with
        | inserted hnone => exact absurd hrole (hnone user hu)
        | rotated hu' hrole' hchanged =>
          rw [hsame _ hu' hrole'] at hchanged
          exact absurd hsettled hchanged
        | kept => rfl
    · rw [if_pos (settled_iff.mp hsettled), free_iff_of_mem hkeyed hu hrole, Bool.eq_false_iff]
      constructor
      · intro h
        split_ifs at h with hany
        obtain rfl := Option.some.inj h
        exact ⟨hany, .rotated hu hrole hsettled⟩
      · rintro ⟨hany, hdb⟩
        rw [if_neg hany]
        cases hdb with
        | inserted hnone => exact absurd hrole (hnone user hu)
        | rotated hu' hrole' _ =>
          rw [hsame _ hu' hrole']
          rfl
        | kept hu' hrole' hsettled' =>
          rw [hsame _ hu' hrole'] at hsettled'
          exact absurd hsettled' hsettled

/-- The users after a rotation. -/
theorem mem_rotated_iff {db : AuthDb} (hkeyed : db.Keyed) {user : AuthUser}
    (hu : user ∈ db.users) (account : Account) {u : AuthUser} :
    u ∈ replace AuthUser.id db.users (store.rotated account user) ↔
      u = store.rotated account user ∨ u ∈ db.users ∧ u.role ≠ user.role := by
  unfold replace
  rw [List.mem_map]
  constructor
  · rintro ⟨v, hv, rfl⟩
    split_ifs with hsame
    · exact .inl rfl
    · refine .inr ⟨hv, fun hrole => hsame ?_⟩
      rw [List.inj_on_of_nodup_map hkeyed.roles hv hu hrole]
      rfl
  · rintro (rfl | ⟨hmem, hrole⟩)
    · exact ⟨user, hu, if_pos rfl⟩
    · refine ⟨u, hmem, if_neg fun hsame => hrole ?_⟩
      rw [List.inj_on_of_nodup_map hkeyed.ids hmem hu hsame]

/-- A column stays unique if the account that changed differs in it from the others. -/
theorem nodup_rotated {α : Type} {f : AuthUser → α} {db : AuthDb} (hkeyed : db.Keyed)
    {user : AuthUser} (hu : user ∈ db.users) (account : Account)
    (hf : (db.users.map f).Nodup)
    (hne : ∀ u ∈ db.users, u.role ≠ user.role → f u ≠ f (store.rotated account user)) :
    ((replace AuthUser.id db.users (store.rotated account user)).map f).Nodup := by
  have hrows : (replace AuthUser.id db.users (store.rotated account user)).Nodup := by
    refine List.Nodup.of_map AuthUser.id ?_
    rw [map_key_replace]
    exact hkeyed.ids
  refine hrows.map_on fun u hmem v hmem' heq => ?_
  rcases (mem_rotated_iff hkeyed hu account).mp hmem with rfl | ⟨hold, hrole⟩
  · rcases (mem_rotated_iff hkeyed hu account).mp hmem' with rfl | ⟨hold', hrole'⟩
    · rfl
    · exact absurd heq.symm (hne v hold' hrole')
  · rcases (mem_rotated_iff hkeyed hu account).mp hmem' with rfl | ⟨hold', hrole'⟩
    · exact absurd heq (hne u hold hrole)
    · exact List.inj_on_of_nodup_map hf hold hold' heq

/-- There is always one of the three. -/
theorem exists_reconciled (store : PostgresAuthStore) (db : AuthDb) (account : Account) :
    ∃ db', Reconciled store db account db' := by
  by_cases hnone : ∀ user ∈ db.users, user.role ≠ account.role
  · exact ⟨_, .inserted hnone⟩
  · push Not at hnone
    obtain ⟨user, hu, hrole⟩ := hnone
    by_cases hsettled : Account.Settled store account user
    · exact ⟨_, .kept hu hrole hsettled⟩
    · exact ⟨_, .rotated hu hrole hsettled⟩

section

variable {db db' : AuthDb} {account : Account}

/-- The accounts of the other roles stay. -/
theorem Reconciled.mem_iff (h : Reconciled store db account db') (hkeyed : db.Keyed)
    {user : AuthUser} (hrole : user.role ≠ account.role) :
    user ∈ db'.users ↔ user ∈ db.users := by
  cases h with
  | inserted _ =>
    rw [List.mem_append, List.mem_singleton, or_iff_left]
    rintro rfl
    exact hrole rfl
  | rotated hu hrole' _ =>
    rw [mem_rotated_iff hkeyed hu account, hrole', and_iff_left hrole, or_iff_right]
    rintro rfl
    exact hrole hrole'
  | kept => rfl

/-- A reconciled account is settled. -/
theorem Reconciled.settled (h : Reconciled store db account db') (hkeyed : db.Keyed)
    (hverify : ∀ salt password,
      store.verifyPassword password (store.hashPassword salt password) = true) :
    ∃ user ∈ db'.users, user.role = account.role ∧ Account.Settled store account user := by
  cases h with
  | inserted _ =>
    exact ⟨_, List.mem_append_right _ (List.mem_singleton_self _), rfl, rfl, hverify _ _⟩
  | rotated hu hrole _ =>
    exact ⟨_, (mem_rotated_iff hkeyed hu account).mpr (.inl rfl), hrole, rfl, hverify _ _⟩
  | kept hu hrole hsettled => exact ⟨_, hu, hrole, hsettled⟩

/-- Exactly the sessions of an account that changed are deleted. -/
theorem Reconciled.mem_sessions_iff (h : Reconciled store db account db') (hkeyed : db.Keyed)
    {session : AuthSession} :
    session ∈ db'.sessions ↔ session ∈ db.sessions ∧ ∀ user ∈ db.users,
      user.role = account.role → ¬Account.Settled store account user →
        session.userId ≠ user.id := by
  cases h with
  | inserted hnone => exact (and_iff_left fun user hu hrole => absurd hrole (hnone user hu)).symm
  | rotated hu hrole hchanged =>
    rw [List.mem_filter, decide_eq_true_iff]
    refine and_congr_right fun _ => ⟨fun h u hmem hrole' _ => ?_, fun h => h _ hu hrole hchanged⟩
    rwa [List.inj_on_of_nodup_map hkeyed.roles hmem hu (hrole'.trans hrole.symm)]
  | kept hu hrole hsettled =>
    refine (and_iff_left fun u hmem hrole' hchanged => absurd ?_ hchanged).symm
    rwa [List.inj_on_of_nodup_map hkeyed.roles hmem hu (hrole'.trans hrole.symm)]

/-- A user of a settled account is kept as it is. -/
theorem Reconciled.kept_mem (h : Reconciled store db account db') (hkeyed : db.Keyed)
    {user : AuthUser} (hu : user ∈ db.users) (hrole : user.role = account.role)
    (hsettled : Account.Settled store account user) : user ∈ db'.users := by
  cases h with
  | inserted hnone => exact absurd hrole (hnone user hu)
  | rotated hu' hrole' hchanged =>
    rw [List.inj_on_of_nodup_map hkeyed.roles hu' hu (hrole'.trans hrole.symm)] at hchanged
    exact absurd hsettled hchanged
  | kept => exact hu

/-- Any other is rotated. -/
theorem Reconciled.changed_mem (h : Reconciled store db account db') (hkeyed : db.Keyed)
    {user : AuthUser} (hu : user ∈ db.users) (hrole : user.role = account.role)
    (hchanged : ¬Account.Settled store account user) :
    ∃ u ∈ db'.users, u.id = user.id ∧ u.role = user.role ∧ u.lock = .fresh := by
  cases h with
  | inserted hnone => exact absurd hrole (hnone user hu)
  | rotated hu' hrole' _ =>
    obtain rfl := List.inj_on_of_nodup_map hkeyed.roles hu' hu (hrole'.trans hrole.symm)
    exact ⟨_, (mem_rotated_iff hkeyed hu account).mpr (.inl rfl), rfl, rfl, rfl⟩
  | kept hu' hrole' hsettled =>
    rw [List.inj_on_of_nodup_map hkeyed.roles hu' hu (hrole'.trans hrole.symm)] at hsettled
    exact absurd hsettled hchanged

/-- A reconciliation adds at most one user, at the end. -/
theorem Reconciled.ids (h : Reconciled store db account db') :
    db'.users.map AuthUser.id = db.users.map AuthUser.id ∨
      db'.users.map AuthUser.id = db.users.map AuthUser.id ++ [account.newId] := by
  cases h with
  | inserted _ =>
    right
    rw [List.map_append]
    rfl
  | rotated hu _ _ => exact .inl (map_key_replace ..)
  | kept => exact .inl rfl

/-- The ids that are drawn for later accounts stay fresh. -/
theorem Reconciled.fresh (h : Reconciled store db account db') {accounts : List Account}
    (hids : ((account :: accounts).map Account.newId).Nodup)
    (hfresh : ∀ a ∈ account :: accounts, ∀ user ∈ db.users, user.id ≠ a.newId) :
    ∀ later ∈ accounts, ∀ user ∈ db'.users, user.id ≠ later.newId := by
  intro later hlater user hu hid
  have hmem : user.id ∈ db'.users.map AuthUser.id := List.mem_map_of_mem hu
  have hold : ∀ {id}, id ∈ db.users.map AuthUser.id → id ≠ later.newId := by
    intro id hid
    obtain ⟨u, hu, rfl⟩ := List.mem_map.mp hid
    exact hfresh later (List.mem_cons_of_mem _ hlater) u hu
  rcases h.ids with hsame | hsnoc
  · rw [hsame] at hmem
    exact hold hmem hid
  · rw [hsnoc, List.mem_append, List.mem_singleton] at hmem
    rcases hmem with hmem | hmem
    · exact hold hmem hid
    · refine (List.nodup_cons.mp hids).1 ?_
      rw [← hmem, hid]
      exact List.mem_map_of_mem hlater

/-- It keeps the keys of the users distinct. -/
theorem Reconciled.keyed (h : Reconciled store db account db') (hkeyed : db.Keyed)
    (hfree : db.Free account) (hnew : ∀ user ∈ db.users, user.id ≠ account.newId) :
    db'.Keyed := by
  have hsnoc : ∀ {α : Type} (f : AuthUser → α) (u : AuthUser), (db.users.map f).Nodup →
      (∀ user ∈ db.users, f user ≠ f u) → ((db.users ++ [u]).map f).Nodup := by
    intro α f u hf hne
    rw [List.map_append, List.map_singleton, List.nodup_append]
    refine ⟨hf, List.nodup_singleton _, fun a ha b hb => ?_⟩
    obtain ⟨v, hv, rfl⟩ := List.mem_map.mp ha
    obtain rfl := List.mem_singleton.mp hb
    exact hne v hv
  cases h with
  | inserted hnone =>
    refine ⟨hsnoc _ _ hkeyed.ids hnew, hsnoc _ _ hkeyed.roles hnone,
      hsnoc _ _ hkeyed.emails fun u hu => hfree.2 u hu (hnone u hu), ?_⟩
    rintro u hu
    rcases List.mem_append.mp hu with hu | hu
    · exact hkeyed.texts u hu
    · obtain rfl := List.mem_singleton.mp hu
      exact hfree.1
  | rotated hu hrole _ =>
    refine ⟨?_, ?_, ?_, ?_⟩
    · rw [map_key_replace]
      exact hkeyed.ids
    · exact nodup_rotated hkeyed hu account hkeyed.roles fun u _ hne => hne
    · exact nodup_rotated hkeyed hu account hkeyed.emails fun u hmem hne =>
        hfree.2 u hmem (hrole ▸ hne)
    · rintro u hmem
      rcases (mem_rotated_iff hkeyed hu account).mp hmem with rfl | ⟨hmem, -⟩
      · exact hfree.1
      · exact hkeyed.texts u hmem
  | kept => exact hkeyed

end

/-! ## All the accounts -/

/-- Accounts that can be reconciled one after the other : what they ask for is distinct, and the
accounts of other roles do not have their emails. -/
structure Ready (db : AuthDb) (accounts : List Account) : Prop where
  keyed : db.Keyed
  roles : (accounts.map Account.role).Nodup
  emails : (accounts.map Account.email).Nodup
  ids : (accounts.map Account.newId).Nodup
  fresh : ∀ account ∈ accounts, ∀ user ∈ db.users, user.id ≠ account.newId
  others : ∀ user ∈ db.users, user.role ∉ accounts.map Account.role →
    user.email ∉ accounts.map Account.email

/-- No account has the email that an earlier one is to get. -/
def Orderly (db : AuthDb) (accounts : List Account) : Prop :=
  accounts.Pairwise fun earlier later =>
    ∀ user ∈ db.users, user.role = later.role → user.email ≠ earlier.email

section

variable {db db' : AuthDb} {account : Account} {accounts : List Account}

/-- The accounts have distinct roles. -/
theorem Ready.role_ne (h : Ready db (account :: accounts)) {later : Account}
    (hlater : later ∈ accounts) : later.role ≠ account.role := fun he =>
  (List.nodup_cons.mp h.roles).1 (he ▸ List.mem_map_of_mem hlater)

/-- What is left of the accounts can be seeded after the first. -/
theorem Ready.tail (h : Ready db (account :: accounts)) (hfree : db.Free account)
    (hdb : Reconciled store db account db')
    (hverify : ∀ salt password,
      store.verifyPassword password (store.hashPassword salt password) = true) :
    Ready db' accounts := by
  have hkeyed := hdb.keyed h.keyed hfree (h.fresh account List.mem_cons_self)
  refine ⟨hkeyed, (List.nodup_cons.mp h.roles).2, (List.nodup_cons.mp h.emails).2,
    (List.nodup_cons.mp h.ids).2, hdb.fresh h.ids h.fresh, fun user hu hnot => ?_⟩
  by_cases hrole : user.role = account.role
  · obtain ⟨holder, hmem, hrole', hsettled⟩ := hdb.settled h.keyed hverify
    rw [List.inj_on_of_nodup_map hkeyed.roles hu hmem (hrole.trans hrole'.symm), hsettled.1]
    exact (List.nodup_cons.mp h.emails).1
  · have hold := (hdb.mem_iff h.keyed hrole).mp hu
    have hforeign := h.others user hold (List.not_mem_cons_of_ne_of_not_mem hrole hnot)
    exact fun hmem => hforeign (List.mem_cons_of_mem _ hmem)

/-- The email of the first account is free if no later account has it. -/
theorem Ready.free_iff (h : Ready db (account :: accounts)) :
    db.Free account ↔ hasNul account.email = false ∧ ∀ later ∈ accounts,
      ∀ user ∈ db.users, user.role = later.role → user.email ≠ account.email := by
  refine and_congr_right fun _ => ⟨fun hfree later hlater user hu hrole => ?_, ?_⟩
  · exact hfree user hu (hrole ▸ h.role_ne hlater)
  · intro hlater user hu hrole
    by_cases hmem : user.role ∈ accounts.map Account.role
    · obtain ⟨later, hl, he⟩ := List.mem_map.mp hmem
      exact hlater later hl user hu he.symm
    · intro he
      refine h.others user hu (List.not_mem_cons_of_ne_of_not_mem hrole hmem) ?_
      exact he ▸ List.mem_cons_self

/-- The run is complete exactly when no earlier account is to get an email that is in use. -/
theorem foldlM_reconcile_iff
    (hverify : ∀ salt password,
      store.verifyPassword password (store.hashPassword salt password) = true) :
    ∀ {accounts : List Account} {db : AuthDb}, Ready db accounts →
      ((∃ db', accounts.foldlM store.reconcile db = some db') ↔
        (∀ account ∈ accounts, hasNul account.email = false) ∧ Orderly db accounts) := by
  intro accounts
  induction accounts with
  | nil =>
    exact fun _ => ⟨fun _ => ⟨fun _ => nofun, .nil⟩, fun _ => ⟨_, rfl⟩⟩
  | cons account accounts ih =>
    intro db h
    have horderly : ∀ {db₁}, Reconciled store db account db₁ →
        (Orderly db₁ accounts ↔ Orderly db accounts) := by
      intro db₁ hdb
      refine List.Pairwise.iff_of_mem fun {earlier later} _ hlater => ?_
      have hrole := h.role_ne hlater
      exact ⟨fun hall user hu he => hall user ((hdb.mem_iff h.keyed (he ▸ hrole)).mpr hu) he,
        fun hall user hu he => hall user ((hdb.mem_iff h.keyed (he ▸ hrole)).mp hu) he⟩
    rw [List.forall_mem_cons, Orderly, List.pairwise_cons]
    constructor
    · rintro ⟨db', hrun⟩
      obtain ⟨db₁, hfirst, hrest⟩ := Option.bind_eq_some_iff.mp hrun
      obtain ⟨hfree, hdb⟩ := (reconcile_eq_some h.keyed).mp hfirst
      obtain ⟨htexts, hlater⟩ := (ih (h.tail hfree hdb hverify)).mp ⟨db', hrest⟩
      obtain ⟨htext, hnone⟩ := h.free_iff.mp hfree
      exact ⟨⟨htext, htexts⟩, hnone, (horderly hdb).mp hlater⟩
    · rintro ⟨⟨htext, htexts⟩, hnone, hlater⟩
      have hfree := h.free_iff.mpr ⟨htext, hnone⟩
      obtain ⟨db₁, hdb⟩ := exists_reconciled store db account
      obtain ⟨db', hrest⟩ :=
        (ih (h.tail hfree hdb hverify)).mpr ⟨htexts, (horderly hdb).mpr hlater⟩
      exact ⟨db', Option.bind_eq_some_iff.mpr
        ⟨db₁, (reconcile_eq_some h.keyed).mpr ⟨hfree, hdb⟩, hrest⟩⟩

/-- One account, and the run of the others. -/
theorem Ready.run_cons (h : Ready db (account :: accounts))
    (hverify : ∀ salt password,
      store.verifyPassword password (store.hashPassword salt password) = true)
    (hrun : (account :: accounts).foldlM store.reconcile db = some db') :
    ∃ db₁, Reconciled store db account db₁ ∧ Ready db₁ accounts ∧
      accounts.foldlM store.reconcile db₁ = some db' := by
  obtain ⟨db₁, hfirst, hrest⟩ := Option.bind_eq_some_iff.mp hrun
  obtain ⟨hfree, hdb⟩ := (reconcile_eq_some h.keyed).mp hfirst
  exact ⟨db₁, hdb, h.tail hfree hdb hverify, hrest⟩

/-- A session of an account with another role is not deleted. -/
theorem Reconciled.session_iff (h : Reconciled store db account db') (hkeyed : db.Keyed)
    {user : AuthUser} (hu : user ∈ db.users) (hrole : user.role ≠ account.role)
    {session : AuthSession} (hid : session.userId = user.id) :
    session ∈ db'.sessions ↔ session ∈ db.sessions := by
  rw [h.mem_sessions_iff hkeyed]
  refine and_iff_left fun u hmem hrole' _ he => hrole ?_
  rw [List.inj_on_of_nodup_map hkeyed.ids hu hmem (hid.symm.trans he), hrole']

/-- A run leaves the accounts of the other roles as they are. -/
theorem Ready.frame
    (hverify : ∀ salt password,
      store.verifyPassword password (store.hashPassword salt password) = true) :
    ∀ {accounts : List Account} {db : AuthDb}, Ready db accounts →
      accounts.foldlM store.reconcile db = some db' → db'.Keyed ∧
        (∀ session ∈ db'.sessions, session ∈ db.sessions) ∧
        ∀ user ∈ db.users, user.role ∉ accounts.map Account.role → user ∈ db'.users ∧
          ∀ session ∈ db.sessions, session.userId = user.id → session ∈ db'.sessions := by
  intro accounts
  induction accounts with
  | nil =>
    intro db h hrun
    obtain rfl := Option.some.inj hrun
    exact ⟨h.keyed, fun _ hs => hs, fun user hu _ => ⟨hu, fun _ hs _ => hs⟩⟩
  | cons account accounts ih =>
    intro db h hrun
    obtain ⟨db₁, hdb, hready, hrest⟩ := h.run_cons hverify hrun
    obtain ⟨hkeyed, hsub, hframe⟩ := ih hready hrest
    refine ⟨hkeyed, fun session hs => ((hdb.mem_sessions_iff h.keyed).mp (hsub session hs)).1,
      fun user hu hnot => ?_⟩
    rw [List.map_cons, List.mem_cons, not_or] at hnot
    obtain ⟨hmem, hsessions⟩ := hframe user ((hdb.mem_iff h.keyed hnot.1).mpr hu) hnot.2
    exact ⟨hmem, fun session hs hid =>
      hsessions session ((hdb.session_iff h.keyed hu hnot.1 hid).mpr hs) hid⟩

/-- A complete run does what it is to do. -/
theorem Ready.seeded
    (hverify : ∀ salt password,
      store.verifyPassword password (store.hashPassword salt password) = true) :
    ∀ {accounts : List Account} {db : AuthDb}, Ready db accounts →
      accounts.foldlM store.reconcile db = some db' → Seeded store accounts db db' := by
  intro accounts
  induction accounts with
  | nil => exact fun _ _ => ⟨fun _ => nofun, fun _ => nofun, fun _ => nofun⟩
  | cons account accounts ih =>
    intro db h hrun
    obtain ⟨db₁, hdb, hready, hrest⟩ := h.run_cons hverify hrun
    obtain ⟨hkeyed, hsub, hframe⟩ := hready.frame hverify hrest
    have hseeded := ih hready hrest
    have hnot := (List.nodup_cons.mp h.roles).1
    refine ⟨?_, ?_, ?_⟩
    · rw [List.forall_mem_cons]
      refine ⟨?_, hseeded.settled⟩
      obtain ⟨user, hu, hrole, hsettled⟩ := hdb.settled h.keyed hverify
      have hmem := (hframe user hu (hrole ▸ hnot)).1
      exact ⟨user, hmem, hrole, hsettled, fun u hu' hrole' =>
        List.inj_on_of_nodup_map hkeyed.roles hu' hmem (hrole'.trans hrole.symm)⟩
    · rw [List.forall_mem_cons]
      constructor
      · intro user hu hrole hsettled
        have hkept := hdb.kept_mem h.keyed hu hrole hsettled
        obtain ⟨hmem, hsessions⟩ := hframe user hkept (hrole ▸ hnot)
        refine ⟨hmem, fun session hs hid => hsessions session ?_ hid⟩
        refine (hdb.mem_sessions_iff h.keyed).mpr ⟨hs, fun u hu' hrole' hchanged _ => ?_⟩
        rw [List.inj_on_of_nodup_map h.keyed.roles hu' hu (hrole'.trans hrole.symm)] at hchanged
        exact hchanged hsettled
      · intro later hlater user hu hrole hsettled
        have hne : user.role ≠ account.role := hrole ▸ h.role_ne hlater
        obtain ⟨hmem, hsessions⟩ := hseeded.kept later hlater user
          ((hdb.mem_iff h.keyed hne).mpr hu) hrole hsettled
        exact ⟨hmem, fun session hs hid =>
          hsessions session ((hdb.session_iff h.keyed hu hne hid).mpr hs) hid⟩
    · rw [List.forall_mem_cons]
      constructor
      · intro user hu hrole hchanged
        obtain ⟨u, hmem, hid, hrole', hlock⟩ := hdb.changed_mem h.keyed hu hrole hchanged
        refine ⟨⟨u, (hframe u hmem (hrole' ▸ hrole ▸ hnot)).1, hid, hrole', hlock⟩, ?_⟩
        exact fun session hs =>
          ((hdb.mem_sessions_iff h.keyed).mp (hsub session hs)).2 user hu hrole hchanged
      · intro later hlater user hu hrole hchanged
        have hne : user.role ≠ account.role := hrole ▸ h.role_ne hlater
        exact hseeded.changed later hlater user ((hdb.mem_iff h.keyed hne).mpr hu) hrole hchanged

end

end PostgresAuthStore

/-! ## Reachable states -/

namespace Auth

variable {store : PostgresAuthStore}

/-- At the start there are no users. -/
theorem keyed_start (now : Instant) : (start now).db.Keyed :=
  ⟨List.nodup_nil, List.nodup_nil, List.nodup_nil, fun _ => nofun⟩

/-- A login changes the lock of an account only. -/
theorem keyed_login (store : PostgresAuthStore) {db : AuthDb} (h : db.Keyed) (now : Instant)
    (email password key : String) : (store.login db now email password key).1.Keyed := by
  rw [login_eq_answer]
  cases hfind : findUser db (store.normalize email) with
  | none => exact h
  | some user =>
    have hu := List.mem_of_find?_eq_some hfind
    obtain ⟨lock, husers, -⟩ := answer_sound store h.ids hu now password key
    have hcolumn : ∀ {α : Type} (f : AuthUser → α), f (withLock user lock) = f user →
        (store.answer db now (some user) password key).1.users.map f = db.users.map f := by
      intro α f hf
      rw [husers, setUser_users, replace, List.map_map]
      refine List.map_congr_left fun u hmem => ?_
      rw [Function.comp_apply]
      split_ifs with hid
      · rw [List.inj_on_of_nodup_map h.ids hmem hu hid, hf]
      · rfl
    have hid := hcolumn AuthUser.id rfl
    have hrole := hcolumn AuthUser.role rfl
    have hemail := hcolumn AuthUser.email rfl
    refine ⟨hid ▸ h.ids, hrole ▸ h.roles, hemail ▸ h.emails, fun user hu => ?_⟩
    obtain ⟨u, hu', he⟩ := List.mem_map.mp (hemail ▸ List.mem_map_of_mem hu)
    exact he ▸ h.texts u hu'

/-- A seeding keeps the keys of the users distinct. -/
theorem keyed_seed (store : PostgresAuthStore) {accounts : List Account} :
    ∀ {db db' : AuthDb}, db.Keyed → (accounts.map Account.newId).Nodup →
      (∀ account ∈ accounts, ∀ user ∈ db.users, user.id ≠ account.newId) →
      accounts.foldlM store.reconcile db = some db' → db'.Keyed := by
  induction accounts with
  | nil =>
    intro db db' h _ _ hrun
    obtain rfl := Option.some.inj hrun
    exact h
  | cons account accounts ih =>
    intro db db' h hids hfresh hrun
    obtain ⟨db₁, hfirst, hrest⟩ := Option.bind_eq_some_iff.mp hrun
    obtain ⟨hfree, hdb⟩ := (reconcile_eq_some h).mp hfirst
    exact ih (hdb.keyed h hfree (hfresh account List.mem_cons_self)) (List.nodup_cons.mp hids).2
      (hdb.fresh hids hfresh) hrest

/-- So does every call. -/
theorem keyed_step {s : Auth} {call : Call} (h : s.db.Keyed) (hfresh : s.FreshIds call) :
    (s.step store call).db.Keyed := by
  cases call with
  | login email password key => exact keyed_login store h s.now email password key
  | logout token =>
    unfold step logout
    dsimp only
    split_ifs
    · exact ⟨h.ids, h.roles, h.emails, h.texts⟩
    · exact h
  | seed accounts =>
    unfold step seed
    dsimp only
    cases hrun : accounts.foldlM store.reconcile s.db with
    | none => exact h
    | some db' => exact keyed_seed store h hfresh.1 hfresh.2 hrun
  | advance time => exact h

end Auth

namespace AuthSeedSettings

variable (settings : AuthSeedSettings) (drawn : AuthRole → Uuid × String)

/-- The accounts have the e-mails of the settings. -/
theorem accounts_emails : (settings.accounts drawn).map Account.email = settings.emails :=
  rfl

/-- Every role has an account. -/
theorem role_mem (role : AuthRole) : role ∈ (settings.accounts drawn).map Account.role := by
  cases role <;> simp [accounts]

/-- The accounts of accepted settings can be seeded. -/
theorem ready {s : Auth} (hkeyed : s.db.Keyed)
    (hfresh : s.FreshIds (.seed (settings.accounts drawn))) :
    Ready s.db (settings.accounts drawn) where
  keyed := hkeyed
  roles := by
    change [AuthRole.analyst, .manager, .auditor, .platform].Nodup
    decide
  emails := settings.distinct
  ids := hfresh.1
  fresh := hfresh.2
  others user _ hnot := absurd (settings.role_mem drawn user.role) hnot

end AuthSeedSettings

/-- After any earlier calls, a seeding with accepted settings is complete and does what it is to
do exactly when every email is a text of Postgres and none is in use by a later role. -/
theorem seed_converges_iff (host : PasswordHost) (store : PostgresAuthStore) (now : Instant)
    (calls : List Auth.Call) (settings : AuthSeedSettings) (drawn : AuthRole → Uuid × String)
    (h : Trace.Meets (Auth.step (host.store store)) Auth.FreshIds (Auth.start now)
      (calls ++ [Auth.Call.seed (settings.accounts drawn)])) :
    let db := (Trace.run (Auth.step (host.store store)) (Auth.start now) calls).db
    Converges (host.store store) (settings.accounts drawn) db ↔
      (∀ email ∈ settings.emails, hasNul email = false) ∧
        Orderly db (settings.accounts drawn) := by
  intro db
  have hverify := host.store_verify store
  have hstep : ∀ (s : Auth) call, s.db.Keyed → s.FreshIds call →
      (s.step (host.store store) call).db.Keyed := fun _ _ hs hok => Auth.keyed_step hs hok
  obtain ⟨hkeyed, hfresh⟩ := Trace.Meets.at_step hstep (Auth.keyed_start now) h
  have hready := settings.ready drawn hkeyed hfresh
  rw [← settings.accounts_emails drawn, List.forall_mem_map, ← foldlM_reconcile_iff hverify hready]
  exact ⟨fun ⟨db', hrun, _⟩ => ⟨db', hrun⟩,
    fun ⟨db', hrun⟩ => ⟨db', hrun, hready.seeded hverify hrun⟩⟩

namespace AuthSeedSettings

/-- A host whose digests are the password and the salt themselves. -/
def sampleHost : PasswordHost where
  scrypt password salt := password ++ salt
  int text := if text.all Char.isDigit then some (Nat.ofDigitChars 10 text 0) else none
  int_repr n := by
    have hdigits : n.repr.toList.all Char.isDigit := by
      rw [Nat.toList_repr, List.all_eq_true]
      exact fun c hc => Nat.isDigit_of_mem_toDigits (by decide) (by decide) hc
    rw [if_pos hdigits, Nat.toList_repr, Nat.ofDigitChars_toDigits (by decide) (by decide)]

/-- Settings of a test system. -/
def sample : AuthSeedSettings where
  analystEmail := "analyst@example.test"
  analystPassword := "synthetic-analyst-password"
  managerEmail := "manager@example.test"
  managerPassword := "synthetic-manager-password"
  auditorEmail := "auditor@example.test"
  auditorPassword := "synthetic-auditor-password"
  platformEmail := "platform@example.test"
  platformPassword := "synthetic-platform-password"
  emails_valid := by decide
  passwords_valid := by decide
  distinct := by decide

/-- The analyst and the manager change their emails. -/
def swapped : AuthSeedSettings where
  analystEmail := "manager@example.test"
  analystPassword := "synthetic-analyst-password"
  managerEmail := "analyst@example.test"
  managerPassword := "synthetic-manager-password"
  auditorEmail := "auditor@example.test"
  auditorPassword := "synthetic-auditor-password"
  platformEmail := "platform@example.test"
  platformPassword := "synthetic-platform-password"
  emails_valid := by decide
  passwords_valid := by decide
  distinct := by decide

/-- Ids from a number on. -/
def drawnFrom (n : ℕ) : AuthRole → Uuid × String
  | .analyst => (n, "salt-0")
  | .manager => (n + 1, "salt-1")
  | .auditor => (n + 2, "salt-2")
  | .platform => (n + 3, "salt-3")

end AuthSeedSettings

open AuthSeedSettings in
/-- The theorem applies to two seedings with the same passwords and other salts. -/
theorem seed_converges_sample :
    Trace.Meets (Auth.step (sampleHost.store Auth.sampleStore)) Auth.FreshIds (Auth.start 0)
        [.seed (sample.accounts (drawnFrom 1)), .seed (sample.accounts (drawnFrom 5))] ∧
      (Converges (sampleHost.store Auth.sampleStore) (sample.accounts (drawnFrom 5))
          (Trace.run (Auth.step (sampleHost.store Auth.sampleStore)) (Auth.start 0)
            [.seed (sample.accounts (drawnFrom 1))]).db ↔
        (∀ email ∈ sample.emails, hasNul email = false) ∧
          Orderly (Trace.run (Auth.step (sampleHost.store Auth.sampleStore)) (Auth.start 0)
            [.seed (sample.accounts (drawnFrom 1))]).db (sample.accounts (drawnFrom 5))) := by
  have h : Trace.Meets (Auth.step (sampleHost.store Auth.sampleStore)) Auth.FreshIds
      (Auth.start 0)
      ([Auth.Call.seed (sample.accounts (drawnFrom 1))] ++
        [Auth.Call.seed (sample.accounts (drawnFrom 5))]) := by
    refine ⟨⟨by decide, fun _ _ _ => nofun⟩, ⟨by decide, ?_⟩, trivial⟩
    decide
  exact ⟨h, seed_converges_iff sampleHost Auth.sampleStore 0 _ sample (drawnFrom 5) h⟩

open AuthSeedSettings in
/-- Two roles that change emails : the first update takes an email that is in use. -/
theorem seed_swap_fails :
    Trace.Meets (Auth.step (sampleHost.store Auth.sampleStore)) Auth.FreshIds (Auth.start 0)
        [.seed (sample.accounts (drawnFrom 1)), .seed (swapped.accounts (drawnFrom 5))] ∧
      ¬Converges (sampleHost.store Auth.sampleStore) (swapped.accounts (drawnFrom 5))
        (Trace.run (Auth.step (sampleHost.store Auth.sampleStore)) (Auth.start 0)
          [.seed (sample.accounts (drawnFrom 1))]).db := by
  refine ⟨⟨⟨by decide, fun _ _ _ => nofun⟩, ⟨by decide, by decide⟩, trivial⟩, ?_⟩
  rintro ⟨db', hrun, -⟩
  have hnone : (swapped.accounts (drawnFrom 5)).foldlM
      (sampleHost.store Auth.sampleStore).reconcile
      (Trace.run (Auth.step (sampleHost.store Auth.sampleStore)) (Auth.start 0)
        [.seed (sample.accounts (drawnFrom 1))]).db = none := by
    rfl
  rw [hnone] at hrun
  cases hrun

end InvoiceOps
