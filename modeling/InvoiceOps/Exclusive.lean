import InvoiceOps.ReadCommitted

/-!
# Transactions under one lock

A `Txn` is the body of a transaction as what its statements make of the view they find, and
`Txn.on` is what the whole body makes of one database. If every write stands under one lock
and the transaction takes that lock first, nothing is written between its statements : each
call ends as its body does on one database it met (`exclusive_verified`), and alone it ends so
on the database it was called in (`runAlone_exclusive`).

`called_after` : what lasts under every write holds where any later call is entered.
-/

set_option linter.unusedSectionVars false

namespace ReadCommitted

open Shared

/-- The body of a transaction. A statement answers with the writes it makes. -/
inductive Txn (Db W ε α : Type) : Type 1 where
  | ret (a : α)
  | raise (e : ε)
  | sql {R : Type} (run : Db → Except SqlError (R × List W)) (k : R → Txn Db W ε α)

namespace Txn

variable {Db W ε α β R : Type}

/-- The transaction goes on with what the first part returned. -/
def bind : Txn Db W ε α → (α → Txn Db W ε β) → Txn Db W ε β
  | ret a, f => f a
  | raise e, _ => raise e
  | sql run k, f => sql run fun r => (k r).bind f

instance : Monad (Txn Db W ε) where
  pure := ret
  bind := bind

instance : MonadExcept ε (Txn Db W ε) where
  throw := raise
  tryCatch
    | ret a, _ => ret a
    | raise e, h => h e
    | sql run k, _ => sql run k

/-- A query ; it cannot fail. -/
def read (f : Db → R) : Txn Db W ε R :=
  sql (fun d => .ok (f d, [])) ret

/-- An insert breaks the constraint `conflict` names, or writes `w`. -/
def insert (conflict : Db → Option String) (w : W) : Txn Db W ε Unit :=
  sql (fun d => (conflict d).elim (.ok ((), [w])) fun name => .error (.violation name)) ret

/-- A computation of the client, between two statements. -/
def ofExcept : Except ε α → Txn Db W ε α
  | .ok a => ret a
  | .error e => raise e

end Txn

/-- What a transaction commits if it ends so. -/
def written {W ε α : Type} : Except ε (α × List W) → List W
  | .ok (_, ws) => ws
  | .error _ => []

section

variable {ι A Db W Lock ε α β R Call : Type} (S : Schema Db W Lock)

/-- `d'` is `d` after some writes. -/
def Schema.Reaches (d d' : Db) : Prop :=
  ∃ ws, d' = S.applyAll d ws

variable {S}

/-- A store is reached from itself. -/
theorem Schema.Reaches.refl (d : Db) : S.Reaches d d :=
  ⟨[], rfl⟩

/-- What is reached from what is reached is reached. -/
theorem Schema.Reaches.trans {d d' d'' : Db} (h : S.Reaches d d') (h' : S.Reaches d' d'') :
    S.Reaches d d'' := by
  obtain ⟨ws, rfl⟩ := h
  obtain ⟨ws', rfl⟩ := h'
  exact ⟨ws ++ ws', (S.applyAll_append _ _ _).symm⟩

/-- What every write keeps is kept. -/
theorem Schema.Reaches.lasting {d d' : Db} {p : Db → Prop} (h : S.Reaches d d')
    (hp : ∀ d w, p d → p (S.apply d w)) (h₀ : p d) : p d' := by
  obtain ⟨ws, rfl⟩ := h
  exact S.applyAll_induction (fun d w _ => hp d w) h₀

variable (S) [OfSql ε]

/-! ## On one database -/

namespace Txn

/-- What the body makes of a database that nobody else writes to. -/
def on : Txn Db W ε α → Db → Except ε (α × List W)
  | ret a, _ => .ok (a, [])
  | raise e, _ => .error e
  | sql run k, d =>
    match run d with
    | .error e => .error (OfSql.ofSql e)
    | .ok (r, ws) => ((k r).on (S.applyAll d ws)).map fun out => (out.1, ws ++ out.2)

@[simp] theorem on_pure (a : α) (d : Db) :
    (pure a : Txn Db W ε α).on S d = .ok (a, []) := rfl

@[simp] theorem on_throw (e : ε) (d : Db) :
    (throw e : Txn Db W ε α).on S d = .error e := rfl

@[simp] theorem on_ofExcept (x : Except ε α) (d : Db) :
    (ofExcept x : Txn Db W ε α).on S d = x.map fun a => (a, []) := by
  cases x <;> rfl

@[simp] theorem on_read (f : Db → R) (d : Db) :
    (read f : Txn Db W ε R).on S d = .ok (f d, []) := rfl

@[simp] theorem on_insert (conflict : Db → Option String) (w : W) (d : Db) :
    (insert conflict w : Txn Db W ε Unit).on S d =
      match conflict d with
      | some name => .error (OfSql.ofSql (.violation name))
      | none => .ok ((), [w]) := by
  simp only [insert, on]
  cases conflict d <;> simp [Except.map]

/-- A bind runs its second part on the store after the first. -/
theorem on_bind (f : α → Txn Db W ε β) : ∀ (p : Txn Db W ε α) (d : Db), (p >>= f).on S d =
    match p.on S d with
    | .error e => .error e
    | .ok (a, ws) => ((f a).on S (S.applyAll d ws)).map fun out => (out.1, ws ++ out.2)
  | ret a, d => by
    change (f a).on S d = ((f a).on S d).map fun out => (out.1, [] ++ out.2)
    cases (f a).on S d <;> rfl
  | raise e, d => rfl
  | sql run k, d => by
    change on S (sql run fun r => (k r).bind f) d = _
    simp only [on]
    cases run d with
    | error e => rfl
    | ok rw =>
      obtain ⟨r, ws⟩ := rw
      have ih : ((k r).bind f).on S (S.applyAll d ws) = _ := on_bind f (k r) (S.applyAll d ws)
      dsimp only
      rw [ih]
      cases (k r).on S (S.applyAll d ws) with
      | error e => rfl
      | ok out =>
        obtain ⟨a, ws'⟩ := out
        dsimp only [Except.map]
        rw [S.applyAll_append]
        cases (f a).on S (S.applyAll (S.applyAll d ws) ws') with
        | error e => rfl
        | ok out' =>
          exact congrArg (fun ws'' => Except.ok (out'.1, ws'')) (List.append_assoc ..).symm

variable {S}

/-- A body that reads first goes on with what it read. -/
theorem on_bind_ok {p : Txn Db W ε α} {f : α → Txn Db W ε β} {d : Db} {a : α}
    (h : p.on S d = .ok (a, [])) : (p >>= f).on S d = (f a).on S d := by
  rw [on_bind, h]
  dsimp only [S.applyAll_nil]
  cases (f a).on S d <;> rfl

/-- A bind fails if its first part does. -/
theorem on_bind_error {p : Txn Db W ε α} {f : α → Txn Db W ε β} {d : Db} {e : ε}
    (h : p.on S d = .error e) : (p >>= f).on S d = .error e := by
  rw [on_bind, h]

variable (S)

variable [DecidableEq ι] [DecidableEq Lock]

/-- The body as a client runs it, with no locks of its own. -/
def prog : Txn Db W ε α → Prog ι (Server ι Db W Lock) A ε α
  | ret a => .ret a
  | raise e => .raise e
  | sql run k => ReadCommitted.sql S ⟨fun _ => [], run⟩ >>= fun r => (k r).prog

end Txn

variable [DecidableEq ι] [DecidableEq Lock]

/-- `body` in a transaction that takes the lock first. -/
def exclusive (l : Lock) (body : Txn Db W ε α) : Prog ι (Server ι Db W Lock) A ε α :=
  transaction S do
    sql S (.lock [l])
    body.prog S

/-- Calls that are each one such transaction. -/
def exclusiveCalls (l : Lock) (body : Call → Txn Db W ε α) :
    System ι (Server ι Db W Lock) A ε α Call where
  body c := exclusive S l (body c)
  reset i g := g.close i

/-- A call ended as its body does on a database it met, with its writes committed and kept, or
it could not reach the store and committed nothing. -/
def Serial (inv : Db → Prop) (body : Txn Db W ε α) (before : List W) (d₀ : Db)
    (out : Except ε α) (after : List W) (now : Db) : Prop :=
  out = .error (OfSql.ofSql .unavailable) ∧ after = before ∨
    ∃ d, S.Reaches d₀ d ∧ inv d ∧ out = (body.on S d).map Prod.fst ∧
      after = before ++ written (body.on S d) ∧
      S.Reaches (S.applyAll d (written (body.on S d))) now

variable {S} {D : Discipline W Lock} {inv : Db → Prop} {i : ι} {l : Lock}

/-! ## Under the lock -/

/-- A store that evolves is reached. -/
theorem Evolved.reaches {ls : List Lock} {d₀ d : Db} (h : Evolved S D ls d₀ d) :
    S.Reaches d₀ d := by
  obtain ⟨ws, hd, -⟩ := h
  exact ⟨ws, hd⟩

/-- Nothing is written to a database whose only lock is held. -/
theorem Evolved.eq_of_held {ls : List Lock} {d₀ d : Db} (h : Evolved S D ls d₀ d)
    (hD : ∀ w, D.locks w = [l]) (hl : l ∈ ls) : d = d₀ := by
  obtain ⟨ws, rfl, hw⟩ := h
  cases ws with
  | nil => rfl
  | cons w ws => exact absurd (by simp [hD]) (hw w List.mem_cons_self l hl)

section

variable {Q : Except ε α → Server ι Db W Lock → Prop} {wrote : List W} {sl : List Lock} {d : Db}

/-- The body makes of its view what it makes of one database. -/
theorem wp_prog (hD : ∀ w, D.locks w = [l]) {body : Txn Db W ε α} : ∀ {ws : List W}
    {g : Server ι Db W Lock}, (protocol S D inv).inv g →
    At S D i ⟨.inTrans, ws, wrote⟩ sl [l] d g →
    (∀ g', (protocol S D inv).inv g' → At S D i ⟨.inError, [], wrote⟩ sl [] d g' →
      Q (.error (OfSql.ofSql .unavailable)) g') →
    (∀ e, body.on S (S.applyAll d ws) = .error e → ∀ st ws' ls g', (protocol S D inv).inv g' →
      At S D i ⟨st, ws', wrote⟩ sl ls d g' → Q (.error e) g') →
    (∀ a ws', body.on S (S.applyAll d ws) = .ok (a, ws') → ∀ g', (protocol S D inv).inv g' →
      At S D i ⟨.inTrans, ws ++ ws', wrote⟩ sl [l] d g' → Q (.ok a) g') →
    (protocol S D inv).wp i (body.prog S : Prog ι _ A ε α) Q g := by
  induction body with
  | ret a =>
    intro ws g hi h _ _ hok
    exact wp_ret hi h fun g' hi' h' => hok a [] rfl g' hi' (by simpa using h')
  | raise e =>
    intro ws g hi h _ herr _
    exact wp_raise hi h fun g' hi' h' => herr e rfl _ _ _ g' hi' h'
  | sql run k ih =>
    intro ws g hi h hfault herr hok
    have hheld : l ∈ sl ++ [l] := by simp
    refine wp_statement hi h (by simp) hfault ?_ ?_
    · intro d' _ hev e he g' hi' h'
      obtain rfl := hev.eq_of_held hD hheld
      refine herr _ ?_ _ _ _ g' hi' h'
      dsimp only at he
      simp only [Txn.on, he]
    · intro d' _ hev r ws' hrun
      obtain rfl := hev.eq_of_held hD hheld
      dsimp only at hrun
      refine ⟨by simp [hD], fun g' hi' h' => ih r hi' (by simpa using h') hfault ?_ ?_⟩
      · intro e he
        refine herr e ?_
        simp only [Txn.on, hrun, ← S.applyAll_append, he, Except.map]
      · intro a ws'' he
        rw [List.append_assoc]
        refine hok a (ws' ++ ws'') ?_
        simp only [Txn.on, hrun, ← S.applyAll_append, he, Except.map]

/-- The rule of a transaction under the lock. -/
theorem wp_exclusive {g : Server ι Db W Lock} {d₀ : Db} (hD : ∀ w, D.locks w = [l])
    (hl : S.ofSession l = false) {body : Txn Db W ε α}
    (hQ : ∀ out, (protocol S D inv).Stable i (Q out)) (hi : (protocol S D inv).inv g)
    (h : At S D i ⟨.idle, [], wrote⟩ sl [] d₀ g)
    (hfault : ∀ d g', At S D i ⟨.idle, [], wrote⟩ sl [] d g' →
      Q (.error (OfSql.ofSql .unavailable)) g')
    (herr : ∀ d, inv d → S.Reaches d₀ d → ∀ e, body.on S d = .error e → ∀ g',
      At S D i ⟨.idle, [], wrote⟩ sl [] d g' → Q (.error e) g')
    (hok : ∀ d, inv d → S.Reaches d₀ d → ∀ a ws, body.on S d = .ok (a, ws) →
      inv (S.applyAll d ws) ∧ ∀ g',
        At S D i ⟨.idle, [], wrote ++ ws⟩ sl [] (S.applyAll d ws) g' → Q (.ok a) g') :
    (protocol S D inv).wp i (exclusive S l body : Prog ι _ A ε α) Q g := by
  refine wp_transaction_completes hQ hi h (hfault d₀) fun g₁ hi₁ h₁ => ?_
  refine wp_statement hi₁ h₁ (by simp [Sql.lock, hl]) ?_ (fun _ _ _ e he => by cases he) ?_
  · exact fun g' _ h' => ⟨_, _, _, _, h', hfault d₀⟩
  · intro d hd hev r ws hrun
    cases hrun
    have hr : S.Reaches d₀ d := hev.reaches
    refine ⟨by simp, fun g₂ hi₂ h₂ => wp_prog hD hi₂ (by simpa [Sql.lock] using h₂) ?_ ?_ ?_⟩
    · exact fun g' _ h' => ⟨_, _, _, _, h', hfault d⟩
    · exact fun e he st ws' ls g' _ h' => ⟨_, _, _, _, h', herr d hd hr e he⟩
    · intro a ws' he g' _ h'
      refine ⟨_, _, _, _, h', Or.inl rfl, fun d' hd' hev' => ?_⟩
      obtain rfl := hev'.eq_of_held hD (by simp)
      obtain ⟨hinv, hret⟩ := hok d' hd hr a ws' he
      exact ⟨hinv, hret, hfault d'⟩

end

/-! ## In every run -/

section

variable {body : Call → Txn Db W ε α}

/-- How a call ends cannot be undone by what the others write. -/
theorem stable_serial (p : Txn Db W ε α) (before : List W) (d₀ : Db) (out : Except ε α) :
    (protocol S D inv).Stable i fun g => (protocol S D inv).idle i g ∧
      Serial S inv p before d₀ out (g.session i).wrote g.db := by
  rintro g g' - - hr ⟨hidle, hs⟩
  refine ⟨(protocol S D inv).idle_rely i g g' hr hidle, ?_⟩
  obtain ⟨hsession, -, ws, hdb, -⟩ := hr
  rw [hsession]
  refine hs.imp_right ?_
  rintro ⟨d, hd, hinv, hout, hafter, hnow⟩
  exact ⟨d, hd, hinv, hout, hafter, hnow.trans ⟨ws, hdb⟩⟩

/-- Calls that all take one lock are serial: each ran alone on the store it found. -/
theorem exclusive_verified (hD : ∀ w, D.locks w = [l]) (hl : S.ofSession l = false)
    (hinv : ∀ c d a ws, inv d → (body c).on S d = .ok (a, ws) → inv (S.applyAll d ws)) :
    (exclusiveCalls S l body : System ι _ A ε α Call).Verified (protocol S D inv)
      fun c i entry out g => Serial S inv (body c) (entry.session i).wrote entry.db out
        (g.session i).wrote g.db where
  body c i g hi hidle := by
    refine wp_exclusive hD hl (fun out => stable_serial _ _ _ out) hi (At.of_idle hidle) ?_ ?_ ?_
    · exact fun d g' h' => ⟨h'.idle, Or.inl ⟨rfl, by rw [h'.session]⟩⟩
    · intro d hd hr e he g' h'
      refine ⟨h'.idle, Or.inr ⟨d, hr, hd, by rw [he]; rfl, ?_, ?_⟩⟩
      · rw [h'.session, he, written, List.append_nil]
      · rw [he]
        exact h'.evolved.reaches
    · intro d hd hr a ws he
      refine ⟨hinv c d a ws hd he, fun g' h' => ⟨h'.idle, Or.inr ⟨d, hr, hd, ?_, ?_, ?_⟩⟩⟩
      · rw [he]
        rfl
      · rw [h'.session, he, written]
      · rw [he]
        exact h'.evolved.reaches
  reset i g hi := by
    obtain ⟨hg, hi', hat⟩ := close_step hi
    exact ⟨hi', hg, hat.idle⟩

end

section

variable {sys : System ι (Server ι Db W Lock) A ε α Call}
  {post : Call → ι → Server ι Db W Lock → Except ε α → Server ι Db W Lock → Prop} {p : Db → Prop}
  {cfg cfg' : Config ι (Server ι Db W Lock) A ε α Call}

/-- What lasts under every write lasts in a run. -/
theorem lasting_next (hv : sys.Verified (protocol S D inv) post)
    (hp : ∀ d w, p d → p (S.apply d w)) (hvalid : System.Valid (protocol S D inv) post cfg)
    (h : p cfg.store.db) {e : Event ι A Call} (he : sys.next cfg e = some cfg') :
    p cfg'.store.db := by
  rcases hvalid.guar_next hv e he with hs | ⟨j, -, -, ws, hw, -⟩
  · rwa [hs]
  · exact Schema.Reaches.lasting ⟨ws, hw⟩ hp h

/-- What every write keeps, a schedule keeps. -/
theorem lasting_replay (hv : sys.Verified (protocol S D inv) post)
    (hp : ∀ d w, p d → p (S.apply d w)) (hvalid : System.Valid (protocol S D inv) post cfg)
    (h : p cfg.store.db) {es : List (Event ι A Call)} (he : sys.replay cfg es = some cfg') :
    System.Valid (protocol S D inv) post cfg' ∧ p cfg'.store.db :=
  System.Valid.replay_induction (p := fun cfg => p cfg.store.db) hv
    (fun _ _ _ hval h he => lasting_next hv hp hval h he) es hvalid h he

/-- It holds where any later call is entered. -/
theorem called_after (hv : sys.Verified (protocol S D inv) post)
    (hp : ∀ d w, p d → p (S.apply d w)) (hvalid : System.Valid (protocol S D inv) post cfg)
    (h : p cfg.store.db) (hnone : cfg.thread i = none) {es : List (Event ι A Call)}
    (he : sys.replay cfg es = some cfg') {t : Thread ι (Server ι Db W Lock) A ε α Call}
    (ht : cfg'.thread i = some t) : p t.entry.db := by
  have hrun := System.Valid.replay_induction (p := fun cfg => p cfg.store.db ∧
    ∀ t, cfg.thread i = some t → p t.entry.db) hv ?_ es hvalid ⟨h, by simp [hnone]⟩ he
  · exact hrun.2.2 t ht
  · rintro cfg e cfg' hval ⟨hdb, hentry⟩ hnext
    refine ⟨lasting_next hv hp hval hdb hnext, fun t ht => ?_⟩
    rcases System.entry_next sys hnext ht with hnow | ⟨t', ht', hentered⟩
    · rwa [hnow]
    · rw [← hentered]
      exact hentry t' ht'

end

/-! ## Alone -/

/-- Run alone, a statement is executed. -/
theorem runAlone_sql (q : Sql Db W Lock R) (f : R → Prog ι (Server ι Db W Lock) A ε α)
    (g : Server ι Db W Lock) : (sql S q >>= f).runAlone i g =
      (q.exec S i (Choice.proceed : Choice A) g).bind fun out =>
        match out with
        | (.ok r, g') => (f r).runAlone i g'
        | (.error e, g') => some (.error (OfSql.ofSql e), g') := by
  change ((q.exec S i _ g).bind fun rg => ((raised rg.1).bind f).runAlone i rg.2) = _
  congr 1
  funext rg
  obtain ⟨r, g'⟩ := rg
  cases r <;> rfl

/-- Run alone in its transaction, a body does what it does on the store it sees. -/
theorem runAlone_prog {body : Txn Db W ε α} : ∀ {g : Server ι Db W Lock},
    (g.session i).status = .inTrans → ∃ g' : Server ι Db W Lock,
      (body.prog S : Prog ι _ A ε α).runAlone i g =
        some ((body.on S (S.view g i)).map Prod.fst, g') ∧
      g'.db = g.db ∧ ∀ a ws, body.on S (S.view g i) = .ok (a, ws) →
        (g'.session i).status = .inTrans ∧ (g'.session i).staged = (g.session i).staged ++ ws := by
  induction body with
  | ret a =>
    intro g hst
    refine ⟨g, rfl, rfl, fun a' ws h => ?_⟩
    cases h
    exact ⟨hst, by simp⟩
  | raise e => exact fun {g} hst => ⟨g, rfl, rfl, fun a' ws h => by cases h⟩
  | sql run k ih =>
    intro g hst
    simp only [Txn.prog, Txn.on, runAlone_sql, Sql.exec, hst, reduceCtorEq, if_false,
      List.all_nil, if_true]
    cases run (S.view g i) with
    | error e => exact ⟨S.abort g i, rfl, rfl, fun a ws h => by cases h⟩
    | ok rw =>
      obtain ⟨r, ws⟩ := rw
      have hview : S.view (g.stage i [] ws) i = S.applyAll (S.view g i) ws := by
        simp [Schema.view, Server.stage, S.applyAll_append]
      have hst' : ((g.stage i [] ws).session i).status = .inTrans := by
        simpa [Server.stage] using hst
      obtain ⟨g', hg, hdb, hstaged⟩ := ih r hst'
      rw [hview] at hg hstaged
      refine ⟨g', ?_, hdb, ?_⟩
      · dsimp only [Option.bind_some]
        rw [hg]
        cases (k r).on S (S.applyAll (S.view g i) ws) <;> rfl
      · intro a ws' h
        dsimp only at h
        cases hk : (k r).on S (S.applyAll (S.view g i) ws) with
        | error e =>
          rw [hk] at h
          cases h
        | ok out =>
          rw [hk] at h
          cases h
          obtain ⟨hst'', hs⟩ := hstaged _ _ hk
          exact ⟨hst'', by rw [hs]; simp [Server.stage]⟩

/-- A call that nobody gets between ends as its body does on the database it was called in. -/
theorem runAlone_exclusive (body : Txn Db W ε α) (d : Db) : ∃ g' : Server ι Db W Lock,
    (exclusive S l body : Prog ι _ A ε α).runAlone i (Server.start d) =
      some ((body.on S d).map Prod.fst, g') ∧
    g'.db = S.applyAll d (written (body.on S d)) := by
  have hst : (((Server.start d : Server ι Db W Lock).begin i).stage i [l] [] |>.session i).status =
      .inTrans := by simp [Server.stage, Server.begin]
  have hview : S.view (((Server.start d).begin i).stage i [l] [] : Server ι Db W Lock) i = d := by
    simp [Schema.view, Server.stage, Server.begin, Server.start]
  obtain ⟨g', hg, hdb, hstaged⟩ := @runAlone_prog ι A Db W Lock ε α S _ _ _ i body _ hst
  rw [hview] at hg hstaged
  have hdb : g'.db = d := hdb
  have hlock : ((sql S (.lock [l]) >>= fun _ => body.prog S) : Prog ι _ A ε α).runAlone i
      ((Server.start d).begin i) = some ((body.on S d).map Prod.fst, g') := by
    rw [runAlone_sql, ← hg]
    simp [Sql.exec, Server.begin, Server.start, Sql.lock, Server.free]
  change ∃ g'', (Prog.bind (Prog.tryCatch _ _) _).runAlone i ((Server.start d).begin i) = _ ∧ _
  rw [Prog.runAlone_bind, Prog.runAlone_tryCatch, hlock, Option.bind_some]
  cases hon : body.on S d with
  | error e => exact ⟨S.rollback g' i, rfl, hdb⟩
  | ok out =>
    obtain ⟨a, ws⟩ := out
    obtain ⟨hst', hs⟩ := hstaged a ws hon
    refine ⟨S.commit g' i, ?_, ?_⟩
    · change ((commitStmt S i (Choice.proceed : Choice A) g').bind _) = _
      simp only [commitStmt, hst']
      rfl
    · change S.applyAll g'.db (g'.session i).staged = _
      rw [hdb, hs]
      simp [Server.stage, Server.begin, written]

end

end ReadCommitted
