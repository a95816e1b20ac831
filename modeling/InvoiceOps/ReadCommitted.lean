import InvoiceOps.Program

/-!
# A transactional store at READ COMMITTED

`Server` is a database with the open transaction of each session. A statement runs on
the session's own view, which is the committed database under the writes the session
has staged, so two statements of one transaction may see different commits of others.
It first takes the locks it wants and waits while another session has one ; what it
writes is staged. Locks are kept to the end of the transaction, session locks until
the session ends. A fault, or a constraint the statement breaks,
aborts the transaction at once. Outside a transaction a statement commits by itself.

`Discipline` says which locks stand for a write. If every session commits only writes
whose locks it holds, then what a held lock guards cannot change under its holder
(`Guards.rely_db`, `Guards.rely_view`), and that is what `protocol` lets each session
rely on. The rules `wp_sql` and `wp_transaction` are the ones a client's proof goes by.
-/

set_option linter.unusedSectionVars false

namespace ReadCommitted

open Shared

variable {ι A Db W Lock ε α R β : Type}

/-! ## Sessions -/

/-- The errors of a statement : the store cannot be reached or gave up, the transaction
is aborted already, or a constraint is broken. -/
inductive SqlError where
  | unavailable
  | inFailedTransaction
  | violation (name : String)
  deriving DecidableEq, Repr

/-- The status a session reports of its transaction. -/
inductive Status where
  | idle
  | inTrans
  | inError
  deriving DecidableEq, Repr

/-- A session : its status, the writes it has staged, and (for statements about it only)
every write it has committed. -/
structure Session (W : Type) where
  status : Status
  staged : List W
  wrote : List W
  deriving DecidableEq, Repr

/-- A server : what is committed, its sessions, and who holds which lock. -/
structure Server (ι Db W Lock : Type) where
  db : Db
  session : ι → Session W
  held : Lock → Option ι

/-- How a write changes the database, and which locks outlive a transaction. -/
structure Schema (Db W Lock : Type) where
  apply : Db → W → Db
  ofSession : Lock → Bool

namespace Schema

variable (S : Schema Db W Lock)

/-- The database after some writes. -/
def applyAll (d : Db) (ws : List W) : Db :=
  ws.foldl S.apply d

@[simp] theorem applyAll_nil (d : Db) : S.applyAll d [] = d := rfl

@[simp] theorem applyAll_cons (d : Db) (w : W) (ws : List W) :
    S.applyAll d (w :: ws) = S.applyAll (S.apply d w) ws := rfl

/-- Writes are applied in their order. -/
theorem applyAll_append (d : Db) (ws ws' : List W) :
    S.applyAll d (ws ++ ws') = S.applyAll (S.applyAll d ws) ws' :=
  List.foldl_append

/-- What each of the writes keeps, all of them keep. -/
theorem applyAll_induction {p : Db → Prop} {ws : List W}
    (hp : ∀ d, ∀ w ∈ ws, p d → p (S.apply d w)) {d : Db} (h : p d) : p (S.applyAll d ws) := by
  induction ws generalizing d with
  | nil => exact h
  | cons w ws ih =>
    exact ih (fun d w' hw' => hp d w' (List.mem_cons_of_mem _ hw')) (hp d w List.mem_cons_self h)

end Schema

namespace Server

/-- No session open, no lock taken. -/
def start (d : Db) : Server ι Db W Lock :=
  ⟨d, fun _ => ⟨.idle, [], []⟩, fun _ => none⟩

variable [DecidableEq ι] [DecidableEq Lock]

/-- `BEGIN`. -/
def begin (g : Server ι Db W Lock) (i : ι) : Server ι Db W Lock :=
  { g with session := Function.update g.session i ⟨.inTrans, [], (g.session i).wrote⟩ }

/-- Take the locks `ls` and stage the writes `ws`. -/
def stage (g : Server ι Db W Lock) (i : ι) (ls : List Lock) (ws : List W) :
    Server ι Db W Lock :=
  { g with
    session := Function.update g.session i
      ⟨(g.session i).status, (g.session i).staged ++ ws, (g.session i).wrote⟩
    held := fun l => if l ∈ ls then some i else g.held l }

/-- The session ends : its transaction is rolled back and all its locks are free. -/
def close (g : Server ι Db W Lock) (i : ι) : Server ι Db W Lock :=
  { g with
    session := Function.update g.session i ⟨.idle, [], (g.session i).wrote⟩
    held := fun l => if g.held l = some i then none else g.held l }

/-- No other session has the lock. -/
def free (g : Server ι Db W Lock) (i : ι) (l : Lock) : Bool :=
  g.held l == none || g.held l == some i

end Server

namespace Schema

variable (S : Schema Db W Lock) [DecidableEq ι]

/-- The database as session `i` sees it. -/
def view (g : Server ι Db W Lock) (i : ι) : Db :=
  S.applyAll g.db (g.session i).staged

/-- Session `i` out of its transaction, with `wrote` as what it has committed. -/
def leave (g : Server ι Db W Lock) (i : ι) (status : Status) (wrote : List W) (d : Db) :
    Server ι Db W Lock where
  db := d
  session := Function.update g.session i ⟨status, [], wrote⟩
  held l := if g.held l = some i ∧ S.ofSession l = false then none else g.held l

/-- `ROLLBACK`. -/
def rollback (g : Server ι Db W Lock) (i : ι) : Server ι Db W Lock :=
  S.leave g i .idle (g.session i).wrote g.db

/-- A statement failed : an open transaction is aborted. -/
def abort (g : Server ι Db W Lock) (i : ι) : Server ι Db W Lock :=
  S.leave g i (if (g.session i).status = .idle then .idle else .inError) (g.session i).wrote g.db

/-- `COMMIT`, in a transaction that no statement has aborted. -/
def commit (g : Server ι Db W Lock) (i : ι) : Server ι Db W Lock :=
  S.leave g i .idle ((g.session i).wrote ++ (g.session i).staged) (S.view g i)

end Schema

/-! ## Statements -/

/-- A statement : the locks it wants for the view it finds, and its answer with the
writes it makes. -/
structure Sql (Db W Lock R : Type) where
  wants : Db → List Lock
  run : Db → Except SqlError (R × List W)

namespace Sql

/-- A plain read. -/
def read (f : Db → R) : Sql Db W Lock R :=
  ⟨fun _ => [], fun d => .ok (f d, [])⟩

/-- A read of a row that takes the row's locks, if there is such a row. -/
def readForUpdate (row : Db → Option R) (locks : R → List Lock) : Sql Db W Lock (Option R) :=
  ⟨fun d => (row d).elim [] locks, fun d => .ok (row d, [])⟩

/-- A write to the row that matches, if there is one, under the row's locks. -/
def update (row : Db → Option R) (locks : R → List Lock) (w : R → W) :
    Sql Db W Lock (Option R) :=
  ⟨fun d => (row d).elim [] locks, fun d => .ok (row d, (row d).elim [] fun r => [w r])⟩

/-- An insert : it breaks the constraint `conflict` names, or takes the new entries' locks. -/
def insert (conflict : Db → Option String) (locks : List Lock) (w : W) : Sql Db W Lock Unit where
  wants d := if (conflict d).isSome then [] else locks
  run d := match conflict d with
    | some name => .error (.violation name)
    | none => .ok ((), [w])

/-- An insert that does nothing, and says so, when there is a conflict on the key it names, and
breaks what `check` and `broken` name otherwise. -/
def insertOnConflict (check : Option String) (conflict : Db → Bool) (broken : Db → Option String)
    (locks : List Lock) (w : W) : Sql Db W Lock Bool where
  wants d := if check.isSome || conflict d || (broken d).isSome then [] else locks
  run d := match check with
    | some name => .error (.violation name)
    | none =>
      if conflict d then .ok (false, [])
      else match broken d with
        | some name => .error (.violation name)
        | none => .ok (true, [w])

/-- Only the locks. -/
def lock (ls : List Lock) : Sql Db W Lock Unit :=
  ⟨fun _ => ls, fun _ => .ok ((), [])⟩

end Sql

section

variable [DecidableEq ι] [DecidableEq Lock] (S : Schema Db W Lock)

/-- One statement of session `i`, as the server answers it. -/
def Sql.exec (q : Sql Db W Lock R) (i : ι) :
    Choice A → Server ι Db W Lock → Option (Except SqlError R × Server ι Db W Lock)
  | .fault, g => some (.error .unavailable, S.abort g i)
  | .answer _, _ => none
  | .proceed, g =>
    if (g.session i).status = .inError then some (.error .inFailedTransaction, g)
    else if (q.wants (S.view g i)).all (g.free i) then
      match q.run (S.view g i) with
      | .error e => some (.error e, S.abort g i)
      | .ok (r, ws) =>
        some (.ok r,
          if (g.session i).status = .idle
          then S.commit (g.stage i (q.wants (S.view g i)) ws) i
          else g.stage i (q.wants (S.view g i)) ws)
    else none

/-- Open a transaction. -/
def beginStmt (i : ι) :
    Choice A → Server ι Db W Lock → Option (Except SqlError Unit × Server ι Db W Lock)
  | .fault, g => some (.error .unavailable, g)
  | .answer _, _ => none
  | .proceed, g => some (.ok (), g.begin i)

/-- Commit, or be told that it failed ; an aborted transaction is rolled back. A commit that was
made and whose acknowledgement is lost is not one of the answers : a failed commit has written
nothing. -/
def commitStmt (i : ι) :
    Choice A → Server ι Db W Lock → Option (Except SqlError Unit × Server ι Db W Lock)
  | .fault, g => some (.error .unavailable, S.rollback g i)
  | .answer _, _ => none
  | .proceed, g =>
    match (g.session i).status with
    | .inTrans => some (.ok (), S.commit g i)
    | _ => some (.ok (), S.rollback g i)

/-- `ROLLBACK`, as a client sends it. -/
def rollbackStmt (i : ι) :
    Choice A → Server ι Db W Lock → Option (Unit × Server ι Db W Lock)
  | .answer _, _ => none
  | _, g => some ((), S.rollback g i)

/-- The status the client's own connection reports. -/
def statusStmt (i : ι) :
    Choice A → Server ι Db W Lock → Option (Status × Server ι Db W Lock)
  | _, g => some ((g.session i).status, g)

/-- How a client sees a failed statement. -/
class OfSql (ε : Type) where
  ofSql : SqlError → ε

variable [OfSql ε]

/-- What the client makes of a statement's answer. -/
def raised : Except SqlError R → Prog ι (Server ι Db W Lock) A ε R
  | .ok r => .ret r
  | .error e => .raise (OfSql.ofSql e)

/-- A statement of the client. -/
def sql (q : Sql Db W Lock R) : Prog ι (Server ι Db W Lock) A ε R :=
  .stmt (fun i => q.exec S i) raised

/-- `body` in a transaction : committed if it returns, rolled back if it raises. -/
def transaction (body : Prog ι (Server ι Db W Lock) A ε α) :
    Prog ι (Server ι Db W Lock) A ε α := do
  Prog.stmt beginStmt raised
  let a ← body.tryCatch fun e => do
    Prog.exec (rollbackStmt S)
    throw e
  Prog.stmt (commitStmt S) raised
  return a

end

/-- What a statement raises. -/
theorem raises_sql [DecidableEq ι] [DecidableEq Lock] [OfSql ε] {S : Schema Db W Lock}
    {E : ε → Prop} (hE : ∀ e, E (OfSql.ofSql e)) (q : Sql Db W Lock R) :
    (sql S q : Prog ι (Server ι Db W Lock) A ε R).Raises E
  | .ok _ => trivial
  | .error e => hE e

/-! ## Discipline -/

/-- Which locks stand for a write. -/
structure Discipline (W Lock : Type) where
  locks : W → List Lock

section

variable (S : Schema Db W Lock) (D : Discipline W Lock)

/-- `l` guards `obs` : only a write under `l` changes it, and what a write makes of it
depends on nothing else. -/
structure Guards (l : Lock) (obs : Db → β) : Prop where
  frame : ∀ d w, l ∉ D.locks w → obs (S.apply d w) = obs d
  congr : ∀ d d' w, obs d = obs d' → obs (S.apply d w) = obs (S.apply d' w)

variable {S D}

/-- Writes that do not take a lock leave what it guards. -/
theorem Guards.applyAll {l : Lock} {obs : Db → β} (h : Guards S D l obs) {ws : List W}
    (hw : ∀ w ∈ ws, l ∉ D.locks w) (d : Db) : obs (S.applyAll d ws) = obs d := by
  induction ws generalizing d with
  | nil => rfl
  | cons w ws ih =>
    rw [Schema.applyAll_cons, ih (fun w' hw' => hw w' (List.mem_cons_of_mem _ hw')),
      h.frame d w (hw w List.mem_cons_self)]

/-- What is guarded depends on itself and the writes only. -/
theorem Guards.applyAll_congr {l : Lock} {obs : Db → β} (h : Guards S D l obs) (ws : List W)
    {d d' : Db} (hd : obs d = obs d') : obs (S.applyAll d ws) = obs (S.applyAll d' ws) := by
  induction ws generalizing d d' with
  | nil => exact hd
  | cons w ws ih => exact ih (h.congr d d' w hd)

/-- A discipline that asks for more locks guards no less. -/
theorem Guards.mono {D' : Discipline W Lock} {l : Lock} {obs : Db → β} (h : Guards S D l obs)
    (hD : ∀ w, ∀ l ∈ D.locks w, l ∈ D'.locks w) : Guards S D' l obs :=
  ⟨fun d w hw => h.frame d w fun hl => hw (hD w l hl), h.congr⟩

end

/-- Every staged write is under locks its session holds, and only an open transaction holds
locks that are not the session's own. -/
def Disciplined (S : Schema Db W Lock) (D : Discipline W Lock) (g : Server ι Db W Lock) : Prop :=
  (∀ i, ∀ w ∈ (g.session i).staged, ∀ l ∈ D.locks w, g.held l = some i) ∧
    ∀ i l, (g.session i).status ≠ .inTrans → g.held l = some i → S.ofSession l = true

/-- Sessions that commit only under their own locks, over a database invariant. -/
def protocol (S : Schema Db W Lock) (D : Discipline W Lock) (inv : Db → Prop) :
    Protocol ι (Server ι Db W Lock) where
  inv g := Disciplined S D g ∧ inv g.db
  idle i g := (g.session i).status = .idle ∧ (g.session i).staged = [] ∧
    ∀ l, S.ofSession l = true → g.held l ≠ some i
  rely i g g' := g'.session i = g.session i ∧ (∀ l, g'.held l = some i ↔ g.held l = some i) ∧
    ∃ ws, g'.db = S.applyAll g.db ws ∧ ∀ w ∈ ws, ∀ l ∈ D.locks w, g.held l ≠ some i
  guar i g g' := (∀ j, j ≠ i → g'.session j = g.session j) ∧
    (∀ j, j ≠ i → ∀ l, g'.held l = some j ↔ g.held l = some j) ∧
    ∃ ws, g'.db = S.applyAll g.db ws ∧ (g'.session i).wrote = (g.session i).wrote ++ ws ∧
      ∀ w ∈ ws, ∀ l ∈ D.locks w, g.held l = some i
  rely_refl i g := ⟨rfl, fun _ => Iff.rfl, [], rfl, by simp⟩
  rely_trans := by
    rintro i g g' g'' ⟨hs, hh, ws, hw, hl⟩ ⟨hs', hh', ws', hw', hl'⟩
    refine ⟨hs'.trans hs, fun l => (hh' l).trans (hh l), ws ++ ws', ?_, ?_⟩
    · rw [hw', hw, Schema.applyAll_append]
    · intro w hmem l hlw
      rcases List.mem_append.mp hmem with h | h
      · exact hl w h l hlw
      · exact fun hi => hl' w h l hlw ((hh l).mpr hi)
  rely_of_guar := by
    rintro i j g g' hij - - ⟨hs, hh, ws, hw, -, hl⟩
    refine ⟨hs i hij, hh i hij, ws, hw, fun w hmem l hlw hi => hij ?_⟩
    exact Option.some.inj (hi.symm.trans (hl w hmem l hlw))
  idle_rely := by
    rintro i g g' ⟨hs, hh, -⟩ ⟨h, h', hl⟩
    exact ⟨by rw [hs, h], by rw [hs, h'], fun l hs hi => hl l hs ((hh l).mp hi)⟩

/-! ## What a session knows -/

section

variable {S : Schema Db W Lock} {D : Discipline W Lock} {inv : Db → Prop} {i : ι}

/-- `d` is `d₀` after writes under none of the locks `ls`. -/
def Evolved (S : Schema Db W Lock) (D : Discipline W Lock) (ls : List Lock) (d₀ d : Db) : Prop :=
  ∃ ws, d = S.applyAll d₀ ws ∧ ∀ w ∈ ws, ∀ l ∈ ls, l ∉ D.locks w

/-- A store evolves into itself. -/
theorem Evolved.refl (ls : List Lock) (d : Db) : Evolved S D ls d d :=
  ⟨[], rfl, by simp⟩

/-- Fewer locks allow more. -/
theorem Evolved.mono {ls ls' : List Lock} {d₀ d : Db} (h : Evolved S D ls' d₀ d)
    (hls : ∀ l ∈ ls, l ∈ ls') : Evolved S D ls d₀ d := by
  obtain ⟨ws, hd, hw⟩ := h
  exact ⟨ws, hd, fun w hmem l hl => hw w hmem l (hls l hl)⟩

/-- Evolutions follow each other. -/
theorem Evolved.trans {ls : List Lock} {d₀ d d' : Db} (h : Evolved S D ls d₀ d)
    (h' : Evolved S D ls d d') : Evolved S D ls d₀ d' := by
  obtain ⟨ws, rfl, hw⟩ := h
  obtain ⟨ws', rfl, hw'⟩ := h'
  refine ⟨ws ++ ws', (S.applyAll_append _ _ _).symm, fun w hmem l hl => ?_⟩
  rcases List.mem_append.mp hmem with h | h
  · exact hw w h l hl
  · exact hw' w h l hl

/-- What a held lock guards has not changed. -/
theorem Evolved.guards {ls : List Lock} {d₀ d : Db} {l : Lock} {obs : Db → β}
    (h : Evolved S D ls d₀ d) (hg : Guards S D l obs) (hl : l ∈ ls) : obs d = obs d₀ := by
  obtain ⟨ws, rfl, hw⟩ := h
  exact hg.applyAll (fun w hmem => hw w hmem l hl) d₀

/-- Nor has it in the session's view. -/
theorem Evolved.guards_view {ls : List Lock} {d₀ d : Db} {l : Lock} {obs : Db → β}
    (h : Evolved S D ls d₀ d) (hg : Guards S D l obs) (hl : l ∈ ls) (ws : List W) :
    obs (S.applyAll d ws) = obs (S.applyAll d₀ ws) :=
  hg.applyAll_congr ws (h.guards hg hl)

/-- What no write breaks still holds. -/
theorem Evolved.lasting {ls : List Lock} {d₀ d : Db} {p : Db → Prop}
    (h : Evolved S D ls d₀ d) (hp : ∀ d w, p d → p (S.apply d w)) (h₀ : p d₀) : p d := by
  obtain ⟨ws, rfl, -⟩ := h
  exact S.applyAll_induction (fun d w _ => hp d w) h₀

/-- What only a write under the locks breaks still holds. -/
theorem Evolved.kept {ls : List Lock} {d₀ d : Db} {p : Db → Prop} (h : Evolved S D ls d₀ d)
    (hp : ∀ d w, (∀ l ∈ ls, l ∉ D.locks w) → p d → p (S.apply d w)) (h₀ : p d₀) : p d := by
  obtain ⟨ws, rfl, hw⟩ := h
  exact S.applyAll_induction (fun d w hmem => hp d w (hw w hmem)) h₀

/-- Session `i` is in `s`. Its session locks are `sl`, it has the locks `ls` besides, and
nothing they stand for has been written since the database was `d₀`. -/
structure At (S : Schema Db W Lock) (D : Discipline W Lock) (i : ι) (s : Session W)
    (sl ls : List Lock) (d₀ : Db) (g : Server ι Db W Lock) : Prop where
  session : g.session i = s
  has : ∀ l ∈ sl ++ ls, g.held l = some i
  only : ∀ l, S.ofSession l = true → (g.held l = some i ↔ l ∈ sl)
  ofSession : ∀ l ∈ sl, S.ofSession l = true
  evolved : Evolved S D (sl ++ ls) d₀ g.db

namespace At

variable {s : Session W} {sl ls ls' : List Lock} {d₀ d₁ : Db} {g : Server ι Db W Lock}

/-- What the session had committed. -/
theorem committed {st : Status} {ws wrote : List W} (h : At S D i ⟨st, ws, wrote⟩ sl ls d₀ g) :
    (g.session i).wrote = wrote := by
  rw [h.session]

/-- What is known is known of the store as it is. -/
theorem now (h : At S D i s sl ls d₀ g) : At S D i s sl ls g.db g :=
  { h with evolved := Evolved.refl _ _ }

/-- What is known of fewer locks. -/
theorem locks (h : At S D i s sl ls d₀ g) (hls : ∀ l ∈ ls', l ∈ ls) : At S D i s sl ls' d₀ g := by
  have hsub : ∀ l ∈ sl ++ ls', l ∈ sl ++ ls := by
    intro l hl
    rcases List.mem_append.mp hl with hl | hl
    · exact List.mem_append_left _ hl
    · exact List.mem_append_right _ (hls l hl)
  exact { h with has := fun l hl => h.has l (hsub l hl), evolved := h.evolved.mono hsub }

/-- What is known since `d₁` is known since any earlier `d₀`. -/
theorem since (h : At S D i s sl ls d₁ g) (h₀ : Evolved S D (sl ++ ls) d₀ d₁) :
    At S D i s sl ls d₀ g :=
  { h with evolved := h₀.trans h.evolved }

/-- The other sessions cannot break what a session knows. -/
theorem stable (s : Session W) (sl ls : List Lock) (d₀ : Db) :
    (protocol S D inv).Stable i (At S D i s sl ls d₀) := by
  rintro g g' - - ⟨hs, hh, ws, hw, hl⟩ ⟨h, hhas, honly, hsc, hd⟩
  refine ⟨hs.trans h, fun l hl' => (hh l).mpr (hhas l hl'),
    fun l hls => (hh l).trans (honly l hls), hsc, hd.trans ⟨ws, hw, ?_⟩⟩
  exact fun w hmem l hl' hlw => hl w hmem l hlw (hhas l hl')

end At

/-! ## Steps -/

variable [DecidableEq ι] [DecidableEq Lock]

/-- An idle session knows the store, and holds nothing. -/
theorem At.of_idle {g : Server ι Db W Lock} (h : (protocol S D inv).idle i g) :
    At S D i ⟨.idle, [], (g.session i).wrote⟩ [] [] g.db g := by
  obtain ⟨hst, hs, hl⟩ := h
  refine ⟨?_, by simp, fun l hls => by simpa using hl l hls, by simp, Evolved.refl _ _⟩
  rw [← hst, ← hs]

/-- A session that knows it is idle is idle. -/
theorem At.idle {g : Server ι Db W Lock} {wrote : List W} {d₀ : Db}
    (h : At S D i ⟨.idle, [], wrote⟩ [] [] d₀ g) : (protocol S D inv).idle i g :=
  ⟨by rw [h.session], by rw [h.session], fun l hl hi => by simpa using (h.only l hl).mp hi⟩

/-- A statement that commits nothing keeps to the protocol if it takes free locks only and
stages under its own. -/
theorem stage_step {g : Server ι Db W Lock} {s : Session W} {sl ls wants : List Lock}
    {ws : List W} {d₀ : Db} (hi : (protocol S D inv).inv g) (h : At S D i s sl ls d₀ g)
    (hst : s.status = .inTrans) (hfree : wants.all (g.free i))
    (hscope : ∀ l ∈ wants, S.ofSession l = false)
    (hlocks : ∀ w ∈ ws, ∀ l ∈ D.locks w, l ∈ ls ++ wants) :
    (protocol S D inv).guar i g (g.stage i wants ws) ∧
      (protocol S D inv).inv (g.stage i wants ws) ∧
      At S D i ⟨s.status, s.staged ++ ws, s.wrote⟩ sl (ls ++ wants) g.db
        (g.stage i wants ws) := by
  obtain ⟨⟨hstaged, hsc⟩, hinv⟩ := hi
  have hother : ∀ j, j ≠ i → ∀ l, (g.stage i wants ws).held l = some j ↔ g.held l = some j := by
    intro j hj l
    simp only [Server.stage]
    split
    · rename_i hl
      have hl := List.all_eq_true.mp hfree l hl
      simp only [Server.free, Bool.or_eq_true, beq_iff_eq] at hl
      rcases hl with hl | hl <;> simp [hl, hj.symm]
    · rfl
  have hmine : ∀ l, g.held l = some i ∨ l ∈ wants → (g.stage i wants ws).held l = some i := by
    intro l hl
    simp only [Server.stage]
    split
    · rfl
    · exact hl.resolve_right ‹_›
  refine ⟨⟨fun j hj => ?_, hother, [], rfl, ?_, by simp⟩,
    ⟨⟨fun j w hw l hl => ?_, fun j l hj hl => ?_⟩, hinv⟩, ?_, fun l hl => ?_, fun l hls => ?_,
    h.ofSession, Evolved.refl _ _⟩
  · simp [Server.stage, hj]
  · simp [Server.stage]
  · by_cases hj : j = i
    · subst hj
      simp only [Server.stage, Function.update_self, List.mem_append] at hw
      rcases hw with hw | hw
      · exact hmine l (Or.inl (hstaged j w hw l hl))
      · rcases List.mem_append.mp (hlocks w hw l hl) with hl | hl
        · exact hmine l (Or.inl (h.has l (List.mem_append_right _ hl)))
        · exact hmine l (Or.inr hl)
    · rw [hother j hj l]
      simp only [Server.stage, Function.update_of_ne hj] at hw
      exact hstaged j w hw l hl
  · by_cases hji : j = i
    · subst hji
      simp [Server.stage, h.session, hst] at hj
    · simp only [Server.stage, Function.update_of_ne hji] at hj
      exact hsc j l hj ((hother j hji l).mp hl)
  · simp [Server.stage, h.session]
  · rw [← List.append_assoc] at hl
    rcases List.mem_append.mp hl with hl | hl
    · exact hmine l (Or.inl (h.has l hl))
    · exact hmine l (Or.inr hl)
  · simp only [Server.stage, ← h.only l hls]
    split
    · rename_i hl
      simp [hscope l hl] at hls
    · rfl

/-- The end of a transaction keeps to the protocol if what it leaves keeps the invariant
and was written under its own locks. -/
theorem leave_step {g : Server ι Db W Lock} {s : Session W} {sl ls : List Lock}
    {d₀ : Db} (hi : (protocol S D inv).inv g) (h : At S D i s sl ls d₀ g) (st : Status)
    (ws : List W) (hws : ∀ w ∈ ws, ∀ l ∈ D.locks w, g.held l = some i)
    (hd : inv (S.applyAll g.db ws)) :
    (protocol S D inv).guar i g (S.leave g i st (s.wrote ++ ws) (S.applyAll g.db ws)) ∧
      (protocol S D inv).inv (S.leave g i st (s.wrote ++ ws) (S.applyAll g.db ws)) ∧
      At S D i ⟨st, [], s.wrote ++ ws⟩ sl [] (S.applyAll g.db ws)
        (S.leave g i st (s.wrote ++ ws) (S.applyAll g.db ws)) := by
  obtain ⟨⟨hstaged, hsc⟩, hinv⟩ := hi
  have hother : ∀ j, j ≠ i → ∀ l,
      (S.leave g i st (s.wrote ++ ws) (S.applyAll g.db ws)).held l = some j ↔
        g.held l = some j := by
    intro j hj l
    simp only [Schema.leave]
    split
    · rename_i hl
      simp [hl.1, hj.symm]
    · rfl
  have hmine : ∀ l, (S.leave g i st (s.wrote ++ ws) (S.applyAll g.db ws)).held l = some i ↔
      g.held l = some i ∧ S.ofSession l = true := by
    intro l
    simp only [Schema.leave]
    split <;> simp_all
  refine ⟨⟨fun j hj => ?_, hother, ws, rfl, ?_, hws⟩,
    ⟨⟨fun j w hw l hl => ?_, fun j l hj hl => ?_⟩, hd⟩, ?_, fun l hl => ?_, fun l hls => ?_,
    h.ofSession, Evolved.refl _ _⟩
  · simp [Schema.leave, hj]
  · simp [Schema.leave, h.session]
  · by_cases hj : j = i
    · subst hj
      simp [Schema.leave] at hw
    · rw [hother j hj l]
      simp only [Schema.leave, Function.update_of_ne hj] at hw
      exact hstaged j w hw l hl
  · by_cases hji : j = i
    · subst hji
      exact ((hmine l).mp hl).2
    · simp only [Schema.leave, Function.update_of_ne hji] at hj
      exact hsc j l hj ((hother j hji l).mp hl)
  · simp [Schema.leave]
  · rw [List.append_nil] at hl
    exact (hmine l).mpr ⟨h.has l (List.mem_append_left _ hl), h.ofSession l hl⟩
  · rw [hmine l, ← h.only l hls]
    simp [hls]

/-- An aborted transaction keeps the protocol and forgets its writes. -/
theorem abort_step {g : Server ι Db W Lock} {s : Session W} {sl ls : List Lock} {d₀ : Db}
    (hi : (protocol S D inv).inv g) (h : At S D i s sl ls d₀ g) :
    (protocol S D inv).guar i g (S.abort g i) ∧ (protocol S D inv).inv (S.abort g i) ∧
      At S D i ⟨if s.status = .idle then .idle else .inError, [], s.wrote⟩ sl [] g.db
        (S.abort g i) := by
  have hstep := leave_step hi h (if s.status = .idle then .idle else .inError) [] (by simp)
    hi.2
  simpa only [Schema.abort, h.session, Schema.applyAll_nil, List.append_nil] using hstep

/-- So does a rollback. -/
theorem rollback_step {g : Server ι Db W Lock} {s : Session W} {sl ls : List Lock} {d₀ : Db}
    (hi : (protocol S D inv).inv g) (h : At S D i s sl ls d₀ g) :
    (protocol S D inv).guar i g (S.rollback g i) ∧ (protocol S D inv).inv (S.rollback g i) ∧
      At S D i ⟨.idle, [], s.wrote⟩ sl [] g.db (S.rollback g i) := by
  have hstep := leave_step hi h .idle [] (by simp) hi.2
  simpa only [Schema.rollback, h.session, Schema.applyAll_nil, List.append_nil] using hstep

/-- A commit keeps it if the staged writes keep the invariant. -/
theorem commit_step {g : Server ι Db W Lock} {s : Session W} {sl ls : List Lock} {d₀ : Db}
    (hi : (protocol S D inv).inv g) (h : At S D i s sl ls d₀ g)
    (hd : inv (S.applyAll g.db s.staged)) :
    (protocol S D inv).guar i g (S.commit g i) ∧ (protocol S D inv).inv (S.commit g i) ∧
      At S D i ⟨.idle, [], s.wrote ++ s.staged⟩ sl [] (S.applyAll g.db s.staged)
        (S.commit g i) := by
  have hws : ∀ w ∈ s.staged, ∀ l ∈ D.locks w, g.held l = some i := fun w hw l hl =>
    hi.1.1 i w (by rwa [h.session]) l hl
  simpa only [Schema.commit, Schema.view, h.session] using
    leave_step hi h .idle s.staged hws hd

/-- The start of a transaction keeps it. -/
theorem begin_step {g : Server ι Db W Lock} {s : Session W} {sl ls : List Lock} {d₀ : Db}
    (hi : (protocol S D inv).inv g) (h : At S D i s sl ls d₀ g) :
    (protocol S D inv).guar i g (g.begin i) ∧ (protocol S D inv).inv (g.begin i) ∧
      At S D i ⟨.inTrans, [], s.wrote⟩ sl ls d₀ (g.begin i) := by
  refine ⟨⟨fun j hj => ?_, fun _ _ _ => Iff.rfl, [], rfl, ?_, by simp⟩,
    ⟨⟨fun j w hw l hl => ?_, fun j l hj hl => ?_⟩, hi.2⟩, ?_, h.has, h.only, h.ofSession, h.evolved⟩
  · simp [Server.begin, hj]
  · simp [Server.begin]
  · by_cases hj : j = i
    · subst hj
      simp [Server.begin] at hw
    · simp only [Server.begin, Function.update_of_ne hj] at hw
      exact hi.1.1 j w hw l hl
  · by_cases hji : j = i
    · subst hji
      simp [Server.begin] at hj
    · simp only [Server.begin, Function.update_of_ne hji] at hj
      exact hi.1.2 j l hj hl
  · simp [Server.begin, h.session]

/-- So does the close of a connection. -/
theorem close_step {g : Server ι Db W Lock} (hi : (protocol S D inv).inv g) :
    (protocol S D inv).guar i g (g.close i) ∧ (protocol S D inv).inv (g.close i) ∧
      At S D i ⟨.idle, [], (g.session i).wrote⟩ [] [] g.db (g.close i) := by
  have hother : ∀ j, j ≠ i → ∀ l, (g.close i).held l = some j ↔ g.held l = some j := by
    intro j hj l
    simp only [Server.close]
    split
    · rename_i hl
      simp [hl, hj.symm]
    · rfl
  have hmine : ∀ l, (g.close i).held l ≠ some i := by
    intro l
    simp only [Server.close]
    split <;> simp_all
  refine ⟨⟨fun j hj => ?_, hother, [], rfl, ?_, by simp⟩,
    ⟨⟨fun j w hw l hl => ?_, fun j l hj hl => ?_⟩, hi.2⟩, ?_, by simp,
    fun l _ => by simpa using hmine l, by simp, Evolved.refl _ _⟩
  · simp [Server.close, hj]
  · simp [Server.close]
  · by_cases hj : j = i
    · subst hj
      simp [Server.close] at hw
    · rw [hother j hj l]
      simp only [Server.close, Function.update_of_ne hj] at hw
      exact hi.1.1 j w hw l hl
  · by_cases hji : j = i
    · subst hji
      exact absurd hl (hmine l)
    · simp only [Server.close, Function.update_of_ne hji] at hj
      exact hi.1.2 j l hj ((hother j hji l).mp hl)
  · simp [Server.close]

/-- An idle session, with a fact about what it has committed. -/
theorem stable_idle (p : List W → Prop) :
    (protocol S D inv).Stable i fun g => (protocol S D inv).idle i g ∧ p (g.session i).wrote :=
  fun g g' _ _ hr h => ⟨(protocol S D inv).idle_rely i g g' hr h.1, by rw [hr.1]; exact h.2⟩

/-! ## The log -/

/-- At the start everyone is idle. -/
theorem idle_start (d : Db) : (protocol S D inv).idle i (Server.start d) :=
  ⟨rfl, rfl, by simp [Server.start]⟩

/-- The invariant of the store is all that is asked at the start. -/
theorem inv_start {d : Db} (h : inv d) :
    (protocol (ι := ι) S D inv).inv (Server.start d) :=
  ⟨⟨by simp [Server.start], by simp [Server.start]⟩, h⟩

/-- `log` is every write committed since the database was `d`, with who committed it. -/
def IsLog (S : Schema Db W Lock) (d : Db) (g : Server ι Db W Lock) (log : List (ι × W)) : Prop :=
  g.db = S.applyAll d (log.map Prod.snd) ∧
    ∀ i, (g.session i).wrote = (log.filter fun e => e.1 = i).map Prod.snd

/-- The committed database is what the sessions have committed, in the order of their
commits. -/
theorem log_of_reachable {Call : Type} {sys : System ι (Server ι Db W Lock) A ε α Call}
    {post : Call → ι → Server ι Db W Lock → Except ε α → Server ι Db W Lock → Prop}
    (hv : sys.Verified (protocol S D inv) post) {d : Db} (hd : inv d)
    {cfg : Config ι (Server ι Db W Lock) A ε α Call} (h : sys.Reachable (Server.start d) cfg) :
    ∃ log, IsLog S d cfg.store log := by
  refine (System.reachable_induction (p := fun cfg => ∃ log, IsLog S d cfg.store log) hv
    (inv_start hd) (fun i => idle_start d) ⟨[], rfl, fun _ => rfl⟩ ?_ h).2
  rintro cfg e cfg' hval ⟨log, hdb, hwrote⟩ he
  rcases hval.guar_next hv e he with hs | ⟨i, hother, -, ws, hdb', hw, -⟩
  · exact ⟨log, by rw [hs, hdb], by rwa [hs]⟩
  · refine ⟨log ++ ws.map fun w => (i, w), ?_, fun j => ?_⟩
    · simp [hdb', hdb, Schema.applyAll_append, Function.comp_def]
    · by_cases hj : j = i
      · subst hj
        have hall : ws.filter (fun _ => true) = ws := List.filter_eq_self.mpr (by simp)
        simp [hw, hwrote, Function.comp_def, List.filter_map, hall]
      · have hij : ¬i = j := fun h => hj h.symm
        simp [hother j hj, hwrote, List.filter_map, Function.comp_def, hij]

/-! ## Rules -/

/-- To do nothing is allowed. -/
theorem guar_refl (g : Server ι Db W Lock) : (protocol S D inv).guar i g g :=
  ⟨fun _ _ => rfl, fun _ _ _ => Iff.rfl, [], rfl, by simp, by simp⟩

section

variable [OfSql ε] {Q : Except ε α → Server ι Db W Lock → Prop} {ws wrote : List W}
  {sl ls : List Lock} {d₀ : Db} {g : Server ι Db W Lock}

/-- The rule of `raise`, for a session with its locks. -/
theorem wp_raise {st : Status} {e : ε} (hi : (protocol S D inv).inv g)
    (h : At S D i ⟨st, ws, wrote⟩ sl ls d₀ g)
    (hQ : ∀ g', (protocol S D inv).inv g' → At S D i ⟨st, ws, wrote⟩ sl ls d₀ g' →
      Q (.error e) g') :
    (protocol S D inv).wp i (.raise e : Prog ι (Server ι Db W Lock) A ε α) Q g :=
  Protocol.wp_raise (At.stable _ _ _ _) hi h hQ

/-- The rule of `ret`, for a session with its locks. -/
theorem wp_ret {st : Status} {a : α} (hi : (protocol S D inv).inv g)
    (h : At S D i ⟨st, ws, wrote⟩ sl ls d₀ g)
    (hQ : ∀ g', (protocol S D inv).inv g' → At S D i ⟨st, ws, wrote⟩ sl ls d₀ g' →
      Q (.ok a) g') :
    (protocol S D inv).wp i (.ret a : Prog ι (Server ι Db W Lock) A ε α) Q g :=
  Protocol.wp_ret (At.stable _ _ _ _) hi h hQ

/-- A client knows the status of its own session. -/
theorem wp_status {st : Status} {f : Status → Prog ι (Server ι Db W Lock) A ε α}
    (hi : (protocol S D inv).inv g) (h : At S D i ⟨st, ws, wrote⟩ sl ls d₀ g)
    (hok : ∀ g', (protocol S D inv).inv g' → At S D i ⟨st, ws, wrote⟩ sl ls d₀ g' →
      (protocol S D inv).wp i (f st) Q g') :
    (protocol S D inv).wp i (Prog.exec statusStmt >>= f) Q g := by
  refine Protocol.wp_stmt (At.stable _ _ _ _) hi h fun g hi h c r g' hq => ?_
  cases hq
  refine ⟨guar_refl g, hi, ?_⟩
  simp only [h.session]
  exact hok g hi h

/-- An answer of the environment changes nothing. -/
theorem wp_ask {read : A → Option R} {st : Status} {f : R → Prog ι (Server ι Db W Lock) A ε α}
    (hi : (protocol S D inv).inv g) (h : At S D i ⟨st, ws, wrote⟩ sl ls d₀ g)
    (hok : ∀ r g', (protocol S D inv).inv g' → At S D i ⟨st, ws, wrote⟩ sl ls d₀ g' →
      (protocol S D inv).wp i (f r) Q g') :
    (protocol S D inv).wp i (Prog.ask read >>= f) Q g := by
  refine Protocol.wp_stmt (At.stable _ _ _ _) hi h fun g hi h c r g' hq => ?_
  cases c with
  | proceed | fault => cases hq
  | answer a =>
    obtain ⟨r', -, heq⟩ := Option.map_eq_some_iff.mp hq
    cases heq
    exact ⟨guar_refl g, hi, hok _ g hi h⟩

/-- What is owed if a statement of the transaction fails, whenever it does. -/
def Fails (S : Schema Db W Lock) (D : Discipline W Lock) (inv : Db → Prop) (i : ι)
    (wrote : List W) (sl : List Lock) (d₀ : Db) (Q : Except ε α → Server ι Db W Lock → Prop) :
    Prop :=
  ∀ e g', (protocol S D inv).inv g' → At S D i ⟨.inError, [], wrote⟩ sl [] d₀ g' →
    Q (.error (OfSql.ofSql e)) g'

/-- What a failure has to show stays shown as the store evolves. -/
theorem Fails.since {d₁ : Db} (h : Fails S D inv i wrote sl d₀ Q)
    (hd : Evolved S D (sl ++ ls) d₀ d₁) : Fails S D inv i wrote sl d₁ Q :=
  fun e g' hi hat => h e g' hi (hat.since (by simpa using hd.mono (by simp; tauto)))

/-- The rule of a statement in a transaction. The client learns the database `d` of the
moment, and the answer on its view of `d` : it fails where the statement does there, or with
the store. -/
theorem wp_statement {q : Sql Db W Lock R} {f : R → Prog ι (Server ι Db W Lock) A ε α}
    (hi : (protocol S D inv).inv g) (h : At S D i ⟨.inTrans, ws, wrote⟩ sl ls d₀ g)
    (hscope : ∀ d, ∀ l ∈ q.wants d, S.ofSession l = false)
    (hfault : ∀ g', (protocol S D inv).inv g' → At S D i ⟨.inError, [], wrote⟩ sl [] d₀ g' →
      Q (.error (OfSql.ofSql .unavailable)) g')
    (herr : ∀ d, inv d → Evolved S D (sl ++ ls) d₀ d → ∀ e,
      q.run (S.applyAll d ws) = .error e → ∀ g', (protocol S D inv).inv g' →
      At S D i ⟨.inError, [], wrote⟩ sl [] d g' → Q (.error (OfSql.ofSql e)) g')
    (hok : ∀ d, inv d → Evolved S D (sl ++ ls) d₀ d → ∀ r ws',
      q.run (S.applyAll d ws) = .ok (r, ws') →
      (∀ w ∈ ws', ∀ l ∈ D.locks w, l ∈ ls ++ q.wants (S.applyAll d ws)) ∧
      ∀ g', (protocol S D inv).inv g' →
        At S D i ⟨.inTrans, ws ++ ws', wrote⟩ sl (ls ++ q.wants (S.applyAll d ws)) d g' →
        (protocol S D inv).wp i (f r) Q g') :
    (protocol S D inv).wp i (sql S q >>= f) Q g := by
  refine Protocol.wp_stmt (At.stable _ _ _ _) hi h fun g hi h c r g' hq => ?_
  have hview : S.view g i = S.applyAll g.db ws := by rw [Schema.view, h.session]
  obtain ⟨ha, hia, hata⟩ := abort_step hi h
  cases c with
  | fault =>
    cases hq
    have hev : Evolved S D (sl ++ []) d₀ g.db := h.evolved.mono (by simp; tauto)
    exact ⟨ha, hia, wp_raise hia (hata.since hev) hfault⟩
  | answer a => cases hq
  | proceed =>
    simp only [Sql.exec, h.session, hview, reduceCtorEq, if_false] at hq
    split at hq
    · rename_i hfree
      split at hq
      · rename_i e hrun
        cases hq
        exact ⟨ha, hia, wp_raise hia hata (herr g.db hi.2 h.evolved e hrun)⟩
      · rename_i r' ws' hrun
        cases hq
        obtain ⟨hlocks, hcont⟩ := hok g.db hi.2 h.evolved r' ws' hrun
        obtain ⟨hg, hi', hat⟩ := stage_step hi h rfl hfree (hscope _) hlocks
        exact ⟨hg, hi', hcont _ hi' hat⟩
    · cases hq

/-- The same where any failure is reported alike. -/
theorem wp_sql {q : Sql Db W Lock R} {f : R → Prog ι (Server ι Db W Lock) A ε α}
    (hi : (protocol S D inv).inv g) (h : At S D i ⟨.inTrans, ws, wrote⟩ sl ls d₀ g)
    (hscope : ∀ d, ∀ l ∈ q.wants d, S.ofSession l = false)
    (herr : Fails S D inv i wrote sl d₀ Q)
    (hok : ∀ d, inv d → Evolved S D (sl ++ ls) d₀ d → ∀ r ws',
      q.run (S.applyAll d ws) = .ok (r, ws') →
      (∀ w ∈ ws', ∀ l ∈ D.locks w, l ∈ ls ++ q.wants (S.applyAll d ws)) ∧
      ∀ g', (protocol S D inv).inv g' →
        At S D i ⟨.inTrans, ws ++ ws', wrote⟩ sl (ls ++ q.wants (S.applyAll d ws)) d g' →
        (protocol S D inv).wp i (f r) Q g') :
    (protocol S D inv).wp i (sql S q >>= f) Q g :=
  wp_statement hi h hscope (herr _) (fun _ _ hev e _ => herr.since hev e) hok

/-- The rule of a read: any store that the locks allow may be seen. -/
theorem wp_read {row : Db → R} {f : R → Prog ι (Server ι Db W Lock) A ε α}
    (hi : (protocol S D inv).inv g) (h : At S D i ⟨.inTrans, ws, wrote⟩ sl ls d₀ g)
    (herr : Fails S D inv i wrote sl d₀ Q)
    (hok : ∀ d, inv d → Evolved S D (sl ++ ls) d₀ d → ∀ g', (protocol S D inv).inv g' →
      At S D i ⟨.inTrans, ws, wrote⟩ sl ls d g' →
      (protocol S D inv).wp i (f (row (S.applyAll d ws))) Q g') :
    (protocol S D inv).wp i (sql S (.read row) >>= f) Q g := by
  refine wp_sql hi h (by simp [Sql.read]) herr fun d hd hev r ws' hrun => ?_
  cases hrun
  refine ⟨by simp, fun g' hi' h' => hok d hd hev g' hi' ?_⟩
  simpa [Sql.read] using h'

/-- The rule of a read that takes the locks of its row. -/
theorem wp_readForUpdate {row : Db → Option R} {locks : R → List Lock}
    {f : Option R → Prog ι (Server ι Db W Lock) A ε α}
    (hi : (protocol S D inv).inv g) (h : At S D i ⟨.inTrans, ws, wrote⟩ sl ls d₀ g)
    (hscope : ∀ r, ∀ l ∈ locks r, S.ofSession l = false)
    (herr : Fails S D inv i wrote sl d₀ Q)
    (hnone : ∀ d, inv d → Evolved S D (sl ++ ls) d₀ d → row (S.applyAll d ws) = none →
      ∀ g', (protocol S D inv).inv g' → At S D i ⟨.inTrans, ws, wrote⟩ sl ls d g' →
      (protocol S D inv).wp i (f none) Q g')
    (hsome : ∀ d, inv d → Evolved S D (sl ++ ls) d₀ d → ∀ r, row (S.applyAll d ws) = some r →
      ∀ g', (protocol S D inv).inv g' →
      At S D i ⟨.inTrans, ws, wrote⟩ sl (ls ++ locks r) d g' →
      (protocol S D inv).wp i (f (some r)) Q g') :
    (protocol S D inv).wp i (sql S (.readForUpdate row locks) >>= f) Q g := by
  refine wp_sql hi h (fun d l hl => ?_) herr fun d hd hev r ws' hrun => ?_
  · cases hr : row d with
    | none => simp [Sql.readForUpdate, hr] at hl
    | some r => exact hscope r l (by simpa [Sql.readForUpdate, hr] using hl)
  · cases hrun
    refine ⟨by simp, fun g' hi' h' => ?_⟩
    cases hr : row (S.applyAll d ws) with
    | none => exact hnone d hd hev hr g' hi' (by simpa [Sql.readForUpdate, hr] using h')
    | some r => exact hsome d hd hev r hr g' hi' (by simpa [Sql.readForUpdate, hr] using h')

/-- The rule of an update: the row is read once its locks are held. -/
theorem wp_update {row : Db → Option R} {locks : R → List Lock} {w : R → W}
    {f : Option R → Prog ι (Server ι Db W Lock) A ε α}
    (hi : (protocol S D inv).inv g) (h : At S D i ⟨.inTrans, ws, wrote⟩ sl ls d₀ g)
    (hscope : ∀ r, ∀ l ∈ locks r, S.ofSession l = false)
    (herr : Fails S D inv i wrote sl d₀ Q)
    (hnone : ∀ d, inv d → Evolved S D (sl ++ ls) d₀ d → row (S.applyAll d ws) = none →
      ∀ g', (protocol S D inv).inv g' → At S D i ⟨.inTrans, ws, wrote⟩ sl ls d g' →
      (protocol S D inv).wp i (f none) Q g')
    (hsome : ∀ d, inv d → Evolved S D (sl ++ ls) d₀ d → ∀ r, row (S.applyAll d ws) = some r →
      (∀ l ∈ D.locks (w r), l ∈ ls ++ locks r) ∧ ∀ g', (protocol S D inv).inv g' →
      At S D i ⟨.inTrans, ws ++ [w r], wrote⟩ sl (ls ++ locks r) d g' →
      (protocol S D inv).wp i (f (some r)) Q g') :
    (protocol S D inv).wp i (sql S (.update row locks w) >>= f) Q g := by
  refine wp_sql hi h (fun d l hl => ?_) herr fun d hd hev r ws' hrun => ?_
  · cases hr : row d with
    | none => simp [Sql.update, hr] at hl
    | some r => exact hscope r l (by simpa [Sql.update, hr] using hl)
  · cases hrun
    cases hr : row (S.applyAll d ws) with
    | none =>
      exact ⟨by simp, fun g' hi' h' =>
        hnone d hd hev hr g' hi' (by simpa [Sql.update, hr] using h')⟩
    | some r =>
      obtain ⟨hlocks, hcont⟩ := hsome d hd hev r hr
      exact ⟨by simpa [Sql.update, hr] using hlocks, fun g' hi' h' =>
        hcont g' hi' (by simpa [Sql.update, hr] using h')⟩

/-- The rule of an insert, which may conflict. -/
theorem wp_insert {conflict : Db → Option String} {locks : List Lock} {w : W}
    {f : Unit → Prog ι (Server ι Db W Lock) A ε α}
    (hi : (protocol S D inv).inv g) (h : At S D i ⟨.inTrans, ws, wrote⟩ sl ls d₀ g)
    (hscope : ∀ l ∈ locks, S.ofSession l = false) (hlocks : ∀ l ∈ D.locks w, l ∈ ls ++ locks)
    (herr : Fails S D inv i wrote sl d₀ Q)
    (hok : ∀ d, inv d → Evolved S D (sl ++ ls) d₀ d → conflict (S.applyAll d ws) = none →
      ∀ g', (protocol S D inv).inv g' →
      At S D i ⟨.inTrans, ws ++ [w], wrote⟩ sl (ls ++ locks) d g' →
      (protocol S D inv).wp i (f ()) Q g') :
    (protocol S D inv).wp i (sql S (.insert conflict locks w) >>= f) Q g := by
  refine wp_sql hi h (fun d l hl => ?_) herr fun d hd hev r ws' hrun => ?_
  · simp only [Sql.insert] at hl
    split at hl
    · cases hl
    · exact hscope l hl
  · cases hc : conflict (S.applyAll d ws) with
    | some name => simp [Sql.insert, hc] at hrun
    | none =>
      simp only [Sql.insert, hc] at hrun
      cases hrun
      refine ⟨by simpa [Sql.insert, hc] using hlocks, fun g' hi' h' => ?_⟩
      exact hok d hd hev hc g' hi' (by simpa [Sql.insert, hc] using h')

/-- The rule of an insert that leaves a conflicting row. -/
theorem wp_insertOnConflict {check : Option String} {conflict : Db → Bool}
    {broken : Db → Option String} {locks : List Lock} {w : W}
    {f : Bool → Prog ι (Server ι Db W Lock) A ε α}
    (hi : (protocol S D inv).inv g) (h : At S D i ⟨.inTrans, ws, wrote⟩ sl ls d₀ g)
    (hscope : ∀ l ∈ locks, S.ofSession l = false) (hlocks : ∀ l ∈ D.locks w, l ∈ ls ++ locks)
    (herr : Fails S D inv i wrote sl d₀ Q)
    (hconflict : ∀ d, inv d → Evolved S D (sl ++ ls) d₀ d → conflict (S.applyAll d ws) = true →
      ∀ g', (protocol S D inv).inv g' → At S D i ⟨.inTrans, ws, wrote⟩ sl ls d g' →
      (protocol S D inv).wp i (f false) Q g')
    (hok : ∀ d, inv d → Evolved S D (sl ++ ls) d₀ d → conflict (S.applyAll d ws) = false →
      broken (S.applyAll d ws) = none → ∀ g', (protocol S D inv).inv g' →
      At S D i ⟨.inTrans, ws ++ [w], wrote⟩ sl (ls ++ locks) d g' →
      (protocol S D inv).wp i (f true) Q g') :
    (protocol S D inv).wp i (sql S (.insertOnConflict check conflict broken locks w) >>= f)
      Q g := by
  refine wp_sql hi h (fun d l hl => ?_) herr fun d hd hev r ws' hrun => ?_
  · simp only [Sql.insertOnConflict] at hl
    split at hl
    · cases hl
    · exact hscope l hl
  · simp only [Sql.insertOnConflict] at hrun
    split at hrun
    · cases hrun
    · cases hc : conflict (S.applyAll d ws) with
      | true =>
        simp only [hc, if_true] at hrun
        cases hrun
        exact ⟨by simp, fun g' hi' h' =>
          hconflict d hd hev hc g' hi' (by simpa [Sql.insertOnConflict, hc] using h')⟩
      | false =>
        simp only [hc, Bool.false_eq_true, if_false] at hrun
        split at hrun
        · cases hrun
        · rename_i hb
          cases hrun
          refine ⟨by simpa [Sql.insertOnConflict, hc, hb] using hlocks, fun g' hi' h' => ?_⟩
          exact hok d hd hev hc hb g' hi' (by simpa [Sql.insertOnConflict, hc, hb] using h')

/-- The rule of a lock that is waited for. -/
theorem wp_lock {locks : List Lock} {f : Unit → Prog ι (Server ι Db W Lock) A ε α}
    (hi : (protocol S D inv).inv g) (h : At S D i ⟨.inTrans, ws, wrote⟩ sl ls d₀ g)
    (hscope : ∀ l ∈ locks, S.ofSession l = false) (herr : Fails S D inv i wrote sl d₀ Q)
    (hok : ∀ d, inv d → Evolved S D (sl ++ ls) d₀ d → ∀ g', (protocol S D inv).inv g' →
      At S D i ⟨.inTrans, ws, wrote⟩ sl (ls ++ locks) d g' →
      (protocol S D inv).wp i (f ()) Q g') :
    (protocol S D inv).wp i (sql S (.lock locks) >>= f) Q g := by
  refine wp_sql hi h (fun d => hscope) herr fun d hd hev r ws' hrun => ?_
  cases hrun
  exact ⟨by simp, fun g' hi' h' => hok d hd hev g' hi' (by simpa [Sql.lock] using h')⟩

/-- The rule of a read outside a transaction. -/
theorem wp_read_idle {row : Db → R} {f : R → Prog ι (Server ι Db W Lock) A ε α}
    (hi : (protocol S D inv).inv g) (h : At S D i ⟨.idle, [], wrote⟩ sl [] d₀ g)
    (herr : ∀ e g', (protocol S D inv).inv g' → At S D i ⟨.idle, [], wrote⟩ sl [] d₀ g' →
      Q (.error (OfSql.ofSql e)) g')
    (hok : ∀ d, inv d → Evolved S D sl d₀ d → ∀ g', (protocol S D inv).inv g' →
      At S D i ⟨.idle, [], wrote⟩ sl [] d g' → (protocol S D inv).wp i (f (row d)) Q g') :
    (protocol S D inv).wp i (sql S (.read row) >>= f) Q g := by
  refine Protocol.wp_stmt (At.stable _ _ _ _) hi h fun g hi h c r g' hq => ?_
  have hview : S.view g i = g.db := by rw [Schema.view, h.session]; rfl
  cases c with
  | fault =>
    cases hq
    obtain ⟨ha, hia, hata⟩ := abort_step hi h
    exact ⟨ha, hia, wp_raise hia hata fun g' hi' h' => herr _ g' hi' (h'.since h.evolved)⟩
  | answer a => cases hq
  | proceed =>
    simp only [Sql.exec, h.session, hview, reduceCtorEq, if_false, if_true, Sql.read,
      List.all_nil] at hq
    cases hq
    have hstage : S.commit (g.stage i [] []) i = S.rollback g i := by
      simp [Schema.commit, Schema.rollback, Schema.leave, Schema.view, Server.stage, h.session]
    obtain ⟨hr, hir, hatr⟩ := rollback_step hi h
    rw [hstage]
    exact ⟨hr, hir, hok g.db hi.2 (by simpa using h.evolved) _ hir hatr⟩

/-- What the body of a transaction has to end in : if it returns, what it has staged keeps
the invariant when it is committed, and it is ready for the commit to fail. The commit of
an aborted transaction is a rollback. -/
def Done (S : Schema Db W Lock) (D : Discipline W Lock) (inv : Db → Prop) (i : ι)
    (wrote : List W) (sl : List Lock) (Q : Except ε α → Server ι Db W Lock → Prop) :
    Except ε α → Server ι Db W Lock → Prop
  | .ok a, g => ∃ st ls ws d₀, At S D i ⟨st, ws, wrote⟩ sl ls d₀ g ∧
      (st = .inTrans ∨ st = .inError ∧ ws = []) ∧
      ∀ d, inv d → Evolved S D (sl ++ ls) d₀ d → inv (S.applyAll d ws) ∧
        (∀ g', At S D i ⟨.idle, [], wrote ++ ws⟩ sl [] (S.applyAll d ws) g' → Q (.ok a) g') ∧
        ∀ e g', At S D i ⟨.idle, [], wrote⟩ sl [] d g' → Q (.error (OfSql.ofSql e)) g'
  | .error e, g => ∃ st ls ws d₀, At S D i ⟨st, ws, wrote⟩ sl ls d₀ g ∧
      ∀ g', At S D i ⟨.idle, [], wrote⟩ sl [] d₀ g' → Q (.error e) g'

/-- The same where the store itself is the only thing that fails a commit. -/
def Completes (S : Schema Db W Lock) (D : Discipline W Lock) (inv : Db → Prop) (i : ι)
    (wrote : List W) (sl : List Lock) (Q : Except ε α → Server ι Db W Lock → Prop) :
    Except ε α → Server ι Db W Lock → Prop
  | .ok a, g => ∃ st ls ws d₀, At S D i ⟨st, ws, wrote⟩ sl ls d₀ g ∧
      (st = .inTrans ∨ st = .inError ∧ ws = []) ∧
      ∀ d, inv d → Evolved S D (sl ++ ls) d₀ d → inv (S.applyAll d ws) ∧
        (∀ g', At S D i ⟨.idle, [], wrote ++ ws⟩ sl [] (S.applyAll d ws) g' → Q (.ok a) g') ∧
        ∀ g', At S D i ⟨.idle, [], wrote⟩ sl [] d g' → Q (.error (OfSql.ofSql .unavailable)) g'
  | .error e, g => ∃ st ls ws d₀, At S D i ⟨st, ws, wrote⟩ sl ls d₀ g ∧
      ∀ g', At S D i ⟨.idle, [], wrote⟩ sl [] d₀ g' → Q (.error e) g'

/-- What is done is complete. -/
theorem Done.completes {out : Except ε α} (h : Done S D inv i wrote sl Q out g) :
    Completes S D inv i wrote sl Q out g := by
  cases out with
  | error e => exact h
  | ok a =>
    obtain ⟨st, ls, ws, d₀, hat, hst, hend⟩ := h
    refine ⟨st, ls, ws, d₀, hat, hst, fun d hd hev => ?_⟩
    obtain ⟨hinv, hret, hfail⟩ := hend d hd hev
    exact ⟨hinv, hret, hfail .unavailable⟩

/-- The rule of a transaction. -/
theorem wp_transaction_completes {body : Prog ι (Server ι Db W Lock) A ε α}
    (hQ : ∀ out, (protocol S D inv).Stable i (Q out)) (hi : (protocol S D inv).inv g)
    (h : At S D i ⟨.idle, [], wrote⟩ sl [] d₀ g)
    (hfault : ∀ g', At S D i ⟨.idle, [], wrote⟩ sl [] d₀ g' →
      Q (.error (OfSql.ofSql .unavailable)) g')
    (hbody : ∀ g', (protocol S D inv).inv g' → At S D i ⟨.inTrans, [], wrote⟩ sl [] d₀ g' →
      (protocol S D inv).wp i body (Completes S D inv i wrote sl Q) g') :
    (protocol S D inv).wp i (transaction S body) Q g := by
  have hraise : ∀ e g', (protocol S D inv).inv g' → Q (.error e) g' →
      (protocol S D inv).wp i (.raise e : Prog ι (Server ι Db W Lock) A ε α) Q g' :=
    fun e g' hi' h' => Protocol.wp_raise (hQ _) hi' h' fun _ _ h => h
  refine Protocol.wp_stmt (At.stable _ _ _ _) hi h fun g hi h c r g₁ hq => ?_
  cases c with
  | fault =>
    cases hq
    exact ⟨guar_refl g, hi, hraise _ _ hi (hfault _ h)⟩
  | answer a => cases hq
  | proceed =>
    cases hq
    obtain ⟨hg, hi', hat⟩ := begin_step hi h
    refine ⟨hg, hi', Protocol.wp_bind (p := body.tryCatch _) hi' (Protocol.wp_tryCatch hi' ?_)⟩
    refine Protocol.wp_mono (fun out g₂ hi₂ hd => ?_) (hbody _ hi' hat)
    cases out with
    | error e =>
      obtain ⟨st, ls', ws, d₁, hat, hend⟩ := hd
      refine Protocol.wp_stmt (At.stable _ _ _ _) hi₂ hat fun g hi h c r g₃ hq => ?_
      obtain ⟨hr, hir, hatr⟩ := rollback_step hi h
      have hev : Evolved S D (sl ++ []) d₁ g.db := h.evolved.mono (by simp; tauto)
      cases c with
      | answer a => cases hq
      | proceed | fault =>
        cases hq
        exact ⟨hr, hir, hraise _ _ hir (hend _ (hatr.since hev))⟩
    | ok a =>
      obtain ⟨st, ls', ws, d₁, hat, hst, hend⟩ := hd
      refine Protocol.wp_stmt (At.stable _ _ _ _) hi₂ hat fun g hi h c r g₃ hq => ?_
      obtain ⟨hr, hir, hatr⟩ := rollback_step hi h
      obtain ⟨hd, hret, hfail⟩ := hend g.db hi.2 h.evolved
      cases c with
      | answer a => cases hq
      | fault =>
        cases hq
        exact ⟨hr, hir, hraise _ _ hir (hfail _ hatr)⟩
      | proceed =>
        rcases hst with rfl | ⟨rfl, rfl⟩
        · simp only [commitStmt, h.session] at hq
          cases hq
          obtain ⟨hc, hic, hatc⟩ := commit_step hi h hd
          exact ⟨hc, hic, Protocol.wp_ret (hQ _) hic (hret _ hatc) fun _ _ h => h⟩
        · simp only [commitStmt, h.session] at hq
          cases hq
          refine ⟨hr, hir, Protocol.wp_ret (hQ _) hir (hret _ ?_) fun _ _ h => h⟩
          simpa using hatr

/-- The rule of a transaction any failure of which is reported alike. -/
theorem wp_transaction {body : Prog ι (Server ι Db W Lock) A ε α}
    (hQ : ∀ out, (protocol S D inv).Stable i (Q out)) (hi : (protocol S D inv).inv g)
    (h : At S D i ⟨.idle, [], wrote⟩ sl [] d₀ g)
    (herr : ∀ e g', At S D i ⟨.idle, [], wrote⟩ sl [] d₀ g' → Q (.error (OfSql.ofSql e)) g')
    (hbody : ∀ g', (protocol S D inv).inv g' → At S D i ⟨.inTrans, [], wrote⟩ sl [] d₀ g' →
      (protocol S D inv).wp i body (Done S D inv i wrote sl Q) g') :
    (protocol S D inv).wp i (transaction S body) Q g :=
  wp_transaction_completes hQ hi h (herr _) fun g' hi' h' =>
    Protocol.wp_mono (fun _ _ _ hd => hd.completes) (hbody g' hi' h')

end

end

end ReadCommitted
