import InvoiceOps.Ledger

/-!
# Calls between transactions

The rules of a call that runs its transactions one after the other and holds no lock in between.
What it may carry from one to the next is a `Lasting` fact, which no write of the program undoes :
an event or a decision is never changed or removed. `Ends` is how such a call ends, the `rest` rules
are for the calls and the `done` rules for the body of a transaction.
-/

set_option linter.unusedSectionVars false

open Shared ReadCommitted

namespace InvoiceOps

/-! ## What no write undoes -/

/-- A fact about the database that no write undoes. -/
def Lasting (p : Db → Prop) : Prop :=
  ∀ d w, p d → p (schema.apply d w)

/-- What lasts is still there after the writes of others. -/
theorem Lasting.becomes {lockKey : String → ℤ} {ls : List Lock} {p : Db → Prop} (hp : Lasting p)
    {d d' : Db} (hd : Becomes lockKey ls d d') (h : p d) : p d' :=
  hd.lasting hp h

/-- A fact about no state lasts. -/
theorem Lasting.const (p : Prop) : Lasting fun _ => p :=
  fun _ _ h => h

/-- An event stays in the ledger. -/
theorem lasting_event (p : LedgerEvent → Prop) : Lasting fun d => ∃ e ∈ d.ledger, p e := by
  rintro d w ⟨e, he, hp⟩
  refine ⟨e, ?_, hp⟩
  cases w with
  | insertEvent e' => exact List.mem_append_left _ he
  | _ => exact he

/-- A decision is never changed or removed. -/
theorem mem_decisions_apply {row : DecisionRow} (d : Db) (w : Write) (h : row ∈ d.decisions) :
    row ∈ (schema.apply d w).decisions := by
  cases w with
  | insertDecision r => exact List.mem_append_left _ h
  | _ => exact h

/-- A decision stays in its table. -/
theorem lasting_decision (p : DecisionRow → Prop) : Lasting fun d => ∃ r ∈ d.decisions, p r := by
  rintro d w ⟨r, hr, hp⟩
  exact ⟨r, mem_decisions_apply d w hr, hp⟩

/-! ## What an append raises -/

section

variable {ι A : Type} [DecidableEq ι] {w : LedgerWriter} {command : AppendEvent}

/-- A failure of `_append` before it is reported. -/
def StageError (e : Exn) : Prop :=
  e.isInstance .ledgerError ∨ e.isInstance .psycopgError ∨ e.isInstance .validationError

/-- An error of the database is one of an append. -/
theorem stageError_sql (e : SqlError) : StageError (OfSql.ofSql e) := by
  cases e <;> exact .inr (.inl rfl)

/-- So is another run's identity. -/
theorem stageError_identity {row : RunRow} {e : Exn}
    (h : w.checkIdentity command row = .error e) : StageError e := by
  unfold LedgerWriter.checkIdentity RunIdentity.validate at h
  split at h
  · rename_i e' hvalidate
    obtain rfl : e' = e := Except.error.inj h
    split at hvalidate
    · split_ifs at hvalidate
      cases hvalidate
      exact .inr (.inr rfl)
    · cases hvalidate
      exact .inr (.inr rfl)
  · split_ifs at h
    cases h
    exact .inl rfl

/-- And a supersession that is refused. -/
theorem stageError_supersession {previous : Option LedgerEvent} {e : Exn}
    (h : LedgerWriter.checkSupersession command previous = .error e) : StageError e := by
  unfold LedgerWriter.checkSupersession at h
  split at h
  · cases h
    exact .inl rfl
  · split_ifs at h
    cases h
    exact .inl rfl

/-- What staging an append may raise. -/
theorem raises_stage : (w.stage command : Client ι A LedgerEvent).Raises StageError := by
  unfold LedgerWriter.stage
  refine Prog.Raises.bind (fun row => ?_) (raises_sql stageError_sql _)
  cases row with
  | none => exact .inl rfl
  | some row =>
    refine Prog.Raises.bind (fun _ => ?_) (Prog.raises_ofExcept fun _ h => stageError_identity h)
    have htail : (do
        let sequence ← sql schema (.read fun d => d.nextSequence command.runId)
        sql schema (LedgerWriter.insertLedger (w.stamp command sequence))
        return w.stamp command sequence : Client ι A LedgerEvent).Raises StageError :=
      Prog.Raises.bind (fun _ => Prog.Raises.bind (fun _ => Prog.raises_pure _)
        (raises_sql stageError_sql _)) (raises_sql stageError_sql _)
    cases command.supersedesId with
    | none => exact htail
    | some id =>
      exact Prog.Raises.bind (fun _ => Prog.Raises.bind (fun _ => htail)
        (Prog.raises_ofExcept fun _ h => stageError_supersession h)) (raises_sql stageError_sql _)

/-- An append raises an error of the ledger, or finds its trace malformed. -/
theorem raises_append (traceId : String) :
    (w.append command traceId : Client ι A LedgerEvent).Raises
    fun e => e.isInstance .ledgerError ∨ e.isInstance .validationError := by
  unfold LedgerWriter.append
  split_ifs
  · refine Prog.Raises.bind (fun status => ?_) fun _ => trivial
    split_ifs
    · refine Prog.Raises.tryCatch (fun e he => ?_) raises_stage
      unfold LedgerWriter.reported
      split_ifs with hledger hintegrity hother
      · exact .inl hledger
      · exact .inl rfl
      · exact .inl rfl
      · exact absurd (he.resolve_left hledger) hother
    · exact .inl rfl
  · exact .inr rfl

end

/-! ## Between transactions -/

section

variable {ι A α β : Type} [DecidableEq ι] {lockKey : String → ℤ} {inv : Db → Prop} {i : ι}
  {q : α → Db → Prop} {r : β → Db → Prop} {g : Server ι Db Write Lock} {wrote ws : List Write}
  {ls : List Lock} {d₀ : Db}

/-- The call has ended, with `q` of its answer and the database. -/
def Ends (lockKey : String → ℤ) (inv : Db → Prop) (i : ι) (q : α → Db → Prop) (out : Except Exn α)
    (g : Server ι Db Write Lock) : Prop :=
  (operations lockKey inv).idle i g ∧ ∀ a, out = .ok a → q a g.db

/-- How a call ends does not depend on what the others do. -/
theorem stable_ends (hq : ∀ a, Lasting (q a)) (out : Except Exn α) :
    (operations lockKey inv).Stable i (Ends lockKey inv i q out) := by
  rintro g g' - - hr ⟨hidle, h⟩
  refine ⟨(operations lockKey inv).idle_rely i g g' hr hidle, fun a ha => ?_⟩
  obtain ⟨-, -, ws, hdb, -⟩ := hr
  rw [hdb]
  exact schema.applyAll_induction (fun d w _ => hq a d w) (h a ha)

/-- Neither does what lasts. -/
theorem stable_rest {p : Db → Prop} (hp : Lasting p) :
    (operations lockKey inv).Stable i fun g => (operations lockKey inv).idle i g ∧ p g.db := by
  rintro g g' - - hr ⟨hidle, h⟩
  refine ⟨(operations lockKey inv).idle_rely i g g' hr hidle, ?_⟩
  obtain ⟨-, -, ws, hdb, -⟩ := hr
  rw [hdb]
  exact schema.applyAll_induction (fun d w _ => hp d w) h

/-- A call with its answer put in another type. -/
theorem rest_answer {prog : Client ι A α} {f : α → β} (hq : ∀ a, Lasting (q a))
    (hi : (operations lockKey inv).inv g)
    (hprog : (operations lockKey inv).wp i prog (Ends lockKey inv i q) g) :
    (operations lockKey inv).wp i (do let a ← prog; return f a : Client ι A β)
      (fun out g' => (operations lockKey inv).idle i g' ∧
        ∀ b, out = .ok b → ∃ a, b = f a ∧ q a g'.db) g := by
  refine Protocol.wp_bind hi (Protocol.wp_mono (fun out g' hi' h => ?_) hprog)
  cases out with
  | ok a =>
    refine Protocol.wp_ret (stable_rest (hq a)) hi' ⟨h.1, h.2 a rfl⟩ fun g'' _ h'' => ?_
    exact ⟨h''.1, fun b hb => ⟨a, (Except.ok.inj hb).symm, h''.2⟩⟩
  | error e => exact ⟨h.1, fun _ h => (by cases h)⟩

/-- A fact that no write undoes holds to the end of a call. -/
theorem wp_lasting {p : Db → Prop} (hp : Lasting p)
    {Q : Except Exn α → Server ι Db Write Lock → Prop} :
    ∀ {prog : Client ι A α} {g : Server ι Db Write Lock}, p g.db →
      (operations lockKey inv).wp i prog Q g →
      (operations lockKey inv).wp i prog (fun out g' => Q out g' ∧ p g'.db) g
  | .ret _, g, hg, h => fun g' hr hi => by
    obtain ⟨-, -, ws, hdb, -⟩ := id hr
    exact ⟨h g' hr hi, hdb ▸ schema.applyAll_induction (fun d w _ => hp d w) hg⟩
  | .raise _, g, hg, h => fun g' hr hi => by
    obtain ⟨-, -, ws, hdb, -⟩ := id hr
    exact ⟨h g' hr hi, hdb ▸ schema.applyAll_induction (fun d w _ => hp d w) hg⟩
  | .stmt _ k, g, hg, h => fun g' hr hi c r g'' hq => by
    obtain ⟨-, -, ws, hdb, -⟩ := id hr
    obtain ⟨hguar, hi', hk⟩ := h g' hr hi c r g'' hq
    obtain ⟨-, -, ws', hdb', -⟩ := id hguar
    have hg' : p g'.db := hdb ▸ schema.applyAll_induction (fun d w _ => hp d w) hg
    exact ⟨hguar, hi', wp_lasting hp
      (hdb' ▸ schema.applyAll_induction (fun d w _ => hp d w) hg') hk⟩

/-- The sequence of two calls, with a fact that no write undoes. -/
theorem rest_bind_lasting {p : Db → Prop} (hp : Lasting p) {prog : Client ι A α}
    {f : α → Client ι A β} (hi : (operations lockKey inv).inv g) (hg : p g.db)
    (hprog : (operations lockKey inv).wp i prog (Ends lockKey inv i q) g)
    (hf : ∀ a g', (operations lockKey inv).inv g' → (operations lockKey inv).idle i g' →
      p g'.db → q a g'.db → (operations lockKey inv).wp i (f a) (Ends lockKey inv i r) g') :
    (operations lockKey inv).wp i (prog >>= f) (Ends lockKey inv i r) g := by
  refine Protocol.wp_bind hi (Protocol.wp_mono (fun out g' hi' h => ?_) (wp_lasting hp hg hprog))
  cases out with
  | ok a => exact hf a g' hi' h.1.1 h.2 (h.1.2 a rfl)
  | error e => exact ⟨h.1.1, fun _ h => (by cases h)⟩

/-- A program that raises has ended. -/
theorem rest_raise {e : Exn} (hi : (operations lockKey inv).inv g)
    (hidle : (operations lockKey inv).idle i g) :
    (operations lockKey inv).wp i (.raise e : Client ι A α) (Ends lockKey inv i q) g :=
  Protocol.wp_raise (stable_rest (Lasting.const True)) hi ⟨hidle, trivial⟩
    fun _ _ h => ⟨h.1, fun _ h => (by cases h)⟩

/-- So has one that returns. -/
theorem rest_ret {a : α} (hq : Lasting (q a)) (hi : (operations lockKey inv).inv g)
    (hidle : (operations lockKey inv).idle i g) (h : q a g.db) :
    (operations lockKey inv).wp i (.ret a : Client ι A α) (Ends lockKey inv i q) g := by
  refine Protocol.wp_ret (stable_rest hq) hi ⟨hidle, h⟩ fun _ _ h => ⟨h.1, fun b hb => ?_⟩
  obtain rfl : a = b := Except.ok.inj hb
  exact h.2

/-- A failure that is reported in another way. -/
theorem rest_reported {p : Client ι A α} {f : Exn → Exn} (hi : (operations lockKey inv).inv g)
    (hp : (operations lockKey inv).wp i p (Ends lockKey inv i q) g) :
    (operations lockKey inv).wp i (p.tryCatch fun e => throw (f e)) (Ends lockKey inv i q) g := by
  refine Protocol.wp_tryCatch hi (Protocol.wp_mono (fun out g' hi' h => ?_) hp)
  cases out with
  | ok a => exact h
  | error e => exact rest_raise hi' h.1

/-- A program reads between two transactions ; the others may write before and after. -/
theorem rest_read {R : Type} {row : Db → R} {f : R → Client ι A α}
    (hi : (operations lockKey inv).inv g) (hidle : (operations lockKey inv).idle i g)
    (hok : ∀ d g', inv d → Becomes lockKey [] g.db d → Becomes lockKey [] d g'.db →
      (operations lockKey inv).inv g' → (operations lockKey inv).idle i g' →
      (operations lockKey inv).wp i (f (row d)) (Ends lockKey inv i q) g') :
    (operations lockKey inv).wp i (sql schema (.read row) >>= f) (Ends lockKey inv i q) g :=
  wp_read_idle hi (At.of_idle hidle) (fun _ _ _ h => ⟨h.idle, fun _ h => (by cases h)⟩)
    fun d hd hev _ hi' h => hok d _ hd hev h.evolved hi' h.idle

/-- The rule of a transaction between two rests. -/
theorem rest_transaction {body : Client ι A α} (hq : ∀ a, Lasting (q a))
    (hi : (operations lockKey inv).inv g) (hidle : (operations lockKey inv).idle i g)
    (hbody : ∀ g', (operations lockKey inv).inv g' →
      Knows lockKey i ⟨.inTrans, [], (g.session i).wrote⟩ [] [] g.db g' →
      (operations lockKey inv).wp i body (Done schema (discipline lockKey) inv i
        (g.session i).wrote [] (Ends lockKey inv i q)) g') :
    (operations lockKey inv).wp i (transaction schema body) (Ends lockKey inv i q) g :=
  wp_transaction (fun out => stable_ends hq out) hi (At.of_idle hidle)
    (fun _ _ h => ⟨h.idle, fun _ h => (by cases h)⟩) fun g' hi' h' => hbody g' hi' h'

/-- A failure of the database ends a call. -/
theorem fails_ends (d : Db) : Fails lockKey inv i wrote [] d
    (Done schema (discipline lockKey) inv i wrote [] (Ends lockKey inv i q)) :=
  fun _ _ _ h => ⟨_, _, _, _, h, fun _ h' => ⟨h'.idle, fun _ h => (by cases h)⟩⟩

/-- A transaction that is ended by an error has written nothing. -/
theorem done_raise {e : Exn} (hi : (operations lockKey inv).inv g)
    (h : Knows lockKey i ⟨.inTrans, ws, wrote⟩ [] ls d₀ g) :
    (operations lockKey inv).wp i (.raise e : Client ι A α)
      (Done schema (discipline lockKey) inv i wrote [] (Ends lockKey inv i q)) g :=
  wp_raise hi h fun _ _ h => ⟨_, _, _, _, h, fun _ h' => ⟨h'.idle, fun _ h => (by cases h)⟩⟩

/-- A transaction that returns : what it has staged keeps the invariant. -/
theorem done_ret {a : α} (hq : Lasting (q a)) (hi : (operations lockKey inv).inv g)
    (h : Knows lockKey i ⟨.inTrans, ws, wrote⟩ [] ls d₀ g)
    (hkeeps : ∀ d, inv d → Becomes lockKey ls d₀ d →
      inv (schema.applyAll d ws) ∧ q a (schema.applyAll d ws)) :
    (operations lockKey inv).wp i (.ret a : Client ι A α)
      (Done schema (discipline lockKey) inv i wrote [] (Ends lockKey inv i q)) g := by
  refine wp_ret hi h fun g' _ h' => ⟨_, _, _, _, h', .inl rfl, fun d hd hev => ?_⟩
  obtain ⟨hinv, ha⟩ := hkeeps d hd hev
  refine ⟨hinv, fun g'' h'' => ⟨h''.idle, fun b hb => ?_⟩,
    fun e g'' h'' => ⟨h''.idle, fun _ h => (by cases h)⟩⟩
  obtain rfl : a = b := Except.ok.inj hb
  exact hq.becomes h''.evolved ha

end

end InvoiceOps
