import Mathlib.Logic.Function.Basic
import Mathlib.Tactic.Common

/-!
# Programs that share a store

A `Prog` is the body of one call as its client runs it : it returns, raises, or makes
one atomic statement on the store it shares with every other client and goes on with
the answer. A statement may find that it has to wait. What the program does not decide
(a fault of the store, the answer of a service) is a `Choice` of the environment.

`Config` is the store with the calls in flight, one for each client at most, and
`System.next` is one event of it : a call starts, makes its next statement, ends, or
its client crashes. Nothing is assumed about the order of events, so a fact about every
reachable configuration is a fact about every interleaving.

`Protocol` says what each client may rely on the others for and what it guarantees
them. `Protocol.wp` is the weakest precondition of a program among such clients, and
`System.valid` : if every body meets its precondition, every reachable configuration
keeps the invariant, and every call that ends does so in its postcondition.
`Prog.runAlone` is the run of one call with nothing in between.
-/

namespace Shared

/-- What the environment decides at a statement. -/
inductive Choice (A : Type) where
  | proceed
  | fault
  | answer (a : A)
  deriving DecidableEq, Repr

/-- A client's program over the store `G`, raising `ε` and returning `α`. -/
inductive Prog (ι G A ε α : Type) : Type 1 where
  | ret (a : α)
  | raise (e : ε)
  | stmt {R : Type} (q : ι → Choice A → G → Option (R × G)) (k : R → Prog ι G A ε α)

namespace Prog

variable {ι G A ε α β R : Type}

/-- The program goes on with what the first part returned. -/
def bind : Prog ι G A ε α → (α → Prog ι G A ε β) → Prog ι G A ε β
  | ret a, f => f a
  | raise e, _ => raise e
  | stmt q k, f => stmt q fun r => (k r).bind f

/-- `try`, with one clause for everything that is raised. -/
def tryCatch : Prog ι G A ε α → (ε → Prog ι G A ε α) → Prog ι G A ε α
  | ret a, _ => ret a
  | raise e, h => h e
  | stmt q k, h => stmt q fun r => (k r).tryCatch h

instance : Monad (Prog ι G A ε) where
  pure := ret
  bind := bind

instance : MonadExceptOf ε (Prog ι G A ε) where
  throw := raise
  tryCatch := tryCatch

/-- The monad's bind is the one of programs. -/
theorem bind_eq (p : Prog ι G A ε α) (f : α → Prog ι G A ε β) : p >>= f = p.bind f := rfl

/-- Binds associate. -/
theorem bind_assoc {γ : Type} (f : α → Prog ι G A ε β) (h : β → Prog ι G A ε γ) :
    ∀ p : Prog ι G A ε α, (p.bind f).bind h = p.bind fun a => (f a).bind h
  | ret _ => rfl
  | raise _ => rfl
  | stmt q k => congrArg (stmt q) (funext fun r => bind_assoc f h (k r))

/-- The statement `q`, with its answer as the result. -/
def exec (q : ι → Choice A → G → Option (R × G)) : Prog ι G A ε R :=
  stmt q ret

/-- Wait for an answer of the environment that `read` accepts. -/
def ask (read : A → Option R) : Prog ι G A ε R :=
  exec fun _ c g =>
    match c with
    | .answer a => (read a).map fun r => (r, g)
    | _ => none

/-- Run `p` and hand over how it ended. -/
def attempt : Prog ι G A ε α → Prog ι G A ε (Except ε α)
  | ret a => ret (.ok a)
  | raise e => ret (.error e)
  | stmt q k => stmt q fun r => (k r).attempt

/-- A computation of the client, between two statements. -/
def ofExcept : Except ε α → Prog ι G A ε α
  | .ok a => ret a
  | .error e => raise e

/-- Every exception the program may raise is an `E`, whatever its statements answer. -/
def Raises (E : ε → Prop) : Prog ι G A ε α → Prop
  | ret _ => True
  | raise e => E e
  | stmt _ k => ∀ r, (k r).Raises E

/-- A program that raises less raises more. -/
theorem Raises.mono {E E' : ε → Prop} (hE : ∀ e, E e → E' e) :
    ∀ {p : Prog ι G A ε α}, p.Raises E → p.Raises E'
  | ret _, _ => trivial
  | raise _, h => hE _ h
  | stmt _ _, h => fun r => (h r).mono hE

/-- A program raises what its parts raise. -/
theorem Raises.bind {E : ε → Prop} {f : α → Prog ι G A ε β} (hf : ∀ a, (f a).Raises E) :
    ∀ {p : Prog ι G A ε α}, p.Raises E → (p >>= f).Raises E
  | ret a, _ => hf a
  | raise _, h => h
  | stmt _ _, h => fun r => (h r).bind hf

/-- A handler raises what it raises on what it catches. -/
theorem Raises.tryCatch {E E' : ε → Prop} {f : ε → Prog ι G A ε α}
    (hf : ∀ e, E e → (f e).Raises E') : ∀ {p : Prog ι G A ε α}, p.Raises E →
      (p.tryCatch f).Raises E'
  | ret _, _ => trivial
  | raise e, h => hf e h
  | stmt _ _, h => fun r => (h r).tryCatch hf

/-- A value raises nothing. -/
theorem raises_pure {E : ε → Prop} (a : α) : (pure a : Prog ι G A ε α).Raises E :=
  trivial

/-- A result raises its own error only. -/
theorem raises_ofExcept {E : ε → Prop} {out : Except ε α} (h : ∀ e, out = .error e → E e) :
    (ofExcept out : Prog ι G A ε α).Raises E := by
  cases out with
  | ok a => trivial
  | error e => exact h e rfl

/-- How a program that has ended ended. -/
def outcome? : Prog ι G A ε α → Option (Except ε α)
  | ret a => some (.ok a)
  | raise e => some (.error e)
  | stmt _ _ => none

/-- The run of one client with no fault and nothing of the others in between. There is no
result if a statement has to wait. -/
def runAlone (i : ι) : Prog ι G A ε α → G → Option (Except ε α × G)
  | ret a, g => some (.ok a, g)
  | raise e, g => some (.error e, g)
  | stmt q k, g => (q i .proceed g).bind fun rg => (k rg.1).runAlone i rg.2

@[simp] theorem runAlone_ret (i : ι) (a : α) (g : G) :
    (ret a : Prog ι G A ε α).runAlone i g = some (.ok a, g) := rfl

@[simp] theorem runAlone_raise (i : ι) (e : ε) (g : G) :
    (raise e : Prog ι G A ε α).runAlone i g = some (.error e, g) := rfl

/-- Run alone, a bind runs its first part and then the second. -/
theorem runAlone_bind (i : ι) (f : α → Prog ι G A ε β) :
    ∀ (p : Prog ι G A ε α) (g : G), (p.bind f).runAlone i g =
      (p.runAlone i g).bind fun out =>
        match out with
        | (.ok a, g') => (f a).runAlone i g'
        | (.error e, g') => some (.error e, g')
  | ret _, _ => rfl
  | raise _, _ => rfl
  | stmt q k, g => by
    simp only [Prog.bind, runAlone]
    cases q i .proceed g with
    | none => rfl
    | some rg => exact runAlone_bind i f (k rg.1) rg.2

/-- Run alone, a handler runs on the error that is raised. -/
theorem runAlone_tryCatch (i : ι) (h : ε → Prog ι G A ε α) :
    ∀ (p : Prog ι G A ε α) (g : G), (p.tryCatch h).runAlone i g =
      (p.runAlone i g).bind fun out =>
        match out with
        | (.ok a, g') => some (.ok a, g')
        | (.error e, g') => (h e).runAlone i g'
  | ret _, _ => rfl
  | raise _, _ => rfl
  | stmt q k, g => by
    simp only [Prog.tryCatch, runAlone]
    cases q i .proceed g with
    | none => rfl
    | some rg => exact runAlone_tryCatch i h (k rg.1) rg.2

end Prog

/-! ## Calls in flight -/

/-- A call in flight : what was called, the store it was called in, what is left to run. -/
structure Thread (ι G A ε α Call : Type) : Type 1 where
  call : Call
  entry : G
  rest : Prog ι G A ε α

/-- The store and the call each client is in. -/
structure Config (ι G A ε α Call : Type) : Type 1 where
  store : G
  thread : ι → Option (Thread ι G A ε α Call)

/-- The calls there are, and what a crash of a client does to the store. -/
structure System (ι G A ε α Call : Type) : Type 1 where
  body : Call → Prog ι G A ε α
  reset : ι → G → G

/-- One event of a configuration. -/
inductive Event (ι A Call : Type) where
  | start (i : ι) (c : Call)
  | stmt (i : ι) (c : Choice A)
  | finish (i : ι)
  | crash (i : ι)
  deriving DecidableEq, Repr

namespace System

variable {ι G A ε α Call : Type} [DecidableEq ι] (sys : System ι G A ε α Call)

/-- No call in flight. -/
def initial (g : G) : Config ι G A ε α Call :=
  ⟨g, fun _ => none⟩

/-- The configuration after one event, if the event can happen. -/
def next (cfg : Config ι G A ε α Call) : Event ι A Call → Option (Config ι G A ε α Call)
  | .start i c =>
    match cfg.thread i with
    | none => some { cfg with
        thread := Function.update cfg.thread i (some ⟨c, cfg.store, sys.body c⟩) }
    | some _ => none
  | .stmt i c =>
    match cfg.thread i with
    | some ⟨call, entry, .stmt q k⟩ =>
      (q i c cfg.store).map fun rg =>
        ⟨rg.2, Function.update cfg.thread i (some ⟨call, entry, k rg.1⟩)⟩
    | _ => none
  | .finish i =>
    match cfg.thread i with
    | some t =>
      t.rest.outcome?.map fun _ => { cfg with thread := Function.update cfg.thread i none }
    | none => none
  | .crash i =>
    match cfg.thread i with
    | some _ => some ⟨sys.reset i cfg.store, Function.update cfg.thread i none⟩
    | none => none

/-- The configuration after some events, if each was possible. -/
def replay (cfg : Config ι G A ε α Call) :
    List (Event ι A Call) → Option (Config ι G A ε α Call)
  | [] => some cfg
  | e :: es => (sys.next cfg e).bind fun cfg' => replay cfg' es

/-- A call in flight was entered just now or was in flight before. -/
theorem entry_next {cfg cfg' : Config ι G A ε α Call} {e : Event ι A Call}
    (he : sys.next cfg e = some cfg') {i : ι} {t : Thread ι G A ε α Call}
    (ht : cfg'.thread i = some t) :
    t.entry = cfg.store ∨ ∃ t', cfg.thread i = some t' ∧ t'.entry = t.entry := by
  cases e with
  | start j c =>
    simp only [next] at he
    split at he <;> cases he
    dsimp only at ht
    by_cases hij : i = j
    · subst hij
      rw [Function.update_self] at ht
      cases ht
      exact Or.inl rfl
    · rw [Function.update_of_ne hij] at ht
      exact Or.inr ⟨t, ht, rfl⟩
  | stmt j c =>
    simp only [next] at he
    split at he
    · rename_i call entry R q k hj
      obtain ⟨rg, -, hrg⟩ := Option.map_eq_some_iff.mp he
      cases hrg
      dsimp only at ht
      by_cases hij : i = j
      · subst hij
        rw [Function.update_self] at ht
        cases ht
        exact Or.inr ⟨_, hj, rfl⟩
      · rw [Function.update_of_ne hij] at ht
        exact Or.inr ⟨t, ht, rfl⟩
    · cases he
  | finish j =>
    simp only [next] at he
    split at he
    · obtain ⟨out, -, hc⟩ := Option.map_eq_some_iff.mp he
      cases hc
      dsimp only at ht
      by_cases hij : i = j
      · subst hij
        simp at ht
      · rw [Function.update_of_ne hij] at ht
        exact Or.inr ⟨t, ht, rfl⟩
    · cases he
  | crash j =>
    simp only [next] at he
    split at he <;> cases he
    dsimp only at ht
    by_cases hij : i = j
    · subst hij
      simp at ht
    · rw [Function.update_of_ne hij] at ht
      exact Or.inr ⟨t, ht, rfl⟩

/-- `cfg` is reached from the store `g` by some order of events. -/
def Reachable (g : G) (cfg : Config ι G A ε α Call) : Prop :=
  ∃ es, sys.replay (initial g) es = some cfg

/-- A schedule is replayed in parts. -/
theorem replay_append (cfg : Config ι G A ε α Call) (es es' : List (Event ι A Call)) :
    sys.replay cfg (es ++ es') = (sys.replay cfg es).bind fun cfg' => sys.replay cfg' es' := by
  induction es generalizing cfg with
  | nil => rfl
  | cons e es ih =>
    simp only [List.cons_append, replay, Option.bind_assoc, ih]

variable {sys} in
/-- What is replayed from a reachable state is reachable. -/
theorem Reachable.replay {g : G} {cfg cfg' : Config ι G A ε α Call} (h : sys.Reachable g cfg)
    {es : List (Event ι A Call)} (he : sys.replay cfg es = some cfg') :
    sys.Reachable g cfg' := by
  obtain ⟨es₀, h₀⟩ := h
  exact ⟨es₀ ++ es, by rw [replay_append, h₀, Option.bind_some, he]⟩

end System

/-! ## What clients rely on -/

/-- `inv` holds of the store between any two statements, `idle i` when client `i` is in no
call, `rely i` of what the others do between two statements of `i`, and `guar i` of
each statement of `i`. -/
structure Protocol (ι G : Type) where
  inv : G → Prop
  idle : ι → G → Prop
  rely : ι → G → G → Prop
  guar : ι → G → G → Prop
  rely_refl : ∀ i g, rely i g g
  rely_trans : ∀ i g g' g'', rely i g g' → rely i g' g'' → rely i g g''
  rely_of_guar : ∀ i j g g', i ≠ j → inv g → inv g' → guar j g g' → rely i g g'
  idle_rely : ∀ i g g', rely i g g' → idle i g → idle i g'

namespace Protocol

variable {ι G A ε α β R Call : Type} (P : Protocol ι G) (i : ι)

/-- `p` cannot be broken by the other clients. -/
def Stable (p : G → Prop) : Prop :=
  ∀ g g', P.inv g → P.inv g' → P.rely i g g' → p g → p g'

variable {P i}

/-- Stability is kept by conjunction. -/
theorem Stable.and {p q : G → Prop} (hp : P.Stable i p) (hq : P.Stable i q) :
    P.Stable i fun g => p g ∧ q g :=
  fun g g' hg hg' hr h => ⟨hp g g' hg hg' hr h.1, hq g g' hg hg' hr h.2⟩

/-- A fact about no state is stable. -/
theorem Stable.const (p : Prop) : P.Stable i fun _ => p :=
  fun _ _ _ _ _ h => h

/-- Stability is kept by quantification. -/
theorem Stable.forall {β : Sort*} {p : β → G → Prop} (h : ∀ b, P.Stable i (p b)) :
    P.Stable i fun g => ∀ b, p b g :=
  fun g g' hg hg' hr hb b => h b g g' hg hg' hr (hb b)

/-- Stability is kept by a fixed condition. -/
theorem Stable.imp {p : Prop} {q : G → Prop} (h : P.Stable i q) : P.Stable i fun g => p → q g :=
  fun g g' hg hg' hr hb hp => h g g' hg hg' hr (hb hp)

/-- What everyone else may do is stable. -/
theorem Stable.rely (g₀ : G) : P.Stable i (P.rely i g₀) :=
  fun g g' _ _ hr h => P.rely_trans i g₀ g g' h hr

variable (P i)

/-- From `g`, with the others keeping to the protocol, every statement of the program
keeps to it too and the program ends, if it does, in `Q`. -/
def wp : Prog ι G A ε α → (Except ε α → G → Prop) → G → Prop
  | .ret a, Q, g => ∀ g', P.rely i g g' → P.inv g' → Q (.ok a) g'
  | .raise e, Q, g => ∀ g', P.rely i g g' → P.inv g' → Q (.error e) g'
  | .stmt q k, Q, g => ∀ g', P.rely i g g' → P.inv g' → ∀ c r g'', q i c g' = some (r, g'') →
      P.guar i g' g'' ∧ P.inv g'' ∧ wp (k r) Q g''

variable {P i}

/-- A rule holds on whatever the others do before the next statement. -/
theorem wp_rely {Q : Except ε α → G → Prop} {g g' : G} (hr : P.rely i g g') :
    ∀ {p : Prog ι G A ε α}, P.wp i p Q g → P.wp i p Q g'
  | .ret _, h => fun g'' hr' => h g'' (P.rely_trans i _ _ _ hr hr')
  | .raise _, h => fun g'' hr' => h g'' (P.rely_trans i _ _ _ hr hr')
  | .stmt _ _, h => fun g'' hr' => h g'' (P.rely_trans i _ _ _ hr hr')

/-- The postcondition can be weakened within the invariant. -/
theorem wp_mono {Q Q' : Except ε α → G → Prop} (hQ : ∀ out g, P.inv g → Q out g → Q' out g) :
    ∀ {p : Prog ι G A ε α} {g : G}, P.wp i p Q g → P.wp i p Q' g
  | .ret _, _, h => fun g' hr hi => hQ _ _ hi (h g' hr hi)
  | .raise _, _, h => fun g' hr hi => hQ _ _ hi (h g' hr hi)
  | .stmt _ _, _, h => fun g' hr hi c r g'' hq =>
      let ⟨hg, hi', hk⟩ := h g' hr hi c r g'' hq
      ⟨hg, hi', wp_mono hQ hk⟩

/-- The rule of the sequence : the rest runs from wherever the first part may end. -/
theorem wp_bind {Q : Except ε β → G → Prop} {f : α → Prog ι G A ε β} :
    ∀ {p : Prog ι G A ε α} {g : G}, P.inv g →
      P.wp i p (fun out g' =>
        match out with
        | .ok a => P.wp i (f a) Q g'
        | .error e => Q (.error e) g') g → P.wp i (p >>= f) Q g
  | .ret _, g, hi, h => h g (P.rely_refl i g) hi
  | .raise _, _, _, h => h
  | .stmt _ _, _, _, h => fun g' hr hi' c r g'' hq =>
      let ⟨hg, hi'', hk⟩ := h g' hr hi' c r g'' hq
      ⟨hg, hi'', wp_bind hi'' hk⟩

/-- The rule of a handler. -/
theorem wp_tryCatch {Q : Except ε α → G → Prop} {f : ε → Prog ι G A ε α} :
    ∀ {p : Prog ι G A ε α} {g : G}, P.inv g →
      P.wp i p (fun out g' =>
        match out with
        | .ok a => Q (.ok a) g'
        | .error e => P.wp i (f e) Q g') g → P.wp i (p.tryCatch f) Q g
  | .ret _, _, _, h => h
  | .raise _, g, hi, h => h g (P.rely_refl i g) hi
  | .stmt _ _, _, _, h => fun g' hr hi' c r g'' hq =>
      let ⟨hg, hi'', hk⟩ := h g' hr hi' c r g'' hq
      ⟨hg, hi'', wp_tryCatch hi'' hk⟩

/-- The rule of `attempt`, whose error is a value. -/
theorem wp_attempt {Q : Except ε (Except ε α) → G → Prop} :
    ∀ {p : Prog ι G A ε α} {g : G}, P.wp i p (fun out => Q (.ok out)) g → P.wp i p.attempt Q g
  | .ret _, _, h => h
  | .raise _, _, h => h
  | .stmt _ _, _, h => fun g' hr hi' c r g'' hq =>
      let ⟨hg, hi'', hk⟩ := h g' hr hi' c r g'' hq
      ⟨hg, hi'', wp_attempt hk⟩

/-- The rule of one statement, from a precondition the others cannot break. -/
theorem wp_stmt {p : G → Prop} {Q : Except ε α → G → Prop}
    {q : ι → Choice A → G → Option (R × G)} {k : R → Prog ι G A ε α} {g : G}
    (hp : P.Stable i p) (hi : P.inv g) (h : p g)
    (step : ∀ g, P.inv g → p g → ∀ c r g', q i c g = some (r, g') →
      P.guar i g g' ∧ P.inv g' ∧ P.wp i (k r) Q g') : P.wp i (.stmt q k) Q g :=
  fun g' hr hi' => step g' hi' (hp g g' hi hi' hr h)

/-- The rule of `ret`, for a stable fact. -/
theorem wp_ret {p : G → Prop} {Q : Except ε α → G → Prop} {a : α} {g : G}
    (hp : P.Stable i p) (hi : P.inv g) (h : p g) (hQ : ∀ g, P.inv g → p g → Q (.ok a) g) :
    P.wp i (.ret a : Prog ι G A ε α) Q g :=
  fun g' hr hi' => hQ g' hi' (hp g g' hi hi' hr h)

/-- The rule of `raise`, for a stable fact. -/
theorem wp_raise {p : G → Prop} {Q : Except ε α → G → Prop} {e : ε} {g : G}
    (hp : P.Stable i p) (hi : P.inv g) (h : p g) (hQ : ∀ g, P.inv g → p g → Q (.error e) g) :
    P.wp i (.raise e : Prog ι G A ε α) Q g :=
  fun g' hr hi' => hQ g' hi' (hp g g' hi hi' hr h)

/-- Only what a program may raise has to be met by its postcondition. -/
theorem wp_raises {E : ε → Prop} {Q : Except ε α → G → Prop} :
    ∀ {p : Prog ι G A ε α} {g : G}, p.Raises E →
      P.wp i p (fun out g => (∀ e, out = .error e → E e) → Q out g) g → P.wp i p Q g
  | .ret _, _, _, h => fun g' hr hi => h g' hr hi fun _ he => (by cases he)
  | .raise e, _, he, h => fun g' hr hi => h g' hr hi fun _ he' => Except.error.inj he' ▸ he
  | .stmt _ _, _, he, h => fun g' hr hi c r g'' hq =>
      let ⟨hg, hi', hk⟩ := h g' hr hi c r g'' hq
      ⟨hg, hi', wp_raises (he r) hk⟩

/-- A program that has ended is in its postcondition. -/
theorem post_of_wp {p : Prog ι G A ε α} {Q : Except ε α → G → Prop} {g : G}
    {out : Except ε α} (h : P.wp i p Q g) (hi : P.inv g) (ho : p.outcome? = some out) :
    Q out g := by
  cases p with
  | ret a => cases ho; exact h g (P.rely_refl i g) hi
  | raise e => cases ho; exact h g (P.rely_refl i g) hi
  | stmt q k => cases ho

/-- The run with nothing in between is one of the runs `wp` speaks of. -/
theorem runAlone_of_wp {Q : Except ε α → G → Prop} {out : Except ε α} {g' : G} :
    ∀ {p : Prog ι G A ε α} {g : G}, P.wp i p Q g → P.inv g →
      p.runAlone i g = some (out, g') → P.inv g' ∧ Q out g'
  | .ret _, _, h, hi, hrun => by
    cases hrun
    exact ⟨hi, h _ (P.rely_refl i _) hi⟩
  | .raise _, _, h, hi, hrun => by
    cases hrun
    exact ⟨hi, h _ (P.rely_refl i _) hi⟩
  | .stmt q k, g, h, hi, hrun => by
    simp only [Prog.runAlone, Option.bind_eq_some_iff] at hrun
    obtain ⟨⟨r, g''⟩, hq, hrun⟩ := hrun
    obtain ⟨-, hi', hk⟩ := h g (P.rely_refl i g) hi .proceed r g'' hq
    exact runAlone_of_wp hk hi' hrun

end Protocol

/-! ## Every interleaving -/

namespace System

variable {ι G A ε α Call : Type} [DecidableEq ι] (sys : System ι G A ε α Call)
  (P : Protocol ι G) (post : Call → ι → G → Except ε α → G → Prop)

/-- What each client's program still owes : it ends idle, in its postcondition. -/
def Owes (cfg : Config ι G A ε α Call) (i : ι) : Prop :=
  match cfg.thread i with
  | none => P.idle i cfg.store
  | some t => P.wp i t.rest (fun out g => P.idle i g ∧ post t.call i t.entry out g) cfg.store

/-- The invariant holds and every client's program meets its precondition. -/
def Valid (cfg : Config ι G A ε α Call) : Prop :=
  P.inv cfg.store ∧ ∀ i, Owes P post cfg i

/-- Every body meets its precondition from every store, and a crash keeps to the
protocol. -/
structure Verified : Prop where
  body : ∀ c i g, P.inv g → P.idle i g →
    P.wp i (sys.body c) (fun out g' => P.idle i g' ∧ post c i g out g') g
  reset : ∀ i g, P.inv g →
    P.inv (sys.reset i g) ∧ P.guar i g (sys.reset i g) ∧ P.idle i (sys.reset i g)

variable {sys P post}

/-- What client `j` does leaves what the others owe. -/
theorem Owes.of_guar {cfg : Config ι G A ε α Call} {g : G} {i j : ι}
    {t : Option (Thread ι G A ε α Call)} (h : Owes P post cfg i) (hij : i ≠ j)
    (hi : P.inv cfg.store) (hi' : P.inv g) (hg : P.guar j cfg.store g) :
    Owes P post ⟨g, Function.update cfg.thread j t⟩ i := by
  have hr := P.rely_of_guar i j _ _ hij hi hi' hg
  unfold Owes at h ⊢
  simp only [Function.update_of_ne hij]
  cases ht : cfg.thread i with
  | none =>
    simp only [ht] at h
    exact P.idle_rely i _ _ hr h
  | some t =>
    simp only [ht] at h
    exact Protocol.wp_rely hr h

/-- An event that leaves the store leaves what the others owe. -/
theorem Owes.of_store {cfg : Config ι G A ε α Call} {i j : ι}
    {t : Option (Thread ι G A ε α Call)} (h : Owes P post cfg i) (hij : i ≠ j) :
    Owes P post ⟨cfg.store, Function.update cfg.thread j t⟩ i := by
  simpa [Owes, Function.update_of_ne hij] using h

/-- Every event takes a valid configuration to a valid one. -/
theorem Valid.next (hv : sys.Verified P post) {cfg cfg' : Config ι G A ε α Call}
    (h : Valid P post cfg) (e : Event ι A Call) (he : sys.next cfg e = some cfg') :
    Valid P post cfg' := by
  obtain ⟨hi, ho⟩ := h
  cases e with
  | start j c =>
    simp only [System.next] at he
    have hj := ho j
    split at he
    · rename_i hn
      cases he
      refine ⟨hi, fun i => ?_⟩
      by_cases hij : i = j
      · subst hij
        simp only [Owes, hn] at hj
        simpa [Owes] using hv.body c i cfg.store hi hj
      · exact (ho i).of_store hij
    · cases he
  | stmt j c =>
    simp only [System.next] at he
    have hj := ho j
    split at he
    · rename_i call entry R q k hn
      obtain ⟨⟨r, g⟩, hq, hrg⟩ := Option.map_eq_some_iff.mp he
      cases hrg
      simp only [Owes, hn] at hj
      obtain ⟨hg, hi', hk⟩ := hj cfg.store (P.rely_refl j _) hi c r g hq
      refine ⟨hi', fun i => ?_⟩
      by_cases hij : i = j
      · subst hij
        simpa [Owes] using hk
      · exact (ho i).of_guar hij hi hi' hg
    · cases he
  | finish j =>
    simp only [System.next] at he
    have hj := ho j
    split at he
    · rename_i t hn
      obtain ⟨out, hout, hc⟩ := Option.map_eq_some_iff.mp he
      cases hc
      simp only [Owes, hn] at hj
      refine ⟨hi, fun i => ?_⟩
      by_cases hij : i = j
      · subst hij
        simpa [Owes] using (Protocol.post_of_wp hj hi hout).1
      · exact (ho i).of_store hij
    · cases he
  | crash j =>
    simp only [System.next] at he
    split at he
    · cases he
      obtain ⟨hi', hg, hidle⟩ := hv.reset j cfg.store hi
      refine ⟨hi', fun i => ?_⟩
      by_cases hij : i = j
      · subst hij
        simpa [Owes] using hidle
      · exact (ho i).of_guar hij hi hi' hg
    · cases he

/-- An event that changes the store keeps to some client's guarantee. -/
theorem Valid.guar_next (hv : sys.Verified P post) {cfg cfg' : Config ι G A ε α Call}
    (h : Valid P post cfg) (e : Event ι A Call) (he : sys.next cfg e = some cfg') :
    cfg'.store = cfg.store ∨ ∃ i, P.guar i cfg.store cfg'.store := by
  obtain ⟨hi, ho⟩ := h
  cases e with
  | start j c =>
    simp only [System.next] at he
    split at he <;> cases he
    exact Or.inl rfl
  | stmt j c =>
    simp only [System.next] at he
    have hj := ho j
    split at he
    · rename_i call entry R q k hn
      obtain ⟨⟨r, g⟩, hq, hrg⟩ := Option.map_eq_some_iff.mp he
      cases hrg
      simp only [Owes, hn] at hj
      exact Or.inr ⟨j, (hj cfg.store (P.rely_refl j _) hi c r g hq).1⟩
    · cases he
  | finish j =>
    simp only [System.next] at he
    split at he
    · obtain ⟨out, hout, hc⟩ := Option.map_eq_some_iff.mp he
      cases hc
      exact Or.inl rfl
    · cases he
  | crash j =>
    simp only [System.next] at he
    split at he <;> cases he
    exact Or.inr ⟨j, (hv.reset j cfg.store hi).2.1⟩

/-- What every event keeps of a valid configuration, every schedule keeps. -/
theorem Valid.replay_induction (hv : sys.Verified P post) {p : Config ι G A ε α Call → Prop}
    (step : ∀ cfg e cfg', Valid P post cfg → p cfg → sys.next cfg e = some cfg' → p cfg') :
    ∀ (es : List (Event ι A Call)) {cfg cfg' : Config ι G A ε α Call}, Valid P post cfg →
      p cfg → sys.replay cfg es = some cfg' → Valid P post cfg' ∧ p cfg'
  | [], _, _, h, hp, he => by cases he; exact ⟨h, hp⟩
  | e :: es, _, _, h, hp, he => by
    simp only [System.replay, Option.bind_eq_some_iff] at he
    obtain ⟨cfg₁, he₁, he⟩ := he
    exact Valid.replay_induction hv step es (h.next hv e he₁) (step _ e _ h hp he₁) he

/-- Induction over the runs of a verified system. -/
theorem reachable_induction (hv : sys.Verified P post) {g : G} (hg : P.inv g)
    (hidle : ∀ i, P.idle i g) {p : Config ι G A ε α Call → Prop} (h₀ : p (initial g))
    (step : ∀ cfg e cfg', Valid P post cfg → p cfg → sys.next cfg e = some cfg' → p cfg')
    {cfg : Config ι G A ε α Call} (h : sys.Reachable g cfg) : Valid P post cfg ∧ p cfg := by
  obtain ⟨es, he⟩ := h
  exact Valid.replay_induction hv step es ⟨hg, fun i => by simpa [Owes, initial] using hidle i⟩
    h₀ he

/-- If every body meets its precondition, so does every reachable configuration. -/
theorem valid (hv : sys.Verified P post) {g : G} (hg : P.inv g) (hidle : ∀ i, P.idle i g)
    {cfg : Config ι G A ε α Call} (h : sys.Reachable g cfg) : Valid P post cfg :=
  (reachable_induction hv hg hidle (p := fun _ => True) trivial (fun _ _ _ _ _ _ => trivial) h).1

/-- Every reachable state is within the invariant. -/
theorem inv_of_reachable (hv : sys.Verified P post) {g : G} (hg : P.inv g)
    (hidle : ∀ i, P.idle i g) {cfg : Config ι G A ε α Call} (h : sys.Reachable g cfg) :
    P.inv cfg.store :=
  (valid hv hg hidle h).1

/-- A call that ends, ends in its postcondition. -/
theorem post_of_reachable (hv : sys.Verified P post) {g : G} (hg : P.inv g)
    (hidle : ∀ i, P.idle i g) {cfg : Config ι G A ε α Call} (h : sys.Reachable g cfg) {i : ι}
    {t : Thread ι G A ε α Call} (ht : cfg.thread i = some t) {out : Except ε α}
    (hout : t.rest.outcome? = some out) : post t.call i t.entry out cfg.store := by
  obtain ⟨hi, ho⟩ := valid hv hg hidle h
  have hw := ho i
  simp only [Owes, ht] at hw
  exact (Protocol.post_of_wp hw hi hout).2

end System

end Shared
