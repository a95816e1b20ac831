import Mathlib.Tactic.Common

/-!
# Loops

A `while True` whose body ends in another turn with the next state, or leaves the loop with a
result (`Turn`). `run` takes as many turns as it has fuel.

`Turn.Holds I Q` : the turn goes on in a state that satisfies `I`, or leaves with a result that
satisfies `Q`. If the turns of a loop keep an invariant, its result satisfies what holds where a
turn leaves (`run_post`). If they decrease a measure too, the loop leaves, with the same result
whatever more fuel it has (`run_holds`).
-/

namespace Loop

universe u v

/-- What a turn of a loop ends in. -/
inductive Turn (σ : Type u) (ρ : Type v) where
  | again (s : σ)
  | leave (r : ρ)

variable {σ : Type u} {ρ : Type v}

/-- What a turn is to leave : the invariant, or the result. -/
def Turn.Holds (I : σ → Prop) (Q : ρ → Prop) : Turn σ ρ → Prop
  | .again s => I s
  | .leave r => Q r

variable (turn : σ → Turn σ ρ)

/-- The loop with at most `fuel` turns. -/
def run : ℕ → σ → Option ρ
  | 0, _ => none
  | fuel + 1, s =>
    match turn s with
    | .again s' => run fuel s'
    | .leave r => some r

variable {turn}

theorem Turn.Holds.mono {I I' : σ → Prop} {Q Q' : ρ → Prop} {t : Turn σ ρ} (h : t.Holds I Q)
    (hI : ∀ s, I s → I' s) (hQ : ∀ r, Q r → Q' r) : t.Holds I' Q' := by
  cases t with
  | again s => exact hI s h
  | leave r => exact hQ r h

/-- Partial correctness of a loop, from its invariant. -/
theorem run_post {I : σ → Prop} {Q : ρ → Prop} (hturn : ∀ s, I s → (turn s).Holds I Q) :
    ∀ {fuel : ℕ} {s : σ} {r : ρ}, I s → run turn fuel s = some r → Q r
  | 0, _, _, _, hrun => by simp [run] at hrun
  | fuel + 1, s, r, hs, hrun => by
    have h := hturn s hs
    cases ht : turn s with
    | leave r' =>
      rw [ht] at h
      simp only [run, ht, Option.some.injEq] at hrun
      exact hrun ▸ h
    | again s' =>
      rw [ht] at h
      simp only [run, ht] at hrun
      exact run_post hturn h hrun

/-- Total correctness of a loop, from its invariant and its measure. -/
theorem run_holds {I : σ → Prop} {Q : ρ → Prop} (μ : σ → ℕ)
    (hturn : ∀ s, I s → (turn s).Holds (fun s' => I s' ∧ μ s' < μ s) Q) {s : σ} (hs : I s) :
    ∃ r, (∀ fuel, μ s < fuel → run turn fuel s = some r) ∧ Q r := by
  induction hn : μ s using Nat.strongRecOn generalizing s with
  | ind n ih =>
    have h := hturn s hs
    cases ht : turn s with
    | leave r =>
      rw [ht] at h
      refine ⟨r, fun fuel hfuel => ?_, h⟩
      obtain ⟨fuel, rfl⟩ := Nat.exists_eq_add_of_lt (Nat.zero_lt_of_lt hfuel)
      simp [run, ht]
    | again s' =>
      rw [ht] at h
      obtain ⟨r, hrun, hr⟩ := ih (μ s') (hn ▸ h.2) h.1 rfl
      refine ⟨r, fun fuel hfuel => ?_, hr⟩
      obtain ⟨fuel, rfl⟩ := Nat.exists_eq_add_of_lt (Nat.zero_lt_of_lt hfuel)
      have := h.2
      simp only [run, Nat.zero_add, ht]
      exact hrun fuel (by omega)

end Loop
