/-!
# Runs of a step function

A system whose every action is one atomic step : `run` is the state after a list of
actions, `Meets ok` says that each action met `ok` in the state it was made in. An
invariant of the steps that meet `ok` holds in every state of such a run (`Meets.inv`), and
what holds of one step from the invariant holds of each step of the run (`Meets.at_step`).
-/

namespace Trace

universe u v

variable {σ : Type u} {α : Type v} (step : σ → α → σ)

/-- The state after some actions. -/
def run : σ → List α → σ
  | s, [] => s
  | s, a :: as => run (step s a) as

/-- Each action meets the condition in the state it is made in. -/
def Meets (ok : σ → α → Prop) : σ → List α → Prop
  | _, [] => True
  | s, a :: as => ok s a ∧ Meets ok (step s a) as

variable {step}

theorem run_append (s : σ) (as bs : List α) :
    run step s (as ++ bs) = run step (run step s as) bs := by
  induction as generalizing s with
  | nil => rfl
  | cons a as ih => exact ih (step s a)

theorem Meets.append {ok : σ → α → Prop} {s : σ} {as bs : List α} :
    Meets step ok s (as ++ bs) ↔ Meets step ok s as ∧ Meets step ok (run step s as) bs := by
  induction as generalizing s with
  | nil => exact ⟨fun h => ⟨trivial, h⟩, fun h => h.2⟩
  | cons a as ih =>
    constructor
    · rintro ⟨h, hs⟩
      exact ⟨⟨h, (ih.mp hs).1⟩, (ih.mp hs).2⟩
    · rintro ⟨⟨h, hs⟩, hbs⟩
      exact ⟨h, ih.mpr ⟨hs, hbs⟩⟩

theorem Meets.inv {ok : σ → α → Prop} {inv : σ → Prop}
    (hstep : ∀ s a, inv s → ok s a → inv (step s a)) {s : σ} {as : List α} (h₀ : inv s)
    (h : Meets step ok s as) : inv (run step s as) := by
  induction as generalizing s with
  | nil => exact h₀
  | cons a as ih => exact ih (hstep s a h₀ h.1) h.2

/-- A condition that every action meets in every state. -/
theorem Meets.of_forall {ok : σ → α → Prop} (hok : ∀ s a, ok s a) {s : σ} {as : List α} :
    Meets step ok s as := by
  induction as generalizing s with
  | nil => exact trivial
  | cons a as ih => exact ⟨hok s a, ih⟩

/-- A step of a run is made in a state that satisfies the invariant. -/
theorem Meets.at_step {ok : σ → α → Prop} {inv : σ → Prop}
    (hstep : ∀ s a, inv s → ok s a → inv (step s a)) {s : σ} {as bs : List α} {a : α}
    (h₀ : inv s) (h : Meets step ok s (as ++ a :: bs)) :
    inv (run step s as) ∧ ok (run step s as) a := by
  obtain ⟨has, ha, -⟩ := Meets.append.mp h
  exact ⟨Meets.inv hstep h₀ has, ha⟩

end Trace
