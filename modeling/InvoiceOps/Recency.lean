import Mathlib.Data.List.Pairwise
import Mathlib.Logic.Function.Basic
import Mathlib.Tactic.Common

/-!
# Tables in the order of use

A table of keys with values, the least recently used key first. `touch` gives a key a value and
moves it to the end ; what is over a capacity is taken from the front.

`Ordered last now` : the keys are in the order of their last uses, of which `last` has the number.
`touch` keeps it, with the next number for the key (`Ordered.touch`), and so does what drops entries
(`Ordered.sublist`). So an entry that is dropped from the front was used before all others
(`Ordered.lt_of_drop`).
-/

namespace Recency

universe u v

variable {κ : Type u} {ν : Type v} {t : List (κ × ν)} {k k' : κ} {x y : ν}

/-- The keys, the least recent first. -/
def keys (t : List (κ × ν)) : List κ :=
  t.map Prod.fst

@[simp] theorem keys_append (t t' : List (κ × ν)) : keys (t ++ t') = keys t ++ keys t' :=
  List.map_append

@[simp] theorem mem_keys : k ∈ keys t ↔ ∃ x, (k, x) ∈ t := by
  simp [keys]

section

variable [DecidableEq κ]

/-- The key has the value, and is the last one. -/
def touch (t : List (κ × ν)) (k : κ) (x : ν) : List (κ × ν) :=
  t.filter (fun e => e.1 ≠ k) ++ [(k, x)]

theorem mem_touch : (k', y) ∈ touch t k x ↔ (k', y) ∈ t ∧ k' ≠ k ∨ k' = k ∧ y = x := by
  simp [touch]

theorem mem_keys_touch : k' ∈ keys (touch t k x) ↔ k' = k ∨ k' ∈ keys t := by
  simp only [mem_keys, mem_touch]
  by_cases h : k' = k <;> simp [h]

theorem length_touch_le : (touch t k x).length ≤ t.length + 1 := by
  rw [touch, List.length_append, List.length_singleton]
  exact Nat.succ_le_succ (List.length_filter_le _ t)

end

/-- The keys are in the order of their last uses, none of which is after `now`. -/
structure Ordered (last : κ → ℕ) (now : ℕ) (t : List (κ × ν)) : Prop where
  pairwise : t.Pairwise fun e e' => last e.1 < last e'.1
  le : ∀ e ∈ t, last e.1 ≤ now

namespace Ordered

variable {last : κ → ℕ} {now : ℕ}

theorem nil : Ordered last now ([] : List (κ × ν)) :=
  ⟨List.Pairwise.nil, by simp⟩

theorem sublist {t' : List (κ × ν)} (h : Ordered last now t) (hsub : t'.Sublist t) :
    Ordered last now t' :=
  ⟨h.pairwise.sublist hsub, fun e he => h.le e (hsub.subset he)⟩

/-- A key is used once more. -/
theorem touch [DecidableEq κ] (h : Ordered last now t) (k : κ) (x : ν) :
    Ordered (Function.update last k (now + 1)) (now + 1) (Recency.touch t k x) := by
  have hne : ∀ e ∈ t.filter (fun e => e.1 ≠ k), Function.update last k (now + 1) e.1 = last e.1 :=
    fun e he => Function.update_of_ne (by simpa using (List.mem_filter.mp he).2) _ _
  have hle : ∀ e ∈ t.filter (fun e => e.1 ≠ k), last e.1 ≤ now :=
    fun e he => h.le e (List.mem_filter.mp he).1
  constructor
  · refine List.pairwise_append.mpr ⟨?_, List.pairwise_singleton _ _, ?_⟩
    · refine (h.pairwise.sublist List.filter_sublist).imp_of_mem fun {e e'} he he' hlt => ?_
      rwa [hne e he, hne e' he']
    · intro e he e' he'
      rw [List.mem_singleton.mp he', hne e he, Function.update_self]
      exact Nat.lt_succ_of_le (hle e he)
  · intro e he
    rcases List.mem_append.mp he with he | he
    · rw [hne e he]
      exact Nat.le_succ_of_le (hle e he)
    · have hnow := List.mem_singleton.mp he
      exact Nat.le_of_eq (by rw [hnow, Function.update_self])

theorem nodup (h : Ordered last now t) : (keys t).Nodup :=
  List.pairwise_map.mpr (h.pairwise.imp fun hlt heq => Nat.ne_of_lt hlt (congrArg last heq))

/-- A key is in one part of the table. -/
theorem not_mem_keys {t' : List (κ × ν)} (h : Ordered last now (t ++ t')) (hk : k ∈ keys t') :
    k ∉ keys t := by
  have hnodup := h.nodup
  rw [keys_append] at hnodup
  exact fun hk' => (List.nodup_append.mp hnodup).2.2 k hk' k hk rfl

/-- A key has one value. -/
theorem value_eq (h : Ordered last now t) (hx : (k, x) ∈ t) (hy : (k, y) ∈ t) : x = y := by
  by_contra hne
  have hpair : t.Pairwise fun e e' => e.1 ≠ e'.1 :=
    h.pairwise.imp fun hlt heq => Nat.ne_of_lt hlt (congrArg last heq)
  have : Std.Symm fun e e' : κ × ν => e.1 ≠ e'.1 := ⟨fun _ _ => Ne.symm⟩
  exact hpair.forall hx hy (fun heq => hne (Prod.mk.inj heq).2) rfl

/-- What is dropped from the front was used before all that is kept. -/
theorem lt_of_drop (h : Ordered last now t) {n : ℕ} (hk : k ∈ keys t)
    (hdrop : k ∉ keys (t.drop n)) : ∀ k' ∈ keys (t.drop n), last k < last k' := by
  intro k' hk'
  obtain ⟨x, hx⟩ := mem_keys.mp hk
  obtain ⟨y, hy⟩ := mem_keys.mp hk'
  rw [← List.take_append_drop n t] at hx
  have hpair := h.pairwise
  rw [← List.take_append_drop n t] at hpair
  have htake : (k, x) ∈ t.take n :=
    (List.mem_append.mp hx).resolve_right fun hx => hdrop (mem_keys.mpr ⟨x, hx⟩)
  exact (List.pairwise_append.mp hpair).2.2 _ htake _ hy

end Ordered

end Recency
