import InvoiceOps.GatewaySettings
import InvoiceOps.Recency

/-!
# Budget alerts

`BudgetAlertTracker` adds up the costs of each run, for at most `maxRuns` of them, and tells once
when a run has reached the threshold. `observe` takes its arithmetic as a parameter.

`Observations` is a tracker with what it was told : the number of costs, which of them was the last
of a run, and the costs of a run since it was last admitted (`stay`). `Kept` is its invariant, and
`budget_tracker_invariant` has it of every run of calls, with what each further call does
(`Observes`).
-/

open Decimal (Arithmetic)

namespace InvoiceOps

/-- The totals of the runs, the least recent first. -/
structure BudgetAlertTracker where
  maxRuns : ℕ := 10000
  totals : List (Uuid × Decimal) := []
  alerted : List Uuid := []

namespace BudgetAlertTracker

/-- The context the program starts in. -/
def context : Decimal.Context :=
  ⟨28, .halfEven, -999999, 999999⟩

/-- The arithmetic of the program. -/
instance arithmetic : Arithmetic Decimal.Signal :=
  letI : Decimal.OfSignal Decimal.Signal := ⟨id⟩
  context.arithmetic Decimal.Signal

/-- The sum kept for a run. -/
def total? (tracker : BudgetAlertTracker) (runId : Uuid) : Option Decimal :=
  (tracker.totals.find? fun t => t.1 = runId).map Prod.snd

section

variable {ε : Type} [Arithmetic ε]

/-- The sum of what is known of a run and of another cost. -/
def plus (tracker : BudgetAlertTracker) (runId : Uuid) (costUsd : Cost) : Except ε Decimal :=
  Arithmetic.add ((tracker.total? runId).getD .zero) costUsd.val

/-- `observe`, under the threshold of the tracker. -/
def observe (threshold : Decimal) (tracker : BudgetAlertTracker) (runId : Uuid) :
    Option Cost → Except ε ((Option Decimal × Bool) × BudgetAlertTracker)
  | none => .ok ((tracker.total? runId, false), tracker)
  | some costUsd => do
    let total ← tracker.plus runId costUsd
    let totals := Recency.touch tracker.totals runId total
    let expired := if tracker.maxRuns < totals.length then totals.take 1 else []
    let alerted := tracker.alerted.filter fun r => r ∉ expired.map Prod.fst
    let alert := decide (threshold.value ≤ total.value) && runId ∉ alerted
    return ((some total, alert),
      { tracker with
        totals := totals.drop expired.length
        alerted := if alert then alerted ++ [runId] else alerted })

end

/-- The runs whose sums are kept. -/
def runs (tracker : BudgetAlertTracker) : List Uuid :=
  Recency.keys tracker.totals

end BudgetAlertTracker

/-! ## What was observed -/

/-- A tracker, with its history : how many costs it counted, and when it last saw each run. -/
structure Observations where
  tracker : BudgetAlertTracker
  costs : ℕ := 0
  last : Uuid → ℕ := fun _ => 0
  /-- The costs of a run since it was last admitted. -/
  stay : Uuid → List Cost := fun _ => []

/-- The costs of the stay of a run with another one. -/
def Observations.stayWith (o : Observations) (runId : Uuid) (costUsd : Cost) : List Cost :=
  (if runId ∈ o.tracker.runs then o.stay runId else []) ++ [costUsd]

section

variable (ε : Type) [Arithmetic ε] (threshold : Decimal)

/-- The observations after another call. One whose sum is trapped changes nothing. -/
def Observations.next (o : Observations) (call : Uuid × Option Cost) : Observations :=
  match (o.tracker.observe threshold call.1 call.2 : Except ε _), call.2 with
  | .error _, _ => o
  | .ok (_, tracker), none => { o with tracker }
  | .ok (_, tracker), some costUsd =>
    { tracker
      costs := o.costs + 1
      last := Function.update o.last call.1 (o.costs + 1)
      stay := Function.update o.stay call.1 (o.stayWith call.1 costUsd) }

/-- The observations of a new tracker. -/
def Observations.of (maxRuns : ℕ) (calls : List (Uuid × Option Cost)) : Observations :=
  calls.foldl (Observations.next ε threshold) { tracker := { maxRuns } }

/-- The sum of costs, from the first on. -/
def totalOf (costs : List Cost) : Except ε Decimal :=
  Arithmetic.sum (costs.map Subtype.val) .zero

/-- The costs add up to the threshold or more. -/
def Reaches (costs : List Cost) : Prop :=
  ∃ total, totalOf ε costs = .ok total ∧ threshold.value ≤ total.value

/-- What holds of a tracker after each call. -/
structure Kept (o : Observations) : Prop where
  bounded : o.tracker.totals.length ≤ o.tracker.maxRuns
  alerted : ∀ runId ∈ o.tracker.alerted, runId ∈ o.tracker.runs
  total : ∀ runId total, (runId, total) ∈ o.tracker.totals →
    o.stay runId ≠ [] ∧ totalOf ε (o.stay runId) = .ok total
  alerted_iff : ∀ runId ∈ o.tracker.runs,
    runId ∈ o.tracker.alerted ↔ ∃ costs, costs <+: o.stay runId ∧ Reaches ε threshold costs
  ordered : Recency.Ordered o.last o.costs o.tracker.totals

/-- What a cost does : its run is kept, it alerts if the costs of the stay reach the threshold and
fewer of them do not, and what is evicted is another run, which was observed before all that are
kept. -/
structure Observes (o : Observations) (runId : Uuid) (costUsd : Cost)
    (seen : Option Decimal × Bool) (o' : Observations) : Prop where
  stay : o'.stay runId = o.stayWith runId costUsd
  total : ∃ total, seen.1 = some total ∧ (runId, total) ∈ o'.tracker.totals
  alert : seen.2 = true ↔ Reaches ε threshold (o'.stay runId) ∧
    ∀ costs, costs <+: o'.stay runId → Reaches ε threshold costs → costs = o'.stay runId
  evicted : ∀ other ∈ o.tracker.runs, other ∉ o'.tracker.runs →
    other ≠ runId ∧ ∀ kept ∈ o'.tracker.runs, o'.last other < o'.last kept
  others : ∀ other total, other ≠ runId → (other, total) ∈ o'.tracker.totals →
    (other, total) ∈ o.tracker.totals ∧ o'.stay other = o.stay other ∧ o'.last other = o.last other

/-- The sums are exact, and none is trapped. -/
def AddsExactly : Prop :=
  ∀ a b : Decimal, ∃ sum, (Arithmetic.add a b : Except ε Decimal) = .ok sum ∧
    sum.value = a.value + b.value

end

section

variable {ε : Type} [Arithmetic ε] {threshold : Decimal}

/-- The sum of one more number. -/
theorem sum_concat (d : Decimal) : ∀ (ds : List Decimal) (start : Decimal),
    (Arithmetic.sum (ds ++ [d]) start : Except ε Decimal) =
      (Arithmetic.sum ds start).bind fun total => Arithmetic.add total d
  | [], start => by
    simp only [List.nil_append, Arithmetic.sum]
    exact bind_pure _
  | d' :: ds, start => by
    simp only [List.cons_append, Arithmetic.sum]
    cases (Arithmetic.add start d' : Except ε Decimal) with
    | error e => rfl
    | ok total => exact sum_concat d ds total

/-- The total of one more cost. -/
theorem totalOf_concat (costs : List Cost) (costUsd : Cost) :
    totalOf ε (costs ++ [costUsd]) =
      (totalOf ε costs).bind fun total => Arithmetic.add total costUsd.val := by
  rw [totalOf, List.map_append, List.map_singleton, sum_concat, totalOf]

/-- Exact sums are the sums of the values. -/
theorem AddsExactly.totalOf (h : AddsExactly ε) (costs : List Cost) :
    ∃ total, totalOf ε costs = .ok total ∧
      total.value = (costs.map fun costUsd => costUsd.val.value).sum := by
  induction costs using List.reverseRecOn with
  | nil => exact ⟨.zero, rfl, Decimal.value_zero⟩
  | append_singleton costs costUsd ih =>
    obtain ⟨total, htotal, hvalue⟩ := ih
    obtain ⟨sum, hsum, hsumValue⟩ := h total costUsd.val
    refine ⟨sum, ?_, ?_⟩
    · rw [totalOf_concat, htotal]
      exact hsum
    · rw [hsumValue, hvalue, List.map_append, List.sum_append]
      simp

/-- Nothing does not reach a positive threshold. -/
theorem not_reaches_nil (hpos : 0 < threshold.value) : ¬Reaches ε threshold [] := by
  rintro ⟨total, htotal, hle⟩
  obtain rfl : Decimal.zero = total := Except.ok.inj htotal
  rw [Decimal.value_zero] at hle
  exact absurd hle (not_le.mpr hpos)

/-! ## A call -/

namespace BudgetAlertTracker

variable {tracker tracker' : BudgetAlertTracker} {runId : Uuid} {costUsd : Cost}
  {seen : Option Decimal × Bool}

/-- A cost : its run goes to the end with its total, and if there is no room the first run
expires. -/
theorem observe_cases
    (h : (tracker.observe threshold runId (some costUsd) : Except ε _) = .ok (seen, tracker')) :
    ∃ total expired, tracker.plus runId costUsd = (.ok total : Except ε Decimal) ∧
      (expired = [] ∧ tracker'.totals.length ≤ tracker.maxRuns ∨
        (∃ e, expired = [e]) ∧ tracker.maxRuns ≤ tracker'.totals.length) ∧
      Recency.touch tracker.totals runId total = expired ++ tracker'.totals ∧
      tracker'.maxRuns = tracker.maxRuns ∧ seen.1 = some total ∧
      (seen.2 = true ↔ threshold.value ≤ total.value ∧
        ¬(runId ∈ tracker.alerted ∧ runId ∉ Recency.keys expired)) ∧
      ∀ other, other ∈ tracker'.alerted ↔
        other ∈ tracker.alerted ∧ other ∉ Recency.keys expired ∨ seen.2 = true ∧ other = runId := by
  unfold observe at h
  cases hplus : (tracker.plus runId costUsd : Except ε Decimal) with
  | error e => simp [hplus, bind, Except.bind] at h
  | ok total =>
    simp only [hplus, bind, Except.bind, pure, Except.pure, Except.ok.injEq, Prod.mk.injEq] at h
    obtain ⟨rfl, rfl⟩ := h
    have hpos : 0 < (Recency.touch tracker.totals runId total).length := by
      simp [Recency.touch]
    refine ⟨total, if tracker.maxRuns < (Recency.touch tracker.totals runId total).length then
      (Recency.touch tracker.totals runId total).take 1 else [], rfl, ?_, ?_, rfl, rfl, ?_, ?_⟩
    · by_cases hfull : tracker.maxRuns < (Recency.touch tracker.totals runId total).length
      · rw [if_pos hfull]
        refine Or.inr ⟨List.length_eq_one_iff.mp (by rw [List.length_take]; omega), ?_⟩
        simp only [List.length_drop, List.length_take]
        omega
      · rw [if_neg hfull]
        exact Or.inl ⟨rfl, by simpa using not_lt.mp hfull⟩
    · by_cases hfull : tracker.maxRuns < (Recency.touch tracker.totals runId total).length
      · have hone : min 1 (Recency.touch tracker.totals runId total).length = 1 := by omega
        simp only [if_pos hfull, List.length_take, hone, List.take_append_drop]
      · simp only [if_neg hfull, List.length_nil, List.drop_zero, List.nil_append]
    · simp [Recency.keys]
    · intro other
      generalize (if tracker.maxRuns < (Recency.touch tracker.totals runId total).length then
        (Recency.touch tracker.totals runId total).take 1 else []) = expired
      generalize (decide (threshold.value ≤ total.value) && _) = alert
      cases alert <;> simp [Recency.keys]

end BudgetAlertTracker

/-! ## A run of calls -/

namespace Observations

variable {o : Observations} {runId : Uuid} {costUsd : Cost} {seen : Option Decimal × Bool}
  {tracker' : BudgetAlertTracker}

/-- What a costed call does to the run of calls. -/
theorem next_some
    (h : (o.tracker.observe threshold runId (some costUsd) : Except ε _) = .ok (seen, tracker')) :
    o.next ε threshold (runId, some costUsd) =
      { tracker := tracker'
        costs := o.costs + 1
        last := Function.update o.last runId (o.costs + 1)
        stay := Function.update o.stay runId (o.stayWith runId costUsd) } := by
  simp only [next, h]

/-- A call that is trapped, or has no cost, leaves the observations as they were. -/
theorem next_eq_or (call : Uuid × Option Cost) : o.next ε threshold call = o ∨
    ∃ costUsd seen tracker', call.2 = some costUsd ∧
      (o.tracker.observe threshold call.1 (some costUsd) : Except ε _) = .ok (seen, tracker') := by
  obtain ⟨runId, costUsd⟩ := call
  cases costUsd with
  | none => exact Or.inl rfl
  | some costUsd =>
    cases h : (o.tracker.observe threshold runId (some costUsd) : Except ε _) with
    | error e => exact Or.inl (by simp only [next, h])
    | ok result => exact Or.inr ⟨costUsd, result.1, result.2, rfl, h⟩

end Observations

namespace Kept

variable {o : Observations} {runId : Uuid} {costUsd : Cost} {seen : Option Decimal × Bool}
  {tracker' : BudgetAlertTracker}

/-- The total of a run that is kept. -/
theorem total?_eq (h : Kept ε threshold o) {total : Decimal}
    (hmem : (runId, total) ∈ o.tracker.totals) : o.tracker.total? runId = some total := by
  obtain ⟨entry, hfind⟩ : ∃ entry, (o.tracker.totals.find? fun t => t.1 = runId) = some entry :=
    Option.isSome_iff_exists.mp (List.find?_isSome.mpr ⟨_, hmem, by simp⟩)
  obtain ⟨other, total'⟩ := entry
  obtain rfl : other = runId := by simpa using List.find?_some hfind
  rw [BudgetAlertTracker.total?, hfind, Option.map_some,
    h.ordered.value_eq (List.mem_of_find?_eq_some hfind) hmem]

/-- The sum of a call is that of the costs of its stay. -/
theorem plus_eq (h : Kept ε threshold o) :
    (o.tracker.plus runId costUsd : Except ε Decimal) =
      totalOf ε (o.stayWith runId costUsd) := by
  rw [Observations.stayWith, totalOf_concat, BudgetAlertTracker.plus]
  by_cases hmem : runId ∈ o.tracker.runs
  · obtain ⟨total, htotal⟩ := Recency.mem_keys.mp hmem
    rw [if_pos hmem, (h.total runId total htotal).2, h.total?_eq htotal]
    rfl
  · have hnone : o.tracker.total? runId = none := by
      rw [BudgetAlertTracker.total?, Option.map_eq_none_iff, List.find?_eq_none]
      intro entry hentry heq
      exact hmem (Recency.mem_keys.mpr ⟨entry.2, (by simpa using heq : entry.1 = runId) ▸ hentry⟩)
    rw [if_neg hmem, hnone]
    rfl

/-- A run has alerted if and only if some of its costs reached the threshold. -/
theorem alerted_iff_stay (h : Kept ε threshold o) (hpos : 0 < threshold.value) :
    runId ∈ o.tracker.alerted ↔
      ∃ costs, costs <+: (if runId ∈ o.tracker.runs then o.stay runId else []) ∧
        Reaches ε threshold costs := by
  by_cases hmem : runId ∈ o.tracker.runs
  · rw [if_pos hmem, h.alerted_iff runId hmem]
  · rw [if_neg hmem]
    refine ⟨fun halerted => absurd (h.alerted runId halerted) hmem, ?_⟩
    rintro ⟨costs, hprefix, hreaches⟩
    rw [List.prefix_nil.mp hprefix] at hreaches
    exact absurd hreaches (not_reaches_nil hpos)

end Kept

/-- A call with a cost, in parts. There was no room for `expired`. -/
structure Costed (ε : Type) [Arithmetic ε] (threshold : Decimal) (o : Observations) (runId : Uuid)
    (costUsd : Cost) (seen : Option Decimal × Bool) (tracker' : BudgetAlertTracker)
    (total : Decimal)
    (expired : List (Uuid × Decimal)) : Prop where
  sum : totalOf ε (o.stayWith runId costUsd) = .ok total
  split : Recency.touch o.tracker.totals runId total = expired ++ tracker'.totals
  kept : (runId, total) ∈ tracker'.totals
  bounded : tracker'.totals.length ≤ o.tracker.maxRuns
  maxRuns : tracker'.maxRuns = o.tracker.maxRuns
  seen_eq : seen.1 = some total
  ordered : Recency.Ordered (Function.update o.last runId (o.costs + 1)) (o.costs + 1)
    (expired ++ tracker'.totals)
  alert : seen.2 = true ↔
    Reaches ε threshold (o.stayWith runId costUsd) ∧ runId ∉ o.tracker.alerted
  alerted : ∀ other, other ∈ tracker'.alerted ↔
    other ∈ o.tracker.alerted ∧ other ∉ Recency.keys expired ∨ seen.2 = true ∧ other = runId

section

variable {o : Observations} {runId : Uuid} {costUsd : Cost} {seen : Option Decimal × Bool}
  {tracker' : BudgetAlertTracker} {total : Decimal} {expired : List (Uuid × Decimal)}

/-- A costed call takes a tracker that is kept to one that is described. -/
theorem Kept.costed (h : Kept ε threshold o) (hmax : 1 ≤ o.tracker.maxRuns)
    (hobserve : (o.tracker.observe threshold runId (some costUsd) : Except ε _) =
      .ok (seen, tracker')) :
    ∃ total expired, Costed ε threshold o runId costUsd seen tracker' total expired := by
  obtain ⟨total, expired, hplus, hroom, hsplit, hruns, hseen, halert, halerted⟩ :=
    BudgetAlertTracker.observe_cases hobserve
  rw [h.plus_eq] at hplus
  have hordered := hsplit ▸ h.ordered.touch runId total
  -- the run itself is the last one, and does not expire
  have hkept : (runId, total) ∈ tracker'.totals := by
    rcases hroom with ⟨rfl, -⟩ | ⟨⟨e, rfl⟩, hlength⟩
    · rw [← List.nil_append tracker'.totals, ← hsplit, Recency.mem_touch]
      exact Or.inr ⟨rfl, rfl⟩
    · have hne : tracker'.totals ≠ [] := fun hnil => by
        rw [hnil, List.length_nil] at hlength
        omega
      have hlast := congrArg List.getLast? hsplit
      rw [Recency.touch, List.getLast?_concat, List.singleton_append,
        List.getLast?_cons_of_ne_nil hne] at hlast
      exact List.mem_of_getLast? hlast.symm
  have hreaches : Reaches ε threshold (o.stayWith runId costUsd) ↔
      threshold.value ≤ total.value := by
    constructor
    · rintro ⟨total', htotal', hle⟩
      rwa [Except.ok.inj (hplus.symm.trans htotal')]
    · exact fun hle => ⟨total, hplus, hle⟩
  refine ⟨total, expired, ⟨hplus, hsplit, hkept, ?_, hruns, hseen, hordered, ?_, halerted⟩⟩
  · have hlength := congrArg List.length hsplit
    have hle := (Recency.length_touch_le (t := o.tracker.totals) (k := runId) (x := total)).trans
      (Nat.succ_le_succ h.bounded)
    rcases hroom with ⟨rfl, hroom⟩ | ⟨⟨e, rfl⟩, -⟩
    · exact hroom
    · rw [List.length_append, List.length_singleton] at hlength
      omega
  · have hself := hordered.not_mem_keys (Recency.mem_keys.mpr ⟨total, hkept⟩)
    rw [halert, hreaches]
    simp [hself]

namespace Costed

/-- The run of a call is held after it. -/
theorem mem_runs (h : Costed ε threshold o runId costUsd seen tracker' total expired) :
    runId ∈ tracker'.runs :=
  Recency.mem_keys.mpr ⟨total, h.kept⟩

/-- Every other total was there before. -/
theorem mem_totals (h : Costed ε threshold o runId costUsd seen tracker' total expired)
    {other : Uuid} {t : Decimal} (ht : (other, t) ∈ tracker'.totals) :
    (other, t) ∈ o.tracker.totals ∧ other ≠ runId ∨ other = runId ∧ t = total := by
  rw [← Recency.mem_touch, h.split]
  exact List.mem_append_right _ ht

/-- A run of the tracker is kept, or expires. -/
theorem kept_or_expired (h : Costed ε threshold o runId costUsd seen tracker' total expired)
    {other : Uuid} (hother : other ∈ o.tracker.runs) :
    other ∈ Recency.keys (expired ++ tracker'.totals) := by
  rw [← h.split, Recency.mem_keys_touch]
  exact Or.inr hother

/-- The invariant after the call. -/
theorem next (h : Costed ε threshold o runId costUsd seen tracker' total expired)
    (hkept : Kept ε threshold o) (hpos : 0 < threshold.value) :
    Kept ε threshold
      { tracker := tracker'
        costs := o.costs + 1
        last := Function.update o.last runId (o.costs + 1)
        stay := Function.update o.stay runId (o.stayWith runId costUsd) } where
  bounded := h.bounded.trans_eq h.maxRuns.symm
  alerted other hother := by
    rcases (h.alerted other).mp hother with ⟨hother, hexpired⟩ | ⟨-, rfl⟩
    · have hold := h.kept_or_expired (hkept.alerted other hother)
      rw [Recency.keys_append] at hold
      exact (List.mem_append.mp hold).resolve_left hexpired
    · exact h.mem_runs
  total other t ht := by
    dsimp only
    rcases h.mem_totals ht with ⟨hold, hne⟩ | ⟨rfl, rfl⟩
    · rw [Function.update_of_ne hne]
      exact hkept.total other t hold
    · rw [Function.update_self]
      exact ⟨by simp [Observations.stayWith], h.sum⟩
  alerted_iff other hother := by
    have hself := h.ordered.not_mem_keys hother
    dsimp only
    rw [h.alerted other]
    by_cases hne : other = runId
    · subst hne
      rw [Function.update_self, h.alert]
      simp only [hself, not_false_eq_true, and_true, Observations.stayWith, List.prefix_concat_iff,
        or_and_right, exists_or, exists_eq_left]
      rw [← hkept.alerted_iff_stay hpos]
      tauto
    · obtain ⟨t, ht⟩ := Recency.mem_keys.mp hother
      have hold := ((h.mem_totals ht).resolve_right fun heq => hne heq.1).1
      rw [Function.update_of_ne hne, ← hkept.alerted_iff other (Recency.mem_keys.mpr ⟨t, hold⟩)]
      simp [hself, hne]
  ordered := h.ordered.sublist (List.sublist_append_right _ _)

/-- A costed call alerts just when the stay of the run reaches the threshold for the first time. -/
theorem observes (h : Costed ε threshold o runId costUsd seen tracker' total expired)
    (hkept : Kept ε threshold o) (hpos : 0 < threshold.value) :
    Observes ε threshold o runId costUsd seen
      { tracker := tracker'
        costs := o.costs + 1
        last := Function.update o.last runId (o.costs + 1)
        stay := Function.update o.stay runId (o.stayWith runId costUsd) } where
  stay := Function.update_self ..
  total := ⟨total, h.seen_eq, h.kept⟩
  alert := by
    dsimp only
    rw [Function.update_self, h.alert, hkept.alerted_iff_stay hpos]
    refine and_congr_right fun _ => ⟨fun hnone costs hpre hcosts => ?_, fun hfirst => ?_⟩
    · rcases List.prefix_concat_iff.mp hpre with rfl | hpre
      · rfl
      · exact absurd ⟨costs, hpre, hcosts⟩ hnone
    · rintro ⟨costs, hpre, hcosts⟩
      have heq := hfirst costs (hpre.trans (List.prefix_append _ _)) hcosts
      have hlength := hpre.length_le
      rw [heq, Observations.stayWith, List.length_append, List.length_singleton] at hlength
      omega
  evicted other hother hout := by
    refine ⟨fun heq => hout (heq ▸ h.mem_runs), fun kept hkept => ?_⟩
    have hdrop : (expired ++ tracker'.totals).drop expired.length = tracker'.totals := by simp
    have hlt := h.ordered.lt_of_drop (n := expired.length) (h.kept_or_expired hother)
    rw [hdrop] at hlt
    exact hlt hout kept hkept
  others other t hne ht := by
    dsimp only
    rw [Function.update_of_ne hne, Function.update_of_ne hne]
    exact ⟨((h.mem_totals ht).resolve_right fun heq => hne heq.1).1, rfl, rfl⟩

end Costed

end

/-- Every sequence of calls keeps the tracker. -/
theorem kept_of {maxRuns : ℕ} (calls : List (Uuid × Option Cost)) (hpos : 0 < threshold.value)
    (hmax : 1 ≤ maxRuns) : Kept ε threshold (.of ε threshold maxRuns calls) ∧
      (Observations.of ε threshold maxRuns calls).tracker.maxRuns = maxRuns := by
  induction calls using List.reverseRecOn with
  | nil => exact ⟨⟨Nat.zero_le _, by simp [Observations.of], by simp [Observations.of],
      by simp [Observations.of, BudgetAlertTracker.runs], Recency.Ordered.nil⟩, rfl⟩
  | append_singleton calls call ih =>
    obtain ⟨hkept, hruns⟩ := ih
    rw [Observations.of, List.foldl_concat, ← Observations.of]
    rcases @Observations.next_eq_or ε _ threshold (.of ε threshold maxRuns calls) call
      with h | ⟨costUsd, seen, tracker', hcost, h⟩
    · rw [h]
      exact ⟨hkept, hruns⟩
    · obtain ⟨runId, costUsd'⟩ := call
      obtain rfl : costUsd' = some costUsd := hcost
      obtain ⟨total, expired, hcosted⟩ := hkept.costed (hruns.ge.trans' hmax) h
      rw [Observations.next_some h]
      exact ⟨hcosted.next hkept hpos, hcosted.maxRuns.trans hruns⟩

end

/-- After any calls of a tracker, its table is bounded and has the sums of the costs of the stays,
and each further call does what it should. -/
theorem budget_tracker_invariant {ε : Type} [Arithmetic ε] (threshold : Decimal)
    (hpos : 0 < threshold.value) (maxRuns : ℕ) (hmax : 1 ≤ maxRuns)
    (calls : List (Uuid × Option Cost)) :
    let o := Observations.of ε threshold maxRuns calls
    o.tracker.maxRuns = maxRuns ∧ Kept ε threshold o ∧
      (AddsExactly ε → ∀ runId total, (runId, total) ∈ o.tracker.totals →
        total.value = ((o.stay runId).map fun costUsd => costUsd.val.value).sum) ∧
      ∀ runId,
        (o.tracker.observe threshold runId none : Except ε _) =
            .ok ((o.tracker.total? runId, false), o.tracker) ∧
          ∀ costUsd seen tracker',
            (o.tracker.observe threshold runId (some costUsd) : Except ε _) =
                .ok (seen, tracker') →
              (o.next ε threshold (runId, some costUsd)).tracker = tracker' ∧
                Observes ε threshold o runId costUsd seen
                  (o.next ε threshold (runId, some costUsd)) := by
  obtain ⟨hkept, hruns⟩ := kept_of (ε := ε) calls hpos hmax
  refine ⟨hruns, hkept, fun hexact runId total hmem => ?_, fun runId => ⟨rfl, ?_⟩⟩
  · obtain ⟨total', htotal', hvalue⟩ := hexact.totalOf ((Observations.of ε threshold maxRuns
      calls).stay runId)
    rwa [Except.ok.inj ((hkept.total runId total hmem).2.symm.trans htotal')]
  · intro costUsd seen tracker' h
    obtain ⟨total, expired, hcosted⟩ := hkept.costed (hruns.ge.trans' hmax) h
    rw [Observations.next_some h]
    exact ⟨rfl, hcosted.observes hkept hpos⟩

theorem cents_nonneg : 0 ≤ (⟨false, 2, -2⟩ : Decimal).value := by
  norm_num [Decimal.value, Decimal.signed]

/-- A result is there if its first part is. -/
theorem exists_of_map_fst {ε α β : Type} {x : Except ε (α × β)} {a : α}
    (h : x.map Prod.fst = .ok a) : ∃ b, x = .ok (a, b) := by
  cases x with
  | error e => cases h
  | ok out =>
    obtain ⟨a', b⟩ := out
    obtain rfl : a' = a := Except.ok.inj h
    exact ⟨b, rfl⟩

/-- Two cents. -/
def twoCents : Cost :=
  ⟨⟨false, 2, -2⟩, cents_nonneg⟩

/-- At the threshold of four cents, with room for two runs. -/
def sampleObserved (calls : List (Uuid × Option Cost)) : Observations :=
  .of Decimal.Signal ⟨false, 4, -2⟩ 2 calls

/-- Two cents for each of two runs, and a call that has no cost. -/
def sampleCalls : List (Uuid × Option Cost) :=
  [(5, some twoCents), (6, some twoCents), (5, none)]

/-- The next two cents of the run 5 alert, and those of the run 7 evict the run 6. -/
theorem budget_tracker_sample :
    (Kept Decimal.Signal ⟨false, 4, -2⟩ (sampleObserved sampleCalls) ∧
      Observes Decimal.Signal ⟨false, 4, -2⟩ (sampleObserved sampleCalls) 5 twoCents
        (some ⟨false, 4, -2⟩, true)
        (sampleObserved (sampleCalls ++ [(5, some twoCents)]))) ∧
    Observes Decimal.Signal ⟨false, 4, -2⟩
        (sampleObserved (sampleCalls ++ [(5, some twoCents)])) 7 twoCents
        (some ⟨false, 2, -2⟩, false)
        (sampleObserved (sampleCalls ++ [(5, some twoCents), (7, some twoCents)])) ∧
      (sampleObserved (sampleCalls ++ [(5, some twoCents), (7, some twoCents)])).tracker.totals =
        [(5, ⟨false, 4, -2⟩), (7, ⟨false, 2, -2⟩)] := by
  have hthreshold : (0 : ℚ) < (⟨false, 4, -2⟩ : Decimal).value := by
    norm_num [Decimal.value, Decimal.signed]
  have hobserved : ∀ calls runId seen,
      ((sampleObserved calls).tracker.observe ⟨false, 4, -2⟩ runId (some twoCents) :
        Except Decimal.Signal _).map Prod.fst = .ok seen →
      Observes Decimal.Signal ⟨false, 4, -2⟩ (sampleObserved calls) runId twoCents seen
        ((sampleObserved calls).next Decimal.Signal ⟨false, 4, -2⟩ (runId, some twoCents)) := by
    intro calls runId seen hseen
    obtain ⟨tracker', hout⟩ := exists_of_map_fst hseen
    exact (((budget_tracker_invariant (ε := Decimal.Signal) _ hthreshold 2 (by norm_num)
      calls).2.2.2 runId).2 twoCents _ _ hout).2
  refine ⟨⟨(budget_tracker_invariant _ hthreshold 2 (by norm_num) sampleCalls).2.1,
    hobserved sampleCalls 5 _ (by decide +kernel)⟩,
    hobserved (sampleCalls ++ [(5, some twoCents)]) 7 _ (by decide +kernel), by decide +kernel⟩

end InvoiceOps
