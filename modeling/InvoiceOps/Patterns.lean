import Mathlib.Data.List.Basic
import Mathlib.Tactic.Common

/-!
# Patterns

Regular expressions as a backtracking matcher reads them : `Pattern.ends` are the places where a
match can end, in the order in which they are tried, so the first is where a match does end. An
assertion looks at the characters at both sides of a place. `Pattern.search` looks for a match
anywhere in a text.

What a match takes is what the classes of its pattern accept (`ends_takes`), and a match is one from
any other place at which the same characters can be read and the same assertions hold
(`ends_simulated`). Texts that are joined by a character no match takes have the matches that each
of them has (`search_intercalate`).
-/

/-- A place in a text : the character before it, if there is one, and what follows. -/
structure Place where
  before : Option Char
  rest : List Char
  deriving DecidableEq

/-- The character behind a place. -/
def Place.next (x : Place) : Option Char :=
  x.rest.head?

/-- What an assertion says of the characters at both sides of a place. -/
abbrev Assertion := Option Char → Option Char → Bool

/-- A pattern : a character of a class, a class as often as possible, an assertion, one pattern
after another, one or else another, and one at least and at most so many times. -/
inductive Pattern where
  | one (accepts : Char → Bool)
  | star (accepts : Char → Bool)
  | look (holds : Assertion)
  | seq (first second : Pattern)
  | alt (first second : Pattern)
  | times (least most : ℕ) (body : Pattern)

namespace Pattern

/-- What is matched anywhere, and takes nothing. -/
def empty : Pattern :=
  look fun _ _ => true

/-- A class, once at least. -/
def plus (accepts : Char → Bool) : Pattern :=
  seq (one accepts) (star accepts)

/-- A pattern, or nothing. -/
def optional (body : Pattern) : Pattern :=
  times 0 1 body

/-- Patterns, one after another. -/
def all : List Pattern → Pattern
  | [] => empty
  | r :: rs => seq r (all rs)

/-! ## Matching -/

/-- Where a class repeated as often as possible ends, the longest first. -/
def starEnds (accepts : Char → Bool) : Option Char → List Char → List Place
  | before, [] => [⟨before, []⟩]
  | before, c :: cs =>
    if accepts c then starEnds accepts (some c) cs ++ [⟨before, c :: cs⟩] else [⟨before, c :: cs⟩]

/-- Where at least `least` and at most `most` turns end, more turns first. -/
def timesEnds (body : Place → List Place) : ℕ → ℕ → Place → List Place
  | least, 0, x => if least = 0 then [x] else []
  | least, most + 1, x =>
    (body x).flatMap (timesEnds body (least - 1) most) ++ if least = 0 then [x] else []

/-- Where a match can end, in the order in which the places are tried. -/
def ends : Pattern → Place → List Place
  | one accepts, x =>
    match x.rest with
    | [] => []
    | c :: cs => if accepts c then [⟨some c, cs⟩] else []
  | star accepts, x => starEnds accepts x.before x.rest
  | look holds, x => if holds x.before x.next then [x] else []
  | seq first second, x => (first.ends x).flatMap second.ends
  | alt first second, x => first.ends x ++ second.ends x
  | times least most body, x => timesEnds body.ends least most x

/-- A property holds at some place from one on. -/
def anywhere (holds : Place → Bool) : Option Char → List Char → Bool
  | before, [] => holds ⟨before, []⟩
  | before, c :: cs => holds ⟨before, c :: cs⟩ || anywhere holds (some c) cs

/-- `pattern.match`, at a place. -/
def matched (r : Pattern) (x : Place) : Bool :=
  !(r.ends x).isEmpty

/-- `pattern.search`, from a place on. -/
def search (r : Pattern) (before : Option Char) (rest : List Char) : Bool :=
  anywhere r.matched before rest

/-! ## What a pattern takes -/

/-- No class of the pattern accepts `c`. -/
def Rejects (c : Char) : Pattern → Prop
  | one accepts | star accepts => accepts c = false
  | look _ => True
  | seq first second | alt first second => first.Rejects c ∧ second.Rejects c
  | times _ _ body => body.Rejects c

/-- Every match takes a character of `p`. -/
def Needs (p : Char → Bool) : Pattern → Prop
  | one accepts => ∀ c, accepts c → p c
  | star _ | look _ => False
  | seq first second => first.Needs p ∨ second.Needs p
  | alt first second => first.Needs p ∧ second.Needs p
  | times least _ body => 0 < least ∧ body.Needs p

/-- The assertions of the pattern satisfy `P`. -/
def Asserts (P : Assertion → Prop) : Pattern → Prop
  | one _ | star _ => True
  | look holds => P holds
  | seq first second | alt first second => first.Asserts P ∧ second.Asserts P
  | times _ _ body => body.Asserts P

end Pattern

/-- Patterns one after another reject what each of them rejects. -/
theorem Pattern.rejects_all {c : Char} {rs : List Pattern} (h : ∀ r ∈ rs, r.Rejects c) :
    (all rs).Rejects c := by
  induction rs with
  | nil => trivial
  | cons r rs ih =>
    exact ⟨h r List.mem_cons_self, ih fun s hs => h s (List.mem_cons_of_mem _ hs)⟩

/-- They need what one of them needs. -/
theorem Pattern.needs_all {p : Char → Bool} {r : Pattern} {rs : List Pattern} (hr : r ∈ rs)
    (h : r.Needs p) : (all rs).Needs p := by
  induction rs with
  | nil => cases hr
  | cons s rs ih =>
    rcases List.mem_cons.mp hr with rfl | hr
    · exact .inl h
    · exact .inr (ih hr)

/-- They assert what each of them asserts. -/
theorem Pattern.asserts_all {P : Assertion → Prop} (hempty : P fun _ _ => true)
    {rs : List Pattern} (h : ∀ r ∈ rs, r.Asserts P) : (all rs).Asserts P := by
  induction rs with
  | nil => exact hempty
  | cons r rs ih =>
    exact ⟨h r List.mem_cons_self, ih fun s hs => h s (List.mem_cons_of_mem _ hs)⟩

/-- Assertions that satisfy `P` satisfy what follows from it. -/
theorem Pattern.Asserts.mono {P Q : Assertion → Prop} {r : Pattern} (h : r.Asserts P)
    (hPQ : ∀ holds, P holds → Q holds) : r.Asserts Q := by
  induction r with
  | one _ | star _ => trivial
  | look holds => exact hPQ holds h
  | seq _ _ ih₁ ih₂ | alt _ _ ih₁ ih₂ => exact ⟨ih₁ h.1, ih₂ h.2⟩
  | times _ _ _ ih => exact ih h

/-- The character before a place, once `w` has been read. -/
def Place.lastOf : Option Char → List Char → Option Char
  | before, [] => before
  | _, c :: cs => lastOf (some c) cs

@[simp]
theorem Place.lastOf_append (before : Option Char) (v w : List Char) :
    Place.lastOf before (v ++ w) = Place.lastOf (Place.lastOf before v) w := by
  induction v generalizing before with
  | nil => rfl
  | cons c v ih => exact ih (some c)

/-- Reading `w` leads from one place to another. -/
structure Place.Reads (x : Place) (w : List Char) (y : Place) : Prop where
  rest : x.rest = w ++ y.rest
  before : y.before = Place.lastOf x.before w

namespace Place.Reads

variable {x y z : Place} {v w : List Char}

/-- Reading nothing leads nowhere. -/
theorem refl (x : Place) : x.Reads [] x :=
  ⟨rfl, rfl⟩

/-- One text is read after another. -/
theorem trans (h : x.Reads v y) (h' : y.Reads w z) : x.Reads (v ++ w) z where
  rest := by rw [h.rest, h'.rest, List.append_assoc]
  before := by rw [h'.before, h.before, Place.lastOf_append]

end Place.Reads

namespace Pattern

/-- What a match from `x` to `y` has taken. -/
structure Takes (r : Pattern) (x : Place) (w : List Char) (y : Place) : Prop
    extends x.Reads w y where
  rejects : ∀ c, r.Rejects c → c ∉ w
  needs : ∀ p, r.Needs p → ∃ c ∈ w, p c

/-- What a class repeated takes. -/
theorem starEnds_takes {accepts : Char → Bool} {before : Option Char} {rest : List Char}
    {y : Place} (h : y ∈ starEnds accepts before rest) :
    ∃ w, (star accepts).Takes ⟨before, rest⟩ w y := by
  induction rest generalizing before with
  | nil =>
    obtain rfl := List.mem_singleton.mp h
    exact ⟨[], .refl _, by simp, fun _ hp => hp.elim⟩
  | cons c cs ih =>
    rw [starEnds] at h
    split_ifs at h with hc
    · rcases List.mem_append.mp h with h | h
      · obtain ⟨w, hw⟩ := ih h
        refine ⟨c :: w, ⟨congrArg (c :: ·) hw.rest, hw.before⟩, fun d hd hmem => ?_,
          fun _ hp => hp.elim⟩
        rcases List.mem_cons.mp hmem with rfl | hmem
        · exact absurd hc (by rw [show accepts d = false from hd]; decide)
        · exact hw.rejects d hd hmem
      · obtain rfl := List.mem_singleton.mp h
        exact ⟨[], .refl _, by simp, fun _ hp => hp.elim⟩
    · obtain rfl := List.mem_singleton.mp h
      exact ⟨[], .refl _, by simp, fun _ hp => hp.elim⟩

/-- What a pattern repeated takes. -/
theorem timesEnds_takes {body : Pattern}
    (hbody : ∀ {x y}, y ∈ body.ends x → ∃ w, body.Takes x w y) {least most bound : ℕ}
    {x y : Place} (h : y ∈ timesEnds body.ends least most x) :
    ∃ w, (times least bound body).Takes x w y := by
  induction most generalizing least x with
  | zero =>
    rw [timesEnds] at h
    split_ifs at h with hleast
    · obtain rfl := List.mem_singleton.mp h
      exact ⟨[], .refl _, by simp, fun _ hp => absurd hp.1 (by omega)⟩
    · cases h
  | succ most ih =>
    rw [timesEnds] at h
    rcases List.mem_append.mp h with h | h
    · obtain ⟨z, hz, h⟩ := List.mem_flatMap.mp h
      obtain ⟨v, hv⟩ := hbody hz
      obtain ⟨w, hw⟩ := ih h
      refine ⟨v ++ w, hv.toReads.trans hw.toReads, fun c hc hmem => ?_, fun p hp => ?_⟩
      · rcases List.mem_append.mp hmem with hmem | hmem
        · exact hv.rejects c hc hmem
        · exact hw.rejects c hc hmem
      · obtain ⟨c, hc, hpc⟩ := hv.needs p hp.2
        exact ⟨c, List.mem_append_left _ hc, hpc⟩
    · split_ifs at h with hleast
      · obtain rfl := List.mem_singleton.mp h
        exact ⟨[], .refl _, by simp, fun _ hp => absurd hp.1 (by omega)⟩
      · cases h

/-- A match takes what its pattern accepts. -/
theorem ends_takes {r : Pattern} {x y : Place} (h : y ∈ r.ends x) : ∃ w, r.Takes x w y := by
  induction r generalizing x y with
  | one accepts =>
    unfold ends at h
    split at h
    · cases h
    · rename_i c cs hrest
      split_ifs at h with hc
      · obtain rfl := List.mem_singleton.mp h
        refine ⟨[c], ⟨hrest, rfl⟩, fun d hd hmem => ?_, fun p hp => ⟨c, by simp, hp c hc⟩⟩
        rw [List.mem_singleton.mp hmem] at hd
        exact absurd hc (by rw [show accepts c = false from hd]; decide)
      · cases h
  | star accepts => exact starEnds_takes h
  | look holds =>
    unfold ends at h
    split_ifs at h
    · obtain rfl := List.mem_singleton.mp h
      exact ⟨[], .refl _, by simp, fun _ hp => hp.elim⟩
    · cases h
  | seq first second ih₁ ih₂ =>
    obtain ⟨z, hz, h⟩ := List.mem_flatMap.mp h
    obtain ⟨v, hv⟩ := ih₁ hz
    obtain ⟨w, hw⟩ := ih₂ h
    refine ⟨v ++ w, hv.toReads.trans hw.toReads, fun c hc hmem => ?_, fun p hp => ?_⟩
    · rcases List.mem_append.mp hmem with hmem | hmem
      · exact hv.rejects c hc.1 hmem
      · exact hw.rejects c hc.2 hmem
    · rcases hp with hp | hp
      · obtain ⟨c, hc, hpc⟩ := hv.needs p hp
        exact ⟨c, List.mem_append_left _ hc, hpc⟩
      · obtain ⟨c, hc, hpc⟩ := hw.needs p hp
        exact ⟨c, List.mem_append_right _ hc, hpc⟩
  | alt first second ih₁ ih₂ =>
    rcases List.mem_append.mp h with h | h
    · obtain ⟨w, hw⟩ := ih₁ h
      exact ⟨w, hw.toReads, fun c hc => hw.rejects c hc.1, fun p hp => hw.needs p hp.1⟩
    · obtain ⟨w, hw⟩ := ih₂ h
      exact ⟨w, hw.toReads, fun c hc => hw.rejects c hc.2, fun p hp => hw.needs p hp.2⟩
  | times least most body ih => exact timesEnds_takes (fun h => ih h) h

/-- A match of a pattern that needs something gets ahead. -/
theorem length_ends {r : Pattern} {x y : Place} {p : Char → Bool} (hneeds : r.Needs p)
    (h : y ∈ r.ends x) : y.rest.length < x.rest.length := by
  obtain ⟨w, hw⟩ := ends_takes h
  obtain ⟨c, hc, -⟩ := hw.needs p hneeds
  rw [hw.rest, List.length_append]
  exact Nat.lt_add_of_pos_left (List.length_pos_of_mem hc)

/-- A pattern is not matched where what it needs does not come before a character it rejects. -/
theorem ends_blocked {r : Pattern} {p : Char → Bool} {stop : Char} (hneeds : r.Needs p)
    (hstop : r.Rejects stop) (before : Option Char) {g : List Char} (hg : ∀ c ∈ g, p c = false)
    (rest : List Char) : r.ends ⟨before, g ++ stop :: rest⟩ = [] := by
  refine List.eq_nil_iff_forall_not_mem.mpr fun y hy => ?_
  obtain ⟨w, hw⟩ := ends_takes hy
  obtain ⟨c, hc, hpc⟩ := hw.needs p hneeds
  have hstart : w <+: g := by
    rcases List.append_eq_append_iff.mp hw.rest.symm with ⟨v, hv, -⟩ | ⟨v, hv, hrest⟩
    · exact ⟨v, hv.symm⟩
    · cases v with
      | nil => exact ⟨[], by rw [hv, List.append_nil, List.append_nil]⟩
      | cons d v =>
        obtain ⟨rfl, -⟩ := List.cons_eq_cons.mp hrest
        exact absurd (by rw [hv]; simp) (hw.rejects _ hstop)
  exact absurd hpc (by rw [hg c (hstart.subset hc)]; decide)

/-! ## Where a match ends -/

/-- Patterns one after another are matched one part after another. -/
theorem mem_ends_all {rs ss : List Pattern} {x y : Place} (h : y ∈ (all (rs ++ ss)).ends x) :
    ∃ z ∈ (all rs).ends x, y ∈ (all ss).ends z := by
  induction rs generalizing x with
  | nil => exact ⟨x, by simp [all, empty, ends], h⟩
  | cons r rs ih =>
    obtain ⟨w, hw, h⟩ := List.mem_flatMap.mp h
    obtain ⟨z, hz, hy⟩ := ih h
    exact ⟨z, List.mem_flatMap.mpr ⟨w, hw, hz⟩, hy⟩

/-- One part alone is matched where it ends. -/
theorem mem_ends_cons {r : Pattern} {rs : List Pattern} {x y : Place} :
    y ∈ (all (r :: rs)).ends x ↔ ∃ z ∈ r.ends x, y ∈ (all rs).ends z :=
  List.mem_flatMap

/-- Nothing is matched where it is. -/
theorem mem_ends_nil {x y : Place} : y ∈ (all []).ends x ↔ y = x := by
  simp [all, empty, ends]

/-- An assertion is matched where it holds. -/
theorem mem_ends_look {holds : Assertion} {x y : Place} :
    y ∈ (look holds).ends x ↔ y = x ∧ holds x.before x.next := by
  rw [ends]
  split_ifs with h
  · simp [h]
  · simp [h]

/-- A class ends behind a character of it. -/
theorem before_one {accepts : Char → Bool} {x y : Place} (h : y ∈ (one accepts).ends x) :
    ∃ c, y.before = some c ∧ accepts c := by
  unfold ends at h
  split at h
  · cases h
  · rename_i c cs _
    split_ifs at h with hc
    · obtain rfl := List.mem_singleton.mp h
      exact ⟨c, rfl, hc⟩
    · cases h

/-- Repeated, it ends where it began or behind a character of it. -/
theorem before_star {accepts : Char → Bool} {x y : Place} (h : y ∈ (star accepts).ends x) :
    y.before = x.before ∨ ∃ c, y.before = some c ∧ accepts c := by
  obtain ⟨before, rest⟩ := x
  rw [ends] at h
  induction rest generalizing before with
  | nil =>
    obtain rfl := List.mem_singleton.mp h
    exact .inl rfl
  | cons c cs ih =>
    rw [starEnds] at h
    split_ifs at h with hc
    · rcases List.mem_append.mp h with h | h
      · rcases ih (some c) h with hy | hy
        · exact .inr ⟨c, hy, hc⟩
        · exact .inr hy
      · obtain rfl := List.mem_singleton.mp h
        exact .inl rfl
    · obtain rfl := List.mem_singleton.mp h
      exact .inl rfl

/-- Once at least, it ends behind a character of it. -/
theorem before_plus {accepts : Char → Bool} {x y : Place} (h : y ∈ (plus accepts).ends x) :
    ∃ c, y.before = some c ∧ accepts c := by
  obtain ⟨z, hz, h⟩ := List.mem_flatMap.mp h
  rcases before_star h with hy | hy
  · rw [hy]
    exact before_one hz
  · exact hy

/-- A pattern repeated ends where one turn does. -/
theorem ends_times {body : Pattern} {P : Place → Prop} (hbody : ∀ x, ∀ y ∈ body.ends x, P y)
    {least most : ℕ} {x y : Place} (h : y ∈ (times least most body).ends x)
    (hleast : 0 < least ∨ P x) : P y := by
  rw [ends] at h
  induction most generalizing least x with
  | zero =>
    rw [timesEnds] at h
    split_ifs at h with hzero
    · obtain rfl := List.mem_singleton.mp h
      exact hleast.resolve_left (by omega)
    · cases h
  | succ most ih =>
    rw [timesEnds] at h
    rcases List.mem_append.mp h with h | h
    · obtain ⟨z, hz, h⟩ := List.mem_flatMap.mp h
      exact ih h (.inr (hbody x z hz))
    · split_ifs at h with hzero
      · obtain rfl := List.mem_singleton.mp h
        exact hleast.resolve_left (by omega)
      · cases h

/-! ## Simulation -/

section

variable {R : Place → Place → Prop}

/-- The simulation of a class repeated. -/
theorem starEnds_simulated {accepts : Char → Bool}
    (hread : ∀ x x', R x x' → ∀ c cs, x.rest = c :: cs → accepts c →
      ∃ cs', x'.rest = c :: cs' ∧ R ⟨some c, cs⟩ ⟨some c, cs'⟩)
    {before : Option Char} {rest : List Char} {x' z : Place} (h : R ⟨before, rest⟩ x')
    (hz : z ∈ starEnds accepts before rest) :
    ∃ z' ∈ starEnds accepts x'.before x'.rest, R z z' := by
  have hhere (x' : Place) : x' ∈ starEnds accepts x'.before x'.rest := by
    cases hrest : x'.rest with
    | nil => simp [starEnds, ← hrest]
    | cons c cs =>
      rw [starEnds]
      split_ifs <;> simp [← hrest]
  induction rest generalizing before x' with
  | nil =>
    obtain rfl := List.mem_singleton.mp hz
    exact ⟨x', hhere x', h⟩
  | cons c cs ih =>
    rw [starEnds] at hz
    split_ifs at hz with hc
    · rcases List.mem_append.mp hz with hz | hz
      · obtain ⟨cs', hrest, hR⟩ := hread _ _ h c cs rfl hc
        obtain ⟨z', hz', hR'⟩ := ih hR hz
        refine ⟨z', ?_, hR'⟩
        rw [hrest, starEnds, if_pos hc]
        exact List.mem_append_left _ hz'
      · obtain rfl := List.mem_singleton.mp hz
        exact ⟨x', hhere x', h⟩
    · obtain rfl := List.mem_singleton.mp hz
      exact ⟨x', hhere x', h⟩

/-- The simulation of a pattern repeated. -/
theorem timesEnds_simulated {body : Place → List Place}
    (hbody : ∀ x x', R x x' → ∀ z ∈ body x, ∃ z' ∈ body x', R z z') {least most : ℕ}
    {x x' z : Place} (h : R x x') (hz : z ∈ timesEnds body least most x) :
    ∃ z' ∈ timesEnds body least most x', R z z' := by
  induction most generalizing least x x' with
  | zero =>
    rw [timesEnds] at hz ⊢
    split_ifs at hz ⊢ with hleast
    · obtain rfl := List.mem_singleton.mp hz
      exact ⟨x', List.mem_singleton_self _, h⟩
    · cases hz
  | succ most ih =>
    rw [timesEnds] at hz ⊢
    rcases List.mem_append.mp hz with hz | hz
    · obtain ⟨y, hy, hz⟩ := List.mem_flatMap.mp hz
      obtain ⟨y', hy', hR⟩ := hbody x x' h y hy
      obtain ⟨z', hz', hR'⟩ := ih hR hz
      exact ⟨z', List.mem_append_left _ (List.mem_flatMap.mpr ⟨y', hy', hz'⟩), hR'⟩
    · split_ifs at hz with hleast
      · obtain rfl := List.mem_singleton.mp hz
        exact ⟨x', List.mem_append_right _ (by rw [if_pos hleast]; simp), h⟩
      · cases hz

/-- A match is one from any place at which the same characters can be read and the same
assertions hold. -/
theorem ends_simulated {r : Pattern}
    (hread : ∀ x x', R x x' → ∀ c cs, x.rest = c :: cs → ¬r.Rejects c →
      ∃ cs', x'.rest = c :: cs' ∧ R ⟨some c, cs⟩ ⟨some c, cs'⟩)
    (hlook : r.Asserts fun holds => ∀ x x', R x x' → holds x.before x.next →
      holds x'.before x'.next)
    {x x' z : Place} (h : R x x') (hz : z ∈ r.ends x) : ∃ z' ∈ r.ends x', R z z' := by
  induction r generalizing x x' z with
  | one accepts =>
    unfold ends at hz
    split at hz
    · cases hz
    · rename_i c cs hrest
      split_ifs at hz with hc
      · obtain rfl := List.mem_singleton.mp hz
        obtain ⟨cs', hrest', hR⟩ := hread x x' h c cs hrest (by simp [Rejects, hc])
        refine ⟨⟨some c, cs'⟩, ?_, hR⟩
        simp [ends, hrest', hc]
      · cases hz
  | star accepts =>
    exact starEnds_simulated (fun x x' h c cs hrest hc =>
      hread x x' h c cs hrest (by simp [Rejects, hc])) h hz
  | look holds =>
    unfold ends at hz ⊢
    split_ifs at hz with hx
    · obtain rfl := List.mem_singleton.mp hz
      rw [if_pos (hlook _ _ h hx)]
      exact ⟨x', List.mem_singleton_self _, h⟩
    · cases hz
  | seq first second ih₁ ih₂ =>
    obtain ⟨y, hy, hz⟩ := List.mem_flatMap.mp hz
    obtain ⟨y', hy', hR⟩ := ih₁ (fun x x' h c cs hrest hc =>
      hread x x' h c cs hrest fun hr => hc hr.1) hlook.1 h hy
    obtain ⟨z', hz', hR'⟩ := ih₂ (fun x x' h c cs hrest hc =>
      hread x x' h c cs hrest fun hr => hc hr.2) hlook.2 hR hz
    exact ⟨z', List.mem_flatMap.mpr ⟨y', hy', hz'⟩, hR'⟩
  | alt first second ih₁ ih₂ =>
    rcases List.mem_append.mp hz with hz | hz
    · obtain ⟨z', hz', hR⟩ := ih₁ (fun x x' h c cs hrest hc =>
        hread x x' h c cs hrest fun hr => hc hr.1) hlook.1 h hz
      exact ⟨z', List.mem_append_left _ hz', hR⟩
    · obtain ⟨z', hz', hR⟩ := ih₂ (fun x x' h c cs hrest hc =>
        hread x x' h c cs hrest fun hr => hc hr.2) hlook.2 h hz
      exact ⟨z', List.mem_append_right _ hz', hR⟩
  | times least most body ih =>
    exact timesEnds_simulated (fun x x' h z hz => ih hread hlook h hz) h hz

/-- So there is none where there is none at such a place. -/
theorem ends_eq_nil_of_simulated {r : Pattern}
    (hread : ∀ x x', R x x' → ∀ c cs, x.rest = c :: cs → ¬r.Rejects c →
      ∃ cs', x'.rest = c :: cs' ∧ R ⟨some c, cs⟩ ⟨some c, cs'⟩)
    (hlook : r.Asserts fun holds => ∀ x x', R x x' → holds x.before x.next →
      holds x'.before x'.next)
    (x x' : Place) (h : R x x') (hx' : r.ends x' = []) : r.ends x = [] := by
  refine List.eq_nil_iff_forall_not_mem.mpr fun z hz => ?_
  obtain ⟨z', hz', -⟩ := ends_simulated hread hlook h hz
  rw [hx'] at hz'
  cases hz'

end

/-! ## Searching -/

/-- A property holds nowhere just when it holds at no place that is read. -/
theorem anywhere_eq_false_iff {holds : Place → Bool} {before : Option Char} {rest : List Char} :
    anywhere holds before rest = false ↔
      ∀ w x, Place.Reads ⟨before, rest⟩ w x → holds x = false := by
  induction rest generalizing before with
  | nil =>
    constructor
    · intro h w x hx
      obtain ⟨rfl, hrest⟩ := List.append_eq_nil_iff.mp hx.rest.symm
      have hplace : x = ⟨before, []⟩ := by
        cases x
        exact congrArg₂ Place.mk hx.before hrest
      rw [hplace]
      exact h
    · exact fun h => h [] ⟨before, []⟩ (.refl _)
  | cons c cs ih =>
    rw [anywhere, Bool.or_eq_false_iff, ih]
    constructor
    · rintro ⟨hhere, hlater⟩ w x hx
      cases w with
      | nil =>
        have hplace : x = ⟨before, c :: cs⟩ := by
          cases x
          exact congrArg₂ Place.mk hx.before hx.rest.symm
        rw [hplace]
        exact hhere
      | cons d w =>
        obtain ⟨rfl, hrest⟩ := List.cons_eq_cons.mp hx.rest
        exact hlater w x ⟨hrest, hx.before⟩
    · refine fun h => ⟨h [] ⟨before, c :: cs⟩ (.refl _), fun w x hx => ?_⟩
      exact h (c :: w) x ⟨congrArg (c :: ·) hx.rest, hx.before⟩

/-- A pattern is matched where it has an end. -/
theorem matched_eq_false_iff {r : Pattern} {x : Place} : r.matched x = false ↔ r.ends x = [] := by
  simp [matched]

/-- It is matched where it has one. -/
theorem matched_iff {r : Pattern} {x : Place} : r.matched x = true ↔ r.ends x ≠ [] := by
  rw [← Bool.not_eq_false, Ne, matched_eq_false_iff]

/-- A pattern is not found where it is matched at no place. -/
theorem search_eq_false_iff {r : Pattern} {before : Option Char} {rest : List Char} :
    r.search before rest = false ↔ ∀ w x, Place.Reads ⟨before, rest⟩ w x → r.ends x = [] := by
  simp only [search, anywhere_eq_false_iff, matched_eq_false_iff]

/-- A pattern is found behind a character it is not matched before, where it is found later. -/
theorem search_cons {r : Pattern} {before : Option Char} {c : Char} {cs : List Char}
    (h : r.ends ⟨before, c :: cs⟩ = []) :
    r.search before (c :: cs) = r.search (some c) cs := by
  rw [search, anywhere, matched_eq_false_iff.mpr h]
  rfl

/-- What is found later is found. -/
theorem search_of_reads {r : Pattern} {x y : Place} {w : List Char} (h : x.Reads w y)
    (hfree : r.search x.before x.rest = false) : r.search y.before y.rest = false := by
  rw [search_eq_false_iff] at hfree ⊢
  exact fun v z hz => hfree (w ++ v) z (h.trans hz)

/-! ## Lines -/

section

variable {r : Pattern} {stop : Char}

/-- A character is to the assertions of the pattern what the ends of a text are. -/
def Parts (r : Pattern) (stop : Char) : Prop :=
  r.Asserts fun holds => ∀ c, holds c (some stop) = holds c none ∧
    holds (some stop) c = holds none c

/-- Before a character that a pattern rejects, the text ends. -/
theorem ends_append_stop (hstop : r.Rejects stop) (hparts : r.Parts stop) (before : Option Char)
    (v w : List Char) : r.ends ⟨before, v ++ stop :: w⟩ = [] ↔ r.ends ⟨before, v⟩ = [] := by
  have hnext (x : Place) (g : List Char) (hx : x.rest = g ++ stop :: w) (hx' : g ≠ []) :
      x.next = g.head? := by
    cases g with
    | nil => exact absurd rfl hx'
    | cons c g =>
      rw [Place.next, hx]
      rfl
  have hsame (holds : Assertion)
      (hholds : ∀ c, holds c (some stop) = holds c none ∧ holds (some stop) c = holds none c)
      (x x' : Place) (hx : x.before = x'.before ∧ x.rest = x'.rest ++ stop :: w) :
      holds x.before x.next = holds x'.before x'.next := by
    rw [hx.1]
    cases hrest : x'.rest with
    | nil =>
      have hx₂ := hx.2
      rw [hrest] at hx₂
      rw [Place.next, Place.next, hx₂, hrest]
      exact (hholds _).1
    | cons c g =>
      rw [hnext x x'.rest hx.2 (by simp [hrest])]
      rfl
  constructor
  · exact fun h => ends_eq_nil_of_simulated
      (R := fun x' x => x.before = x'.before ∧ x.rest = x'.rest ++ stop :: w)
      (fun x' x hx c cs hrest _ => ⟨cs ++ stop :: w, by rw [hx.2, hrest]; rfl, rfl, rfl⟩)
      (hparts.mono fun holds hholds x' x hx => by
        rw [hsame holds hholds x x' hx]
        exact id)
      ⟨before, v⟩ ⟨before, v ++ stop :: w⟩ ⟨rfl, rfl⟩ h
  · intro h
    have hread (x x' : Place) (hx : x.before = x'.before ∧ x.rest = x'.rest ++ stop :: w) (c : Char)
        (cs : List Char) (hrest : x.rest = c :: cs) (hc : ¬r.Rejects c) :
        ∃ cs', x'.rest = c :: cs' ∧ some c = some c ∧ cs = cs' ++ stop :: w := by
      have hx₂ := hx.2
      cases hrest' : x'.rest with
      | nil =>
        rw [hrest', hrest] at hx₂
        obtain ⟨rfl, -⟩ := List.cons_eq_cons.mp hx₂
        exact absurd hstop hc
      | cons d g =>
        rw [hrest', hrest] at hx₂
        obtain ⟨rfl, rfl⟩ := List.cons_eq_cons.mp hx₂
        exact ⟨g, rfl, rfl, rfl⟩
    exact ends_eq_nil_of_simulated hread
      (hparts.mono fun holds hholds x x' hx => by
        rw [hsame holds hholds x x' hx]
        exact id)
      ⟨before, v ++ stop :: w⟩ ⟨before, v⟩ ⟨rfl, rfl⟩ h

/-- Behind it, it begins. -/
theorem ends_stop (hparts : r.Parts stop) (rest : List Char) :
    r.ends ⟨some stop, rest⟩ = [] ↔ r.ends ⟨none, rest⟩ = [] := by
  have hsame (b b' : Option Char) (hb : b = some stop ∧ b' = none ∨ b = none ∧ b' = some stop)
      (h : r.ends ⟨b', rest⟩ = []) : r.ends ⟨b, rest⟩ = [] :=
    ends_eq_nil_of_simulated
      (R := fun x x' => (x.before = x'.before ∨ x.before = some stop ∧ x'.before = none ∨
        x.before = none ∧ x'.before = some stop) ∧ x.rest = x'.rest)
      (fun x x' hx c cs hrest _ => ⟨cs, hx.2.symm.trans hrest, .inl rfl, rfl⟩)
      (hparts.mono fun holds hholds x x' hx => by
        rw [Place.next, Place.next, hx.2]
        rcases hx.1 with h | ⟨h, h'⟩ | ⟨h, h'⟩
        · rw [h]
          exact id
        · rw [h, h', (hholds _).2]
          exact id
        · rw [h, h', (hholds _).2]
          exact id)
      ⟨b, rest⟩ ⟨b', rest⟩ ⟨.inr hb, rfl⟩ h
  exact ⟨hsame none (some stop) (.inr ⟨rfl, rfl⟩), hsame (some stop) none (.inl ⟨rfl, rfl⟩)⟩

/-- It is found behind the character where it is found at the start of a text. -/
theorem search_stop (hparts : r.Parts stop) (rest : List Char) :
    r.search (some stop) rest = r.search none rest := by
  have hmatched : r.matched ⟨some stop, rest⟩ = r.matched ⟨none, rest⟩ := by
    rw [Bool.eq_iff_iff, matched_iff, matched_iff, not_iff_not]
    exact ends_stop hparts rest
  cases rest with
  | nil => exact hmatched
  | cons c cs => rw [search, search, anywhere, anywhere, hmatched]

/-- A pattern is found in two texts that the character parts if it is found in one of them. -/
theorem search_append_stop {p : Char → Bool} (hneeds : r.Needs p) (hstop : r.Rejects stop)
    (hparts : r.Parts stop) (before : Option Char) (v w : List Char) :
    r.search before (v ++ stop :: w) = (r.search before v || r.search none w) := by
  induction v generalizing before with
  | nil =>
    have hblocked := ends_blocked hneeds hstop before (g := []) (by simp) w
    have hnil : r.search before [] = false :=
      matched_eq_false_iff.mpr ((ends_append_stop hstop hparts before [] w).mp hblocked)
    rw [hnil, Bool.false_or, ← search_stop hparts]
    exact search_cons hblocked
  | cons c v ih =>
    have hmatched : r.matched ⟨before, c :: v ++ stop :: w⟩ = r.matched ⟨before, c :: v⟩ := by
      rw [Bool.eq_iff_iff, matched_iff, matched_iff, not_iff_not]
      exact ends_append_stop hstop hparts before (c :: v) w
    have hlater := ih (some c)
    rw [search, search] at hlater ⊢
    rw [List.cons_append] at hmatched ⊢
    rw [anywhere, anywhere, hmatched, hlater, search, Bool.or_assoc]

end

/-- And in any number of them. -/
theorem search_intercalate {r : Pattern} {stop : Char} {p : Char → Bool} (hneeds : r.Needs p)
    (hstop : r.Rejects stop) (hparts : r.Parts stop) (texts : List (List Char)) :
    r.search none ([stop].intercalate texts) = texts.any fun text => r.search none text := by
  induction texts with
  | nil =>
    have hblocked := ends_blocked hneeds hstop none (g := []) (by simp) []
    exact matched_eq_false_iff.mpr ((ends_append_stop hstop hparts none [] []).mp hblocked)
  | cons text texts ih =>
    cases texts with
    | nil => simp
    | cons text' texts =>
      rw [List.intercalate_cons_cons, List.append_assoc, List.singleton_append,
        search_append_stop hneeds hstop hparts, ih]
      rfl

end Pattern
