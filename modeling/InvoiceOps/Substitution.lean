import InvoiceOps.Patterns

/-!
# Substitution

`Pattern.sub` puts a token in the place of every match of a pattern, from left to right, and goes on
behind it. What is left differs from the text before in what an assertion sees : a token begins
where a match began, and ends where it ended (`Sight`).

A pattern whose assertions do not hold for that reason alone, and whose matches have no part in a
token, is found afterwards only where it was found before, and what was replaced is found no more
(`search_sub`). A pattern that looks behind at what a token ends with is found again where two of
its matches touched (`search_led_sub`).
-/

namespace Pattern

/-! ## Substitution -/

/-- `pattern.sub`, from a place on : the text with the token in the place of every match. -/
def subFrom (r : Pattern) (token : List Char) : ℕ → Place → List Char
  | 0, x => x.rest
  | fuel + 1, x =>
    match r.ends x with
    | y :: _ => token ++ subFrom r token fuel y
    | [] =>
      match x.rest with
      | [] => []
      | c :: cs => c :: subFrom r token fuel ⟨some c, cs⟩

/-- `pattern.sub(token, text)`, for a pattern that is never matched by the empty text. -/
def sub (r : Pattern) (token text : List Char) : List Char :=
  subFrom r token (text.length + 1) ⟨none, text⟩

/-- Where a pattern is not found, there is nothing to replace. -/
theorem subFrom_eq_self {r : Pattern} (token : List Char) (fuel : ℕ) {x : Place}
    (h : r.search x.before x.rest = false) : subFrom r token fuel x = x.rest := by
  induction fuel generalizing x with
  | zero => rfl
  | succ fuel ih =>
    have hends : r.ends x = [] := search_eq_false_iff.mp h [] x (.refl x)
    rw [subFrom, hends]
    cases hrest : x.rest with
    | nil => rfl
    | cons c cs =>
      have hlater : r.search (some c) cs = false :=
        search_of_reads (x := x) (y := ⟨some c, cs⟩) (w := [c]) ⟨hrest, rfl⟩ h
      exact congrArg (c :: ·) (ih hlater)

/-! ## Replacing -/

/-- What stands in the place of the text behind a place. -/
inductive Replaced (r : Pattern) (token : List Char) : Place → List Char → Prop
  | done {before : Option Char} : r.ends ⟨before, []⟩ = [] → Replaced r token ⟨before, []⟩ []
  | kept {before : Option Char} {c : Char} {cs out : List Char} : r.ends ⟨before, c :: cs⟩ = [] →
    Replaced r token ⟨some c, cs⟩ out → Replaced r token ⟨before, c :: cs⟩ (c :: out)
  | found {x y : Place} {ys : List Place} {out : List Char} : r.ends x = y :: ys →
    Replaced r token y out → Replaced r token x (token ++ out)

/-- That is what `sub` computes. -/
theorem replaced_subFrom {r : Pattern} {p : Char → Bool} (hneeds : r.Needs p)
    (token : List Char) {fuel : ℕ} {x : Place} (h : x.rest.length < fuel) :
    Replaced r token x (subFrom r token fuel x) := by
  induction fuel generalizing x with
  | zero => cases h
  | succ fuel ih =>
    rw [subFrom]
    cases hends : r.ends x with
    | cons y ys =>
      have hlt := length_ends hneeds (y := y) (by rw [hends]; exact List.mem_cons_self)
      exact .found hends (ih (by omega))
    | nil =>
      obtain ⟨before, rest⟩ := x
      cases rest with
      | nil => exact .done hends
      | cons c cs => exact .kept hends (ih (by simpa using h))

/-- From the start of a text. -/
theorem replaced_sub {r : Pattern} {p : Char → Bool} (hneeds : r.Needs p)
    (token text : List Char) : Replaced r token ⟨none, text⟩ (r.sub token text) :=
  replaced_subFrom hneeds token (Nat.lt_succ_self _)

/-- What an assertion sees where matches of `r` were replaced by a token : the end of a token for
the end of a match, and its beginning for that of one. -/
structure Sight (r : Pattern) (opening closing : Char) (x : Place) (before next : Option Char) :
    Prop where
  before : before = x.before ∨ before = some closing ∧ ∃ y, x ∈ r.ends y
  next : next = x.next ∧ r.ends x = [] ∨ next = some opening ∧ r.ends x ≠ []

/-- No assertion of `s` holds because of a token. -/
def Blind (s r : Pattern) (opening closing : Char) : Prop :=
  s.Asserts fun holds => ∀ x before next, Sight r opening closing x before next →
    holds before next → holds x.before x.next

/-- No match of `s` has a part in a token. -/
structure Outside (s : Pattern) (opening : Char) (inner : List Char) (closing : Char) : Prop where
  rejects_opening : s.Rejects opening
  rejects_closing : s.Rejects closing
  needs : ∃ p, s.Needs p ∧ p opening = false ∧ ∀ c ∈ inner, p c = false

section

variable {r s : Pattern} {opening closing : Char} {inner : List Char}

/-- Behind a token, what is found is found behind its end. -/
theorem search_token (h : s.Outside opening inner closing) (before : Option Char)
    (out : List Char) : s.search before (opening :: (inner ++ [closing]) ++ out) =
      s.search (some closing) out := by
  obtain ⟨p, hneeds, hopening, hinner⟩ := h.needs
  have hsearch (g : List Char) (hg : ∀ c ∈ g, p c = false) (before : Option Char) :
      s.search before (g ++ closing :: out) = s.search (some closing) out := by
    induction g generalizing before with
    | nil =>
      have hblocked := ends_blocked hneeds h.rejects_closing before hg out
      exact search_cons hblocked
    | cons c g ih =>
      have hblocked := ends_blocked hneeds h.rejects_closing before hg out
      rw [List.cons_append] at hblocked ⊢
      rw [search_cons hblocked, ih fun d hd => hg d (List.mem_cons_of_mem _ hd)]
  simpa using hsearch (opening :: inner) (by simpa using ⟨hopening, hinner⟩) before

/-- What comes first of what is left. -/
theorem Replaced.next {x : Place} {out : List Char}
    (h : Replaced r (opening :: (inner ++ [closing])) x out) :
    out.head? = x.next ∧ r.ends x = [] ∨ out.head? = some opening ∧ r.ends x ≠ [] := by
  cases h with
  | done hends => exact .inl ⟨rfl, hends⟩
  | kept hends _ => exact .inl ⟨rfl, hends⟩
  | found hends _ => exact .inr ⟨rfl, by rw [hends]; exact List.cons_ne_nil _ _⟩

/-- A match of `s` in what is left is one in the text before. -/
theorem ends_replaced (hopening : s.Rejects opening) (hblind : s.Blind r opening closing)
    {x : Place} {before : Option Char} {out : List Char}
    (h : Replaced r (opening :: (inner ++ [closing])) x out)
    (hbefore : before = x.before ∨ before = some closing ∧ ∃ y, x ∈ r.ends y)
    (hs : s.ends x = []) : s.ends ⟨before, out⟩ = [] := by
  have hread (x x' : Place) (hx : (x.before = x'.before ∨ x.before = some closing ∧
      ∃ y, x' ∈ r.ends y) ∧ Replaced r (opening :: (inner ++ [closing])) x' x.rest) (c : Char)
      (cs : List Char) (hrest : x.rest = c :: cs) (hc : ¬s.Rejects c) : ∃ cs', x'.rest = c :: cs' ∧
        (some c = some c ∨ some c = some closing ∧ ∃ y, (⟨some c, cs'⟩ : Place) ∈ r.ends y) ∧
          Replaced r (opening :: (inner ++ [closing])) ⟨some c, cs'⟩ cs := by
    rw [hrest] at hx
    cases hx.2 with
    | kept _ hout => exact ⟨_, rfl, .inl rfl, hout⟩
    | found _ _ => exact absurd hopening hc
  exact ends_eq_nil_of_simulated hread
    (hblind.mono fun holds hholds x x' ⟨hb, hx⟩ => hholds x' _ _ ⟨hb, hx.next⟩)
    ⟨before, out⟩ x ⟨hbefore, h⟩ hs

/-- What is not found before is not found in what is left, nor is the pattern that was replaced. -/
theorem search_replaced (houtside : s.Outside opening inner closing)
    (hblind : s.Blind r opening closing) {x : Place} {out : List Char}
    (h : Replaced r (opening :: (inner ++ [closing])) x out)
    (hfree : s = r ∨ s.search x.before x.rest = false) {before : Option Char}
    (hbefore : before = x.before ∨ before = some closing ∧ ∃ y, x ∈ r.ends y) :
    s.search before out = false := by
  induction h generalizing before with
  | @done b hends =>
    have hs : s.ends ⟨b, []⟩ = [] := by
      rcases hfree with rfl | hfree
      · exact hends
      · exact search_eq_false_iff.mp hfree [] _ (.refl _)
    have hdone : Replaced r (opening :: (inner ++ [closing])) ⟨b, []⟩ [] := .done hends
    exact matched_eq_false_iff.mpr
      (ends_replaced houtside.rejects_opening hblind hdone hbefore hs)
  | @kept b c cs out hends hout ih =>
    have hs : s.ends ⟨b, c :: cs⟩ = [] := by
      rcases hfree with rfl | hfree
      · exact hends
      · exact search_eq_false_iff.mp hfree [] _ (.refl _)
    have hlater := hfree.imp_right (search_of_reads (x := ⟨b, c :: cs⟩) (y := ⟨some c, cs⟩)
      (w := [c]) ⟨rfl, rfl⟩)
    rw [search_cons (ends_replaced houtside.rejects_opening hblind (.kept hends hout) hbefore hs)]
    exact ih hlater (.inl rfl)
  | @found x y ys out hends hout ih =>
    have hmem : y ∈ r.ends x := by
      rw [hends]
      exact List.mem_cons_self
    obtain ⟨w, hw⟩ := ends_takes hmem
    rw [search_token houtside]
    exact ih (hfree.imp_right (search_of_reads hw.toReads)) (.inr ⟨rfl, x, hmem⟩)

/-- Nor in the text in which its matches were replaced. -/
theorem search_sub {p : Char → Bool} (hneeds : r.Needs p)
    (houtside : s.Outside opening inner closing) (hblind : s.Blind r opening closing)
    {text : List Char} (hfree : s = r ∨ s.search none text = false) :
    s.search none (r.sub (opening :: (inner ++ [closing])) text) = false :=
  search_replaced houtside hblind (replaced_sub hneeds _ text) hfree (.inl rfl)

end

/-- A text in which nothing is found is left as it is. -/
theorem sub_eq_self {r : Pattern} (token : List Char) {text : List Char}
    (h : r.search none text = false) : r.sub token text = text :=
  subFrom_eq_self token _ h

/-! ## A pattern that looks behind -/

/-- A match of one pattern ends where another is matched. -/
def followed (r s : Pattern) (x : Place) : Bool :=
  match r.ends x with
  | [] => false
  | y :: _ => s.matched y

/-- A character, and a pattern behind it. -/
def headed (lead : Char) (body : Pattern) : Pattern :=
  seq (one fun c => c = lead) body

/-- The same where `clear` lets pass the character before. -/
def led (clear : Option Char → Bool) (lead : Char) (body : Pattern) : Pattern :=
  seq (look fun before _ => clear before) (headed lead body)

section

variable {clear : Option Char → Bool} {lead : Char} {body : Pattern} {x y : Place}

/-- It is matched where the rest is, if the character before lets it. -/
theorem ends_led :
    (led clear lead body).ends x = if clear x.before then (headed lead body).ends x else [] := by
  rw [led, ends, ends]
  split_ifs
  · exact List.flatMap_singleton ..
  · rfl

/-- A match takes the character first. -/
theorem ends_headed (h : y ∈ (headed lead body).ends x) :
    ∃ cs, x.rest = lead :: cs ∧ y ∈ body.ends ⟨some lead, cs⟩ := by
  obtain ⟨z, hz, hy⟩ := List.mem_flatMap.mp h
  unfold ends at hz
  split at hz
  · cases hz
  · rename_i c cs hrest
    split_ifs at hz with hc
    · obtain rfl := List.mem_singleton.mp hz
      obtain rfl : c = lead := by simpa using hc
      exact ⟨cs, hrest, hy⟩
    · cases hz

/-- So it is matched before no other. -/
theorem ends_led_of_next (h : x.next ≠ some lead) : (led clear lead body).ends x = [] := by
  rw [ends_led]
  split_ifs
  · refine List.eq_nil_iff_forall_not_mem.mpr fun y hy => ?_
    obtain ⟨cs, hrest, -⟩ := ends_headed hy
    exact h (by rw [Place.next, hrest]; rfl)
  · rfl

variable {opening closing : Char} {inner out : List Char}

/-- Behind a token nothing is found, if no match that was replaced ended where another, but for
what it looks behind at, began. -/
theorem search_led_of_not_followed
    (houtside : (led clear lead body).Outside opening inner closing)
    (hblind : (headed lead body).Blind (led clear lead body) opening closing)
    (h : Replaced (led clear lead body) (opening :: (inner ++ [closing])) x out)
    (hfree : anywhere ((led clear lead body).followed (headed lead body)) x.before x.rest = false)
    {before : Option Char}
    (hbefore : before = x.before ∨ before = some closing ∧
      (∃ y, x ∈ (led clear lead body).ends y) ∧ (headed lead body).ends x = []) :
    (led clear lead body).search before out = false := by
  have hhere {x : Place} {out : List Char}
      (hx : Replaced (led clear lead body) (opening :: (inner ++ [closing])) x out)
      (hends : (led clear lead body).ends x = []) {before : Option Char}
      (hbefore : before = x.before ∨ before = some closing ∧
        (∃ y, x ∈ (led clear lead body).ends y) ∧ (headed lead body).ends x = []) :
      (led clear lead body).ends ⟨before, out⟩ = [] := by
    rw [ends_led] at hends ⊢
    split_ifs with hclear
    · refine ends_replaced houtside.rejects_opening.2 hblind hx
        (hbefore.imp_right fun h => ⟨h.1, h.2.1⟩) ?_
      rcases hbefore with rfl | ⟨-, -, hheaded⟩
      · rwa [if_pos hclear] at hends
      · exact hheaded
    · rfl
  induction h generalizing before with
  | @done b hends =>
    have hdone : Replaced (led clear lead body) (opening :: (inner ++ [closing])) ⟨b, []⟩ [] :=
      .done hends
    exact matched_eq_false_iff.mpr (hhere hdone hends hbefore)
  | @kept b c cs out hends hout ih =>
    rw [search_cons (hhere (.kept hends hout) hends hbefore)]
    rw [anywhere, Bool.or_eq_false_iff] at hfree
    exact ih hfree.2 (.inl rfl)
  | @found x y ys out hends hout ih =>
    have hmem : y ∈ (led clear lead body).ends x := by
      rw [hends]
      exact List.mem_cons_self
    obtain ⟨w, hw⟩ := ends_takes hmem
    rw [search_token houtside]
    rw [anywhere_eq_false_iff] at hfree
    have hy := hfree [] x (.refl x)
    rw [followed, hends] at hy
    refine ih (anywhere_eq_false_iff.mpr fun v z hz => hfree (w ++ v) z (hw.toReads.trans hz))
      (.inr ⟨rfl, ⟨x, hmem⟩, matched_eq_false_iff.mp hy⟩)

/-- Where a match ends, another that begins there is left as it is. -/
theorem ends_headed_replaced (hbody : body.Rejects lead)
    (hseen : body.Asserts fun holds => ∀ before, holds before (some lead) →
      holds before (some opening))
    (h : Replaced (led clear lead body) (opening :: (inner ++ [closing])) x out)
    (hclear : clear x.before = false) (hx : (headed lead body).ends x ≠ [])
    (before : Option Char) : (headed lead body).ends ⟨before, out⟩ ≠ [] := by
  obtain ⟨z, hheaded⟩ := List.exists_mem_of_ne_nil _ hx
  obtain ⟨cs, hrest, hz⟩ := ends_headed hheaded
  obtain ⟨b, rest⟩ := x
  dsimp only at hrest
  subst hrest
  have hends : (led clear lead body).ends ⟨b, lead :: cs⟩ = [] := by
    rw [ends_led, hclear]
    rfl
  cases h with
  | found hfound _ =>
    rw [hends] at hfound
    cases hfound
  | @kept _ _ _ out _ hout =>
    have hread (x x' : Place) (hx : x.before = x'.before ∧
        Replaced (led clear lead body) (opening :: (inner ++ [closing])) x x'.rest) (c : Char)
        (cs : List Char) (hrest : x.rest = c :: cs) (hc : ¬body.Rejects c) :
        ∃ cs', x'.rest = c :: cs' ∧ some c = some c ∧
          Replaced (led clear lead body) (opening :: (inner ++ [closing])) ⟨some c, cs⟩ cs' := by
      have hnone : (led clear lead body).ends x = [] := by
        refine ends_led_of_next fun hnext => hc ?_
        rw [Place.next, hrest] at hnext
        exact Option.some.inj hnext ▸ hbody
      obtain ⟨x, rest⟩ := x
      obtain ⟨hb, hx⟩ := hx
      dsimp only at hrest
      subst hrest
      generalize x'.rest = out at hx
      cases hx with
      | kept _ hout => exact ⟨_, rfl, rfl, hout⟩
      | found hfound _ =>
        rw [hnone] at hfound
        cases hfound
    have hlook := hseen.mono (Q := fun holds => ∀ x x' : Place, x.before = x'.before ∧
        Replaced (led clear lead body) (opening :: (inner ++ [closing])) x x'.rest →
        holds x.before x.next → holds x'.before x'.next) fun holds hholds x x' hx hxx => by
      rw [← hx.1]
      rcases hx.2.next with ⟨hnext, -⟩ | ⟨hnext, hne⟩
      · rw [Place.next, hnext]
        exact hxx
      · rw [Place.next, hnext]
        have hlead : x.next = some lead := by
          by_contra hnot
          exact hne (ends_led_of_next hnot)
        exact hholds _ (hlead ▸ hxx)
    obtain ⟨z', hz', -⟩ := @ends_simulated _ body hread hlook ⟨some lead, cs⟩ ⟨some lead, out⟩ z
      ⟨rfl, hout⟩ hz
    refine List.ne_nil_of_mem (a := z') (List.mem_flatMap.mpr ⟨⟨some lead, out⟩, ?_, hz'⟩)
    simp [ends]

/-- Where such a match was replaced, the other is found behind its token. -/
theorem search_led_of_followed (hbody : body.Rejects lead)
    (houtside : (led clear lead body).Outside opening inner closing)
    (hseen : body.Asserts fun holds => ∀ before, holds before (some lead) →
      holds before (some opening))
    (hafter : clear (some closing) = true)
    (hend : ∀ x, ∀ y ∈ (led clear lead body).ends x, clear y.before = false)
    (h : Replaced (led clear lead body) (opening :: (inner ++ [closing])) x out)
    {w : List Char} (hy : x.Reads w y)
    (hfollowed : (led clear lead body).followed (headed lead body) y = true)
    (before : Option Char) : (led clear lead body).search before out = true := by
  have hne : (led clear lead body).ends y ≠ [] := by
    intro hnil
    rw [followed, hnil] at hfollowed
    cases hfollowed
  have hnext : y.next = some lead := by
    by_contra hnot
    exact hne (ends_led_of_next hnot)
  induction h generalizing w before with
  | @done b hends =>
    obtain ⟨rfl, hrest⟩ := List.append_eq_nil_iff.mp hy.rest.symm
    rw [Place.next, hrest] at hnext
    cases hnext
  | @kept b c cs out hends hout ih =>
    cases w with
    | nil =>
      refine absurd ?_ hne
      have hplace : y = ⟨b, c :: cs⟩ := by
        cases y
        exact congrArg₂ Place.mk hy.before hy.rest.symm
      rw [hplace]
      exact hends
    | cons d w =>
      obtain ⟨rfl, hrest⟩ := List.cons_eq_cons.mp hy.rest
      rw [search, anywhere, Bool.or_eq_true]
      exact .inr (ih ⟨hrest, hy.before⟩ (some c))
  | @found x z zs out hends hout ih =>
    have hmem : z ∈ (led clear lead body).ends x := by
      rw [hends]
      exact List.mem_cons_self
    have hheaded := hmem
    rw [ends_led] at hheaded
    split_ifs at hheaded with hclear
    · obtain ⟨cs, hrest, hz⟩ := ends_headed hheaded
      obtain ⟨v, hv⟩ := ends_takes hz
      rw [search_token houtside]
      have hsame : (lead :: v) ++ z.rest = w ++ y.rest := by
        rw [← hy.rest, hrest, List.cons_append, ← hv.rest]
      rcases List.append_eq_append_iff.mp hsame with ⟨u, hu, hzrest⟩ | ⟨u, hu, hyrest⟩
      · refine ih ⟨hzrest, ?_⟩ _
        rw [hy.before, hu, Place.lastOf_append, hv.before]
        rfl
      · cases w with
        | nil =>
          have hplace : y = x := by
            cases y
            exact congrArg₂ Place.mk hy.before hy.rest.symm
          rw [hplace, followed, hends] at hfollowed
          have hfound := ends_headed_replaced hbody hseen hout (hend x z hmem)
            (matched_iff.mp hfollowed) (some closing)
          rw [← Bool.not_eq_false, search_eq_false_iff]
          intro hnone
          have hhere := hnone [] ⟨some closing, out⟩ (.refl _)
          rw [ends_led, if_pos hafter] at hhere
          exact hfound hhere
        | cons d w =>
          obtain ⟨rfl, hvw⟩ := List.cons_eq_cons.mp hu
          cases u with
          | nil =>
            obtain rfl : v = w := hvw.trans (List.append_nil w)
            refine ih (w := []) ⟨hyrest.symm, ?_⟩ _
            rw [hy.before, hv.before]
            rfl
          | cons c u =>
            rw [Place.next, hyrest] at hnext
            obtain rfl : c = lead := Option.some.inj hnext
            exact absurd (hvw ▸ List.mem_append_right _ List.mem_cons_self) (hv.rejects c hbody)
    · cases hheaded

/-- So what is left has a match just where two touched. -/
theorem search_led_sub {p : Char → Bool} (hneeds : (led clear lead body).Needs p)
    (hbody : body.Rejects lead) (houtside : (led clear lead body).Outside opening inner closing)
    (hblind : (headed lead body).Blind (led clear lead body) opening closing)
    (hseen : body.Asserts fun holds => ∀ before, holds before (some lead) →
      holds before (some opening))
    (hafter : clear (some closing) = true)
    (hend : ∀ x, ∀ y ∈ (led clear lead body).ends x, clear y.before = false) (text : List Char) :
    (led clear lead body).search none
        ((led clear lead body).sub (opening :: (inner ++ [closing])) text) =
      anywhere ((led clear lead body).followed (headed lead body)) none text := by
  have hreplaced := replaced_sub hneeds (opening :: (inner ++ [closing])) text
  cases hfollowed : anywhere ((led clear lead body).followed (headed lead body)) none text with
  | false => exact search_led_of_not_followed houtside hblind hreplaced hfollowed (.inl rfl)
  | true =>
    rw [← Bool.not_eq_false, anywhere_eq_false_iff] at hfollowed
    push Not at hfollowed
    obtain ⟨w, y, hy, hfollowed⟩ := hfollowed
    exact search_led_of_followed hbody houtside hseen hafter hend hreplaced hy
      (by simpa using hfollowed) none

end

end Pattern
