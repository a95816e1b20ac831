import InvoiceOps.Provenance
import InvoiceOps.Triage

/-!
# The evidence of a review

The facts that are gathered about a run of the checks are always accepted as evidence, whichever of
the results there are, their references being distinct (`triage_evidence_constructible`). What the
evidence leaves out are the facts after the first 150, and the status of the policy stands after all
the findings of the taxonomy. So a blocked invoice gets no draft that approves it just when there
are few enough of them.
-/

open Decimal (Grid)

namespace InvoiceOps

/-! ## Short numbers -/

/-- Every difference and tolerance of a match has a short text. -/
def MatchResultData.Compact (result : MatchResultData) : Prop :=
  ∀ c ∈ result.numericChecks,
    (∀ d ∈ c.val.difference, Match.Compact d) ∧ ∀ d ∈ c.val.tolerance, Match.Compact d

namespace Match

/-- With such tolerances, all the numbers of a match have short texts. -/
theorem compact_of_plain (host : Host) {request : MatchRequest} {config : MatchConfig}
    (hplain : config.Plain) {result : MatchResult}
    (h : matchInvoice host request config = .ok result) : result.val.Compact := by
  cases hrequest : request.snapshot with
  | none =>
    obtain ⟨hvalid, hresult⟩ := matchInvoice_none host config hrequest
    rw [hresult] at h
    rw [← Except.ok.inj h]
    exact fun _ => nofun
  | some snapshot =>
    obtain ⟨numeric, hvalid, -, hcomputed, hresult⟩ := matchInvoice_some host config hrequest
    rw [hresult] at h
    rw [← Except.ok.inj h]
    refine forall_of_forall₂ hcomputed fun c hc check hcheck => ⟨hcheck.difference, ?_⟩
    obtain ⟨habsolute, hrelative⟩ := comparisons_tolerances c hc
    refine hcheck.tolerance ?_ (hplain.absolute _ habsolute)
    rcases hrelative with hrelative | hrelative
    · exact hplain.relative _ hrelative
    · rw [hrelative, noTolerance_val, Decimal.value_zero]
      exact Grid.zero

end Match

namespace Triage

/-! ## References -/

/-- The characters of the parts of a reference. -/
def isWordChar (c : Char) : Bool :=
  ('A' ≤ c && c ≤ 'Z') || ('a' ≤ c && c ≤ 'z') || ('0' ≤ c && c ≤ '9') || c = '_'

/-- A part of a reference. -/
structure IsWord (s : String) : Prop where
  nonempty : s.toList ≠ []
  length : s.length ≤ 30
  chars : ∀ c ∈ s.toList, isWordChar c

instance : DecidablePred IsWord := fun s =>
  decidable_of_iff (s.toList ≠ [] ∧ s.length ≤ 30 ∧ s.toList.all isWordChar)
    ⟨fun ⟨h₁, h₂, h₃⟩ => ⟨h₁, h₂, List.all_eq_true.mp h₃⟩,
      fun h => ⟨h.nonempty, h.length, List.all_eq_true.mpr h.chars⟩⟩

/-- The first part of a reference. -/
def isHead (s : String) : Prop :=
  IsWord s ∧ ∀ c ∈ s.toList, (('a' ≤ c && c ≤ 'z') || c = '_') = true

instance : DecidablePred isHead := fun s =>
  decidable_of_iff (IsWord s ∧ s.toList.all fun c => ('a' ≤ c && c ≤ 'z') || c = '_')
    (and_congr_right' List.all_eq_true)

/-- The parts of a reference. -/
inductive IsParts : List String → Prop where
  | two {head part : String} : isHead head → IsWord part → IsParts [head, part]
  | three {head part last : String} : isHead head → IsWord part → IsWord last →
    IsParts [head, part, last]

theorem colon_not_word {s : String} (h : IsWord s) : ':' ∉ s.toList :=
  fun hmem => absurd (h.chars _ hmem) (by decide)

theorem isWord_toString {n : ℕ} (h : n < 10 ^ 30) : IsWord (toString n) := by
  refine ⟨?_, ?_, fun c hc => ?_⟩
  · rw [Match.toList_toString]
    exact Nat.toDigits_ne_nil
  · rw [← String.length_toList, Match.toList_toString]
    exact (Nat.length_toDigits_le_iff (by norm_num) (by norm_num)).mpr h
  · obtain ⟨hlow, hhigh⟩ := digit_bounds (Match.isDigit_toString hc)
    simp [isWordChar, hlow, hhigh]

theorem IsParts.words {parts : List String} (h : IsParts parts) : ∀ s ∈ parts, IsWord s := by
  cases h with
  | two hhead hpart => simpa using ⟨hhead.1, hpart⟩
  | three hhead hpart hlast => simpa using ⟨hhead.1, hpart, hlast⟩

/-- A reference tells its parts. -/
theorem ref_injective {parts parts' : List String} (h : IsParts parts) (h' : IsParts parts')
    (heq : ref parts = ref parts') : parts = parts' := by
  have hsplit : ∀ {l : List String}, IsParts l →
      (ref l).toList.splitOn ':' = l.map String.toList := by
    intro l hl
    rw [ref, String.toList_intercalate]
    refine List.splitOn_intercalate ':' (fun cs hcs => ?_) ?_
    · obtain ⟨s, hs, rfl⟩ := List.mem_map.mp hcs
      exact colon_not_word (hl.words s hs)
    · cases hl <;> simp
  have hmap : parts.map String.toList = parts'.map String.toList := by
    rw [← hsplit h, ← hsplit h', heq]
  exact List.map_injective_iff.mpr (fun _ _ => String.toList_inj.mp) hmap

theorem wordChar_low {c : Char} (h : isWordChar c) :
    (('A' ≤ c && c ≤ 'Z') || ('a' ≤ c && c ≤ 'z') || ('0' ≤ c && c ≤ '9') ||
      c ∈ ['_', ':', '.', '-']) = true := by
  simp only [isWordChar, Bool.or_eq_true, decide_eq_true_eq, List.mem_cons] at h ⊢
  tauto

/-- What is put together of parts is a reference. -/
theorem isFactRef_ref {parts : List String} (h : IsParts parts) : isFactRef (ref parts) := by
  have hsplit : ∀ {head rest : List Char}, head ≠ [] → rest ≠ [] →
      (∀ c ∈ head, (('a' ≤ c && c ≤ 'z') || c = '_') = true) →
      (∀ c ∈ rest, isWordChar c ∨ c = ':') → (head ++ ':' :: rest).length ≤ 100 →
      isFactRef (String.ofList (head ++ ':' :: rest)) := by
    intro head rest hhead hrest hlow hany hlength
    have htake : (head ++ ':' :: rest).takeWhile (fun c => ('a' ≤ c && c ≤ 'z') || c = '_') =
        head := by
      rw [List.takeWhile_append_of_pos hlow, List.takeWhile_cons_of_neg (by decide),
        List.append_nil]
    have hdrop : (head ++ ':' :: rest).dropWhile (fun c => ('a' ≤ c && c ≤ 'z') || c = '_') =
        ':' :: rest := by
      rw [List.dropWhile_append_of_pos hlow, List.dropWhile_cons_of_neg (by decide)]
    unfold isFactRef
    dsimp only
    rw [String.length_ofList, String.toList_ofList, htake, hdrop]
    simp only [hlength, decide_true, Bool.true_and, Bool.and_eq_true, decide_eq_true_eq]
    refine ⟨hhead, hrest, List.all_eq_true.mpr fun c hc => ?_⟩
    rcases hany c hc with hc | rfl
    · exact wordChar_low hc
    · decide
  cases h with
  | @two head part hhead hpart =>
    have heq : ref [head, part] = String.ofList (head.toList ++ ':' :: part.toList) := by
      rw [← String.toList_inj, String.toList_ofList]
      simp [ref]
    rw [heq]
    refine hsplit hhead.1.nonempty hpart.nonempty hhead.2
      (fun c hc => .inl (hpart.chars c hc)) ?_
    have h₁ := hhead.1.length
    have h₂ := hpart.length
    simp only [List.length_append, List.length_cons, String.length_toList]
    omega
  | @three head part last hhead hpart hlast =>
    have heq : ref [head, part, last] =
        String.ofList (head.toList ++ ':' :: (part.toList ++ ':' :: last.toList)) := by
      rw [← String.toList_inj, String.toList_ofList]
      simp [ref]
    rw [heq]
    refine hsplit hhead.1.nonempty (by simp) hhead.2 (fun c hc => ?_) ?_
    · rcases List.mem_append.mp hc with hc | hc
      · exact .inl (hpart.chars c hc)
      · rcases List.mem_cons.mp hc with rfl | hc
        · exact .inr rfl
        · exact .inl (hlast.chars c hc)
    · have h₁ := hhead.1.length
      have h₂ := hpart.length
      have h₃ := hlast.length
      simp only [List.length_append, List.length_cons, String.length_toList]
      omega

/-! ## Groups of facts -/

/-- Facts that are accepted, with distinct references that start with one of some heads. -/
structure Group (heads : List String) (entries : List Entry) : Prop where
  parts : ∀ e ∈ entries, IsParts e.1
  detail : ∀ e ∈ entries, 1 ≤ e.2.length ∧ e.2.length ≤ 500
  nodup : (entries.map Prod.fst).Nodup
  head : ∀ e ∈ entries, ∃ h ∈ heads, e.1.head? = some h

theorem Group.nil {heads : List String} : Group heads [] :=
  ⟨by simp, by simp, by simp, by simp⟩

theorem Group.mono {heads heads' : List String} {entries : List Entry} (h : Group heads entries)
    (hsub : heads ⊆ heads') : Group heads' entries := by
  refine ⟨h.parts, h.detail, h.nodup, fun e he => ?_⟩
  obtain ⟨head, hmem, hhead⟩ := h.head e he
  exact ⟨head, hsub hmem, hhead⟩

theorem Group.append {heads : List String} {entries entries' : List Entry}
    (h : Group heads entries) (h' : Group heads entries')
    (hne : ∀ e ∈ entries, ∀ e' ∈ entries', e.1 ≠ e'.1) : Group heads (entries ++ entries') := by
  refine ⟨List.forall_mem_append.mpr ⟨h.parts, h'.parts⟩,
    List.forall_mem_append.mpr ⟨h.detail, h'.detail⟩, ?_,
    List.forall_mem_append.mpr ⟨h.head, h'.head⟩⟩
  rw [List.map_append, List.nodup_append]
  refine ⟨h.nodup, h'.nodup, fun a ha b hb => ?_⟩
  obtain ⟨e, he, rfl⟩ := List.mem_map.mp ha
  obtain ⟨e', he', rfl⟩ := List.mem_map.mp hb
  exact hne e he e' he'

/-- Groups with different heads. -/
theorem Group.append_of_disjoint {heads heads' : List String} {entries entries' : List Entry}
    (h : Group heads entries) (h' : Group heads' entries')
    (hdisjoint : ∀ head ∈ heads, head ∉ heads') :
    Group (heads ++ heads') (entries ++ entries') := by
  refine (h.mono (List.subset_append_left _ _)).append (h'.mono (List.subset_append_right _ _))
    fun e he e' he' heq => ?_
  obtain ⟨head, hmem, hhead⟩ := h.head e he
  obtain ⟨head', hmem', hhead'⟩ := h'.head e' he'
  rw [heq, hhead'] at hhead
  rw [← Option.some.inj hhead] at hmem
  exact hdisjoint _ hmem hmem'

/-- A status, and facts under other names. -/
theorem Group.status {head text : String} {entries : List Entry} (hhead : isHead head)
    (htext : 1 ≤ text.length ∧ text.length ≤ 500) (h : Group [head] entries)
    (hother : ∀ e ∈ entries, e.1 ≠ [head, "status"]) :
    Group [head] ((([head, "status"], text) : Entry) :: entries) := by
  refine ⟨List.forall_mem_cons.mpr ⟨.two hhead (by decide), h.parts⟩,
    List.forall_mem_cons.mpr ⟨htext, h.detail⟩, ?_,
    List.forall_mem_cons.mpr ⟨⟨head, List.mem_singleton_self head, rfl⟩, h.head⟩⟩
  rw [List.map_cons, List.nodup_cons]
  refine ⟨fun hmem => ?_, h.nodup⟩
  obtain ⟨e, he, heq⟩ := List.mem_map.mp hmem
  exact hother e he heq

/-- Facts that are numbered. -/
theorem Group.indexed {α : Type} (head name : String) {items : List (α × ℕ)} (detail : α → String)
    (hhead : isHead head) (hname : IsWord name) (hnodup : (items.map Prod.snd).Nodup)
    (hlt : ∀ c ∈ items, c.2 < 10 ^ 30)
    (hdetail : ∀ c ∈ items, 1 ≤ (detail c.1).length ∧ (detail c.1).length ≤ 500) :
    Group [head] (items.map fun c => ([head, name, toString c.2], detail c.1)) := by
  refine ⟨?_, ?_, ?_, ?_⟩
  · intro e he
    obtain ⟨c, hc, rfl⟩ := List.mem_map.mp he
    exact .three hhead hname (isWord_toString (hlt c hc))
  · intro e he
    obtain ⟨c, hc, rfl⟩ := List.mem_map.mp he
    exact hdetail c hc
  · have hmap : (items.map fun c => (([head, name, toString c.2], detail c.1) : Entry)).map
        Prod.fst = (items.map Prod.snd).map fun n => [head, name, toString n] := by
      rw [List.map_map, List.map_map]
      rfl
    rw [hmap]
    refine hnodup.map fun m n heq => ?_
    simp only [List.cons.injEq, and_true, true_and] at heq
    exact Match.toString_injective heq
  · intro e he
    obtain ⟨c, hc, rfl⟩ := List.mem_map.mp he
    exact ⟨head, List.mem_singleton_self head, rfl⟩

/-! ### The groups -/

theorem workflow_group (extractionEscalated : Bool) :
    Group ["workflow", "extraction"] (workflowEntries extractionEscalated) := by
  have hparts : IsParts ["workflow", "review"] := .two (by decide) (by decide)
  have hparts' : IsParts ["extraction", "status"] := .two (by decide) (by decide)
  refine ⟨?_, ?_, by simp [workflowEntries], ?_⟩
  · simpa [workflowEntries] using ⟨hparts, hparts'⟩
  · cases extractionEscalated <;> decide
  · simp [workflowEntries]

theorem numbered_mem {f : ExceptionFinding × ℕ} : ∀ {findings : List ExceptionFinding}
    {counts : ExceptionCode → ℕ}, f ∈ numbered counts findings →
      f.1 ∈ findings ∧ counts f.1.code < f.2 ∧ f.2 ≤ counts f.1.code + findings.length
  | [], _, h => absurd h List.not_mem_nil
  | g :: gs, counts, h => by
    unfold numbered at h
    dsimp only at h
    rcases List.mem_cons.mp h with rfl | h
    · dsimp only
      rw [Function.update_self, List.length_cons]
      exact ⟨List.mem_cons_self, by omega, by omega⟩
    · obtain ⟨hmem, hlow, hhigh⟩ := numbered_mem h
      have hle : counts f.1.code ≤ Function.update counts g.code (counts g.code + 1) f.1.code ∧
          Function.update counts g.code (counts g.code + 1) f.1.code ≤ counts f.1.code + 1 := by
        rw [Function.update_apply]
        split_ifs with hcode
        · rw [hcode]
          omega
        · omega
      rw [List.length_cons]
      exact ⟨List.mem_cons_of_mem _ hmem, by omega, by omega⟩

/-- No two findings of a code have the same number. -/
theorem numbered_nodup : ∀ (findings : List ExceptionFinding) (counts : ExceptionCode → ℕ),
    ((numbered counts findings).map fun f => (f.1.code, f.2)).Nodup
  | [], _ => List.nodup_nil
  | g :: gs, counts => by
    unfold numbered
    dsimp only
    rw [List.map_cons, List.nodup_cons]
    refine ⟨fun hmem => ?_, numbered_nodup gs _⟩
    obtain ⟨f, hf, heq⟩ := List.mem_map.mp hmem
    obtain ⟨hcode, hcount⟩ := Prod.mk.inj heq
    have hlow := (numbered_mem hf).2.1
    rw [hcount, hcode] at hlow
    exact lt_irrefl _ hlow

theorem isWord_code (code : ExceptionCode) : IsWord code.text := by
  cases code <;> decide

/-- The parts of a reference tell the code and the number. -/
theorem codeRef_injective {code code' : ExceptionCode} {m n : ℕ}
    (h : codeRef code m = codeRef code' n) : code = code' ∧ m = n := by
  have hcode : ∀ {c c' : ExceptionCode}, c.text = c'.text → c = c' := by
    intro c c' htext
    have hfound : ∀ x : ExceptionCode,
        ExceptionCode.order.find? (fun y => y.text = x.text) = some x := by
      intro x
      cases x <;> rfl
    have hc := hfound c
    rw [htext, hfound c'] at hc
    exact (Option.some.inj hc).symm
  unfold codeRef at h
  split_ifs at h with hm hn hn
  · simp only [List.cons.injEq, and_true, true_and] at h
    exact ⟨hcode h, hm.trans hn.symm⟩
  · simp at h
  · simp at h
  · simp only [List.cons.injEq, and_true, true_and] at h
    exact ⟨hcode h.1, Match.toString_injective h.2⟩

theorem findingDetail_length {evidence : EvidenceRefData} (h : Taxonomy.Short evidence) :
    1 ≤ (findingDetail evidence).length ∧ (findingDetail evidence).length ≤ 500 := by
  have hsource : evidence.source.text.length ≤ 14 := by
    cases evidence.source <;> decide
  have hfield := h.1.2
  have hdot : ".".length = 1 := by decide
  have hword : " line ".length = 6 := by decide
  unfold findingDetail
  cases hline : evidence.lineNumber with
  | none =>
    dsimp only
    simp only [String.length_append, String.length_empty]
    omega
  | some n =>
    have hle := (h.2 n hline).2
    have hdigits : (toString n).length ≤ 3 := by
      rw [← String.length_toList, Match.toList_toString]
      exact (Nat.length_toDigits_le_iff (by norm_num) (by norm_num)).mpr (by omega)
    dsimp only
    split_ifs
    · simp only [String.length_append, String.length_empty]
      omega
    · simp only [String.length_append]
      omega

theorem taxonomy_group {taxonomy : TaxonomyResultData} (hlength : taxonomy.findings.length ≤ 9001)
    (hshort : ∀ f ∈ taxonomy.findings, Taxonomy.Short f.evidence.val) :
    Group ["taxonomy"] (taxonomyEntries taxonomy) := by
  have hbounds : ∀ f ∈ numbered (fun _ => 0) taxonomy.findings, 0 < f.2 ∧ f.2 < 10 ^ 30 := by
    intro f hf
    obtain ⟨-, hlow, hhigh⟩ := numbered_mem hf
    exact ⟨hlow, hhigh.trans_lt (by omega)⟩
  refine .status (by decide) (by cases taxonomy.status <;> decide) ⟨?_, ?_, ?_, ?_⟩ ?_
  · intro e he
    obtain ⟨f, hf, rfl⟩ := List.mem_map.mp he
    dsimp only [codeRef]
    split_ifs
    · exact .two (by decide) (isWord_code _)
    · exact .three (by decide) (isWord_code _) (isWord_toString (hbounds f hf).2)
  · intro e he
    obtain ⟨f, hf, rfl⟩ := List.mem_map.mp he
    exact findingDetail_length (hshort _ (numbered_mem hf).1)
  · have hmap : ((numbered (fun _ => 0) taxonomy.findings).map fun f =>
        ((codeRef f.1.code f.2, findingDetail f.1.evidence.val) : Entry)).map Prod.fst =
          ((numbered (fun _ => 0) taxonomy.findings).map fun f => (f.1.code, f.2)).map fun c =>
            codeRef c.1 c.2 := by
      rw [List.map_map, List.map_map]
      rfl
    rw [hmap]
    refine (numbered_nodup taxonomy.findings _).map fun c c' heq => ?_
    obtain ⟨hcode, hcount⟩ := codeRef_injective heq
    exact Prod.ext hcode hcount
  · intro e he
    obtain ⟨f, -, rfl⟩ := List.mem_map.mp he
    refine ⟨"taxonomy", List.mem_singleton_self _, ?_⟩
    dsimp only [codeRef]
    split_ifs <;> rfl
  · intro e he heq
    obtain ⟨f, -, rfl⟩ := List.mem_map.mp he
    dsimp only [codeRef] at heq
    have hcode : f.1.code.text ≠ "status" := by
      cases f.1.code <;> decide
    split_ifs at heq
    · simp only [List.cons.injEq, and_true, true_and] at heq
      exact hcode heq
    · simp at heq

theorem policy_group {policy : PolicyResultData} (h : policy.Valid) :
    Group ["policy"] (policyEntries policy) := by
  have hword : ∀ r : PolicyReason, IsWord r.text ∧ r.text ≠ "status" := by
    intro r
    cases r <;> decide
  refine .status (by decide) (by cases policy.status <;> decide) ⟨?_, ?_, ?_, ?_⟩ ?_
  · intro e he
    obtain ⟨f, -, rfl⟩ := List.mem_map.mp he
    exact .two (by decide) (hword f.reason).1
  · intro e he
    obtain ⟨f, -, rfl⟩ := List.mem_map.mp he
    exact ⟨f.field.property.1, f.field.property.2.trans (by norm_num)⟩
  · have hmap : (policy.findings.map fun f => ((["policy", f.reason.text], f.field.val)
      : Entry)).map
        Prod.fst = (policy.findings.map PolicyFinding.reason).map fun r => ["policy", r.text] := by
      rw [List.map_map, List.map_map]
      rfl
    rw [hmap]
    refine h.unique.map fun r r' heq => ?_
    simp only [List.cons.injEq, and_true, true_and] at heq
    have hfound : ∀ x : PolicyReason,
        PolicyReason.order.find? (fun y => y.text = x.text) = some x := by
      intro x
      cases x <;> rfl
    have hr := hfound r
    rw [heq, hfound r'] at hr
    exact (Option.some.inj hr).symm
  · intro e he
    obtain ⟨f, -, rfl⟩ := List.mem_map.mp he
    exact ⟨"policy", List.mem_singleton_self _, rfl⟩
  · intro e he heq
    obtain ⟨f, -, rfl⟩ := List.mem_map.mp he
    simp only [List.cons.injEq, and_true, true_and] at heq
    exact (hword f.reason).2 heq

theorem decimalStr_length {d : Option Decimal} (h : ∀ x ∈ d, Match.Compact x) :
    (decimalStr d).length ≤ 78 := by
  cases d with
  | none => decide
  | some d =>
    obtain ⟨hcoeff, hexp, -⟩ := h d rfl
    have hlength := Decimal.length_scientific (m := 8) (by norm_num) (by norm_num) hcoeff
      (by omega)
    rw [decimalStr, Option.elim_some, String.length_ofList]
    exact hlength

theorem zipIdx_lt {α : Type} {items : List α} {c : α × ℕ} (h : c ∈ items.zipIdx) :
    c.2 < items.length := by
  have hmem := List.mem_map_of_mem (f := Prod.snd) h
  rw [List.zipIdx_map_snd, List.mem_range'_1] at hmem
  omega

theorem match_group {result : MatchResultData} (h : result.Sized) (hcompact : result.Compact) :
    Group ["match"] (matchEntries result) := by
  have hidentity : Group ["match"]
      ((result.identityChecks.zipIdx.filter fun c => c.1.status ≠ .match).map fun c =>
        (["match", "identity", toString c.2], identityDetail c.1)) := by
    refine .indexed _ _ identityDetail (by decide) (by decide) (zipIdx_filter_nodup ..)
      (fun c hc => ?_) fun c hc => ?_
    · have hlt := zipIdx_lt (List.mem_of_mem_filter hc)
      have hlength := h.identities
      omega
    · unfold identityDetail
      cases c.1.field <;> cases c.1.status <;> decide
  have hnumeric : Group ["match"]
      ((result.numericChecks.zipIdx.filter fun c => c.1.val.status ≠ .match).map fun c =>
        (["match", "numeric", toString c.2], numericDetail c.1.val)) := by
    have hnodup := zipIdx_filter_nodup result.numericChecks fun c => c.1.val.status ≠ .match
    refine .indexed _ _ (fun c : NumericCheck => numericDetail c.val) (by decide) (by decide)
      hnodup (fun c hc => ?_) fun c hc => ?_
    · have hlt := zipIdx_lt (List.mem_of_mem_filter hc)
      have hlength := h.numbers
      omega
    · have hmem := List.fst_mem_of_mem_zipIdx (List.mem_of_mem_filter hc)
      obtain ⟨hdifference, htolerance⟩ := hcompact c.1 hmem
      have h₁ := decimalStr_length hdifference
      have h₂ := decimalStr_length htolerance
      have hfield : c.1.val.field.text.length ≤ 22 := by
        cases c.1.val.field <;> decide
      have hstatus : c.1.val.status.text.length ≤ 8 := by
        cases c.1.val.status <;> decide
      have htexts : " ".length = 1 ∧ "; delta=".length = 8 ∧ "; tolerance=".length = 12 := by
        decide
      unfold numericDetail
      simp only [String.length_append]
      omega
  unfold matchEntries
  rw [List.cons_append]
  refine .status (by decide) (by cases result.status <;> decide)
    (hidentity.append hnumeric fun e he e' he' heq => ?_) fun e he heq => ?_
  · obtain ⟨c, -, rfl⟩ := List.mem_map.mp he
    obtain ⟨c', -, rfl⟩ := List.mem_map.mp he'
    simp at heq
  · rcases List.mem_append.mp he with he | he
    · obtain ⟨c, -, rfl⟩ := List.mem_map.mp he
      simp at heq
    · obtain ⟨c, -, rfl⟩ := List.mem_map.mp he
      simp at heq

theorem validation_group {result : ValidationResultData} (hlength : result.issues.length ≤ 5020)
    (hfields : ∀ issue ∈ result.issues, issue.val.field ∈ issueFields) :
    Group ["validation"] (validationEntries result) := by
  have hnodup : ((result.issues.zipIdx).map Prod.snd).Nodup := by
    rw [List.zipIdx_map_snd]
    exact List.nodup_range'
  have hissues := Group.indexed "validation" "issue"
    (fun issue : ValidationIssue => issue.val.code.text ++ " " ++ issue.val.field) (by decide)
    (by decide) hnodup (fun c hc => (zipIdx_lt hc).trans_le (hlength.trans (by norm_num)))
    fun c hc => by
      have hnames : ∀ f ∈ issueFields, f.length ≤ 80 := by decide
      have hfield := hnames _ (hfields c.1 (List.fst_mem_of_mem_zipIdx hc))
      have hcode : c.1.val.code.text.length ≤ 30 := by
        cases c.1.val.code <;> decide
      have hspace : " ".length = 1 := by decide
      simp only [String.length_append]
      omega
  refine .status (by decide) (by cases result.status <;> decide) hissues fun e he heq => ?_
  obtain ⟨c, -, rfl⟩ := List.mem_map.mp he
  simp at heq

/-! ## The evidence is accepted -/

theorem Group.nodup_ref {heads : List String} {entries : List Entry} (h : Group heads entries) :
    (entries.map fun e => ref e.1).Nodup := by
  have hmap : (entries.map fun e => ref e.1) = (entries.map Prod.fst).map ref := by
    rw [List.map_map]
    rfl
  rw [hmap]
  refine List.Nodup.map_on (fun a ha b hb hab => ?_) h.nodup
  obtain ⟨e, he, rfl⟩ := List.mem_map.mp ha
  obtain ⟨e', he', rfl⟩ := List.mem_map.mp hb
  exact ref_injective (h.parts e he) (h.parts e' he') hab

/-- Groups of facts are accepted, the first 150 of them as evidence. -/
theorem facts_ok {heads : List String} {entries : List Entry} (h : Group heads entries)
    (hne : entries ≠ []) :
    ∃ facts, entries.mapM newFact = .ok facts ∧
      (1 ≤ (facts.take 150).length ∧ (facts.take 150).length ≤ 150) ∧
        ((facts.take 150).map fun fact => fact.val.ref).Nodup := by
  have hnew : ∀ e ∈ entries, ∃ fact, newFact e = .ok fact ∧ fact.val = ⟨ref e.1, e.2⟩ :=
    fun e he => ⟨_, construct_eq ⟨isFactRef_ref (h.parts e he), h.detail e he⟩, rfl⟩
  obtain ⟨facts, hfacts, hall⟩ := mapM_forall₂ hnew
  have hnodup : (facts.map fun fact => fact.val.ref).Nodup := by
    rw [map_of_forall₂ hall fun e fact heq => congrArg TriageFactData.ref heq]
    exact h.nodup_ref
  have hlength := hall.length_eq
  have hpos := List.length_pos_iff.mpr hne
  refine ⟨facts, hfacts, ?_, ?_⟩
  · rw [List.length_take]
    omega
  · rw [List.map_take]
    exact hnodup.sublist (List.take_sublist _ _)

theorem newFact_eq {e : Entry} {fact : TriageFact} (h : newFact e = .ok fact) :
    fact.val = ⟨ref e.1, e.2⟩ := by
  unfold newFact construct at h
  split_ifs at h
  rw [← Except.ok.inj h]

section

variable {taxonomy : Option TaxonomyResult} {policy : Option PolicyResult}
  {result : Option MatchResult} {validation : Option ValidationResult} {extractionEscalated : Bool}

theorem Group.elim {α : Type} {heads : List String} {x : Option α} {f : α → List Entry}
    (h : ∀ a ∈ x, Group heads (f a)) : Group heads (x.elim [] f) := by
  cases x with
  | none => exact .nil
  | some a => exact h a rfl

/-- The facts of some of the checks. -/
theorem entries_group
    (htaxonomy : ∀ t ∈ taxonomy, t.val.findings.length ≤ 9001 ∧
      ∀ f ∈ t.val.findings, Taxonomy.Short f.evidence.val)
    (hresult : ∀ m ∈ result, m.val.Sized ∧ m.val.Compact)
    (hvalidation : ∀ v ∈ validation, v.val.issues.length ≤ 5020 ∧
      ∀ issue ∈ v.val.issues, issue.val.field ∈ issueFields) :
    Group ["workflow", "extraction", "taxonomy", "policy", "match", "validation"]
      (entries taxonomy policy result validation extractionEscalated) :=
  ((((workflow_group extractionEscalated).append_of_disjoint
    (Group.elim fun t ht => taxonomy_group (htaxonomy t ht).1 (htaxonomy t ht).2)
    (by decide)).append_of_disjoint
    (Group.elim fun p _ => policy_group p.property) (by decide)).append_of_disjoint
    (Group.elim fun m hm => match_group (hresult m hm).1 (hresult m hm).2)
      (by decide)).append_of_disjoint
    (Group.elim fun v hv => validation_group (hvalidation v hv).1 (hvalidation v hv).2) (by decide)

/-- Facts in groups are gathered. -/
theorem gather_of_group {heads : List String}
    (h : Group heads (entries taxonomy policy result validation extractionEscalated)) :
    ∃ facts, gatherTriageEvidence taxonomy policy result validation extractionEscalated =
      .ok facts := by
  have hne : entries taxonomy policy result validation extractionEscalated ≠ [] := by
    simp [entries, workflowEntries]
  obtain ⟨facts, hfacts, hvalid⟩ := facts_ok h hne
  refine ⟨⟨.v1, ⟨facts.take 150, hvalid⟩⟩, ?_⟩
  unfold gatherTriageEvidence
  rw [hfacts, ok_bind, construct, dif_pos hvalid]
  rfl

/-- Of all the facts, the first 150 are gathered. -/
theorem gather_eq {facts : TriageEvidence}
    (h : gatherTriageEvidence taxonomy policy result validation extractionEscalated = .ok facts) :
    facts.facts.val.map Subtype.val =
      ((entries taxonomy policy result validation extractionEscalated).take 150).map
        fun e => ⟨ref e.1, e.2⟩ := by
  unfold gatherTriageEvidence at h
  obtain ⟨all, hall, h⟩ := bind_eq_ok.mp h
  obtain ⟨first, hfirst, h⟩ := bind_eq_ok.mp h
  have hmap : all.map Subtype.val =
      (entries taxonomy policy result validation extractionEscalated).map
        fun e => ⟨ref e.1, e.2⟩ :=
    map_of_forall₂ (forall₂_of_mapM hall) fun _ _ => newFact_eq
  unfold construct at hfirst
  split_ifs at hfirst
  cases hfirst
  cases h
  rw [List.map_take, hmap, List.map_take]

end

end Triage

namespace Evidence

variable (host : Host)

/-- The evidence, as it is read back from where it was written. -/
def canon (evidence : Evidence) : Evidence where
  validation := ValidationResult.codec.canon evidence.validation
  «match» := MatchResult.codec.canon evidence.match
  taxonomy := TaxonomyResult.codec.canon evidence.taxonomy
  policy := (PolicyResult.codec host).canon evidence.policy

/-- The evidence, after it was written and read back `n` times. -/
def reread (n : ℕ) (evidence : Evidence) : Evidence :=
  (canon host)^[n] evidence

/-- Evidence with short texts. -/
structure Short (evidence : Evidence) : Prop where
  sized : LiveServices.Sized evidence
  numbers : evidence.match.val.Compact

variable {host}

theorem taxonomy_canon (evidence : Evidence) :
    (canon host evidence).taxonomy.val.findings = evidence.taxonomy.val.findings :=
  Codec.canon_list _ canon_finding _

theorem Short.canon {evidence : Evidence} (h : evidence.Short) : (canon host evidence).Short := by
  have hidentity : (Evidence.canon host evidence).match.val.identityChecks =
      evidence.match.val.identityChecks.map IdentityCheck.codec.canon := rfl
  have hnumeric : (Evidence.canon host evidence).match.val.numericChecks =
      evidence.match.val.numericChecks.map NumericCheck.codec.canon := rfl
  have hissues : (Evidence.canon host evidence).validation.val.issues =
      evidence.validation.val.issues.map ValidationIssue.codec.canon := rfl
  have hline : ∀ n : Option LineNumber, n.map LineNumber.codec.canon = n := fun n => by
    cases n <;> rfl
  have hdecimal : ∀ {d : Decimal}, Match.Compact d → Match.Compact d.canonical := fun {d} hd => by
    obtain ⟨hcoeff, hexp⟩ := Decimal.canonical_bounds hd.coeff hd.value
    exact ⟨hcoeff, hexp.trans hd.exp, by rw [Decimal.value_canonical]; exact hd.value⟩
  refine ⟨⟨?_, ?_, ⟨?_, ?_, ?_, ?_⟩, ?_, ?_⟩, ?_⟩
  · rw [hissues, List.length_map]
    exact h.sized.issues
  · rw [hissues, List.forall_mem_map]
    exact h.sized.fields
  · rw [hidentity, List.length_map]
    exact h.sized.match.identities
  · rw [hnumeric, List.length_map]
    exact h.sized.match.numbers
  · rw [hidentity, List.forall_mem_map]
    intro c hc n hn
    exact h.sized.match.identityLines c hc n (by rwa [← hline c.lineNumber])
  · rw [hnumeric, List.forall_mem_map]
    intro c hc n hn
    exact h.sized.match.numericLines c hc n (by rwa [← hline c.val.lineNumber])
  · rw [taxonomy_canon]
    exact h.sized.findings
  · rw [taxonomy_canon]
    exact h.sized.references
  · unfold MatchResultData.Compact
    rw [hnumeric, List.forall_mem_map]
    intro c hc
    obtain ⟨hdifference, htolerance⟩ := h.numbers c hc
    refine ⟨fun d hd => ?_, fun d hd => ?_⟩
    · obtain ⟨x, hx, rfl⟩ := Option.map_eq_some_iff.mp hd
      exact hdecimal (hdifference x hx)
    · obtain ⟨x, hx, rfl⟩ := Option.map_eq_some_iff.mp hd
      exact hdecimal (htolerance x hx)

theorem Short.reread {evidence : Evidence} (h : evidence.Short) (n : ℕ) :
    (reread host n evidence).Short := by
  induction n with
  | zero => exact h
  | succ n ih =>
    rw [Evidence.reread, Function.iterate_succ_apply']
    exact ih.canon

/-- What the guard of the agent depends on is read back as it was. -/
theorem reread_eq (evidence : Evidence) (n : ℕ) :
    (reread host n evidence).policy.val.status = evidence.policy.val.status ∧
      (reread host n evidence).taxonomy.val.findings = evidence.taxonomy.val.findings := by
  induction n with
  | zero => exact ⟨rfl, rfl⟩
  | succ n ih =>
    rw [reread, Function.iterate_succ_apply', taxonomy_canon]
    exact ih

/-- The facts of all the checks. -/
def entries (evidence : Evidence) : List Triage.Entry :=
  Triage.entries (some evidence.taxonomy) (some evidence.policy) (some evidence.match)
    (some evidence.validation) false

theorem Short.group {evidence : Evidence} (h : evidence.Short) :
    Triage.Group ["workflow", "extraction", "taxonomy", "policy", "match", "validation"]
      evidence.entries :=
  Triage.entries_group
    (fun _ ht => Option.some.inj ht ▸ ⟨h.sized.findings, h.sized.references⟩)
    (fun _ hm => Option.some.inj hm ▸ ⟨h.sized.match, h.numbers⟩)
    fun _ hv => Option.some.inj hv ▸ ⟨h.sized.issues, h.sized.fields⟩

/-- What is gathered of the evidence. -/
def gather (evidence : Evidence) : Except Exn TriageEvidence :=
  gatherTriageEvidence (some evidence.taxonomy) (some evidence.policy) (some evidence.match)
    (some evidence.validation) false

/-- The status of the policy stands after the findings of the taxonomy. -/
theorem entries_eq (evidence : Evidence) :
    ∃ after, evidence.entries = (Triage.workflowEntries false ++
      Triage.taxonomyEntries evidence.taxonomy.val) ++
        (["policy", "status"], evidence.policy.val.status.text) :: after := by
  refine ⟨(evidence.policy.val.findings.map fun f => (["policy", f.reason.text], f.field.val)) ++
    (Triage.matchEntries evidence.match.val ++ Triage.validationEntries evidence.validation.val),
    ?_⟩
  simp [entries, Triage.entries, Triage.policyEntries]

theorem length_before (taxonomy : TaxonomyResultData) :
    (Triage.workflowEntries false ++ Triage.taxonomyEntries taxonomy).length =
      3 + taxonomy.findings.length := by
  have hnumbered : ∀ (findings : List ExceptionFinding) (counts : ExceptionCode → ℕ),
      (Triage.numbered counts findings).length = findings.length := by
    intro findings
    induction findings with
    | nil => exact fun _ => rfl
    | cons f fs ih => exact fun counts => congrArg (· + 1) (ih _)
  rw [List.length_append, Triage.taxonomyEntries, List.length_cons, List.length_map, hnumbered]
  change 2 + (taxonomy.findings.length + 1) = 3 + taxonomy.findings.length
  omega

theorem policyStatus_ref : Triage.ref ["policy", "status"] = "policy:status" := by
  decide

/-- The status of the policy is among the first 150 facts if there are few findings before it. -/
theorem status_mem {evidence : Evidence} (h : evidence.taxonomy.val.findings.length ≤ 146) :
    ∃ e ∈ evidence.entries.take 150,
      Triage.ref e.1 = "policy:status" ∧ e.2 = evidence.policy.val.status.text := by
  obtain ⟨after, hentries⟩ := entries_eq evidence
  have hlength := length_before evidence.taxonomy.val
  refine ⟨(["policy", "status"], evidence.policy.val.status.text), ?_, policyStatus_ref, rfl⟩
  rw [hentries, List.take_append]
  refine List.mem_append_right _ ?_
  obtain ⟨k, hk⟩ : ∃ k, 150 - (Triage.workflowEntries false ++
      Triage.taxonomyEntries evidence.taxonomy.val).length = k + 1 :=
    ⟨146 - evidence.taxonomy.val.findings.length, by omega⟩
  rw [hk, List.take_succ_cons]
  exact List.mem_cons_self

/-- No other fact has its reference. -/
theorem length_of_status_mem {evidence : Evidence} (h : evidence.Short) {e : Triage.Entry}
    (he : e ∈ evidence.entries.take 150) (href : Triage.ref e.1 = "policy:status") :
    evidence.taxonomy.val.findings.length ≤ 146 := by
  obtain ⟨after, hentries⟩ := entries_eq evidence
  have hlength := length_before evidence.taxonomy.val
  have hparts : e.1 = ["policy", "status"] :=
    Triage.ref_injective (h.group.parts e (List.mem_of_mem_take he))
      (.two (by decide) (by decide)) (href.trans policyStatus_ref.symm)
  rw [hentries, List.take_append] at he
  rcases List.mem_append.mp he with he | he
  · have hbefore := (Triage.workflow_group false).append_of_disjoint
      (Triage.taxonomy_group h.sized.findings h.sized.references) (by decide)
    obtain ⟨head, hhead, hfirst⟩ := hbefore.head e (List.mem_of_mem_take he)
    rw [hparts] at hfirst
    rw [← Option.some.inj hfirst] at hhead
    exact absurd hhead (by decide)
  · have hpos := List.length_pos_of_mem he
    rw [List.length_take] at hpos
    omega

end Evidence

/-! ## Drafts -/

/-- A draft that approves the invoice. -/
def TriageResultData.Approves (result : TriageResultData) : Prop :=
  result.status = .draft ∧ ∃ draft ∈ result.draft, draft.recommendedAction = .approve

namespace TriageAgent

variable {host : Host} {request : TriageRequest host} {policyVersion : GatewayVersion}

theorem fallback_status {modelVersion : String} {reason : FallbackReason} {attempts : ℕ}
    {costUsd : Option Decimal} {result : TriageResult}
    (h : fallback request modelVersion reason attempts costUsd = .ok result) :
    result.val.status = .fallback := by
  unfold fallback construct at h
  split_ifs at h
  rw [← Except.ok.inj h]

/-- The guard of the agent : evidence of a block is not overruled. -/
theorem not_approves {reply : GatewayReply} {result : TriageResult}
    (h : prepare request policyVersion reply = .ok result)
    (hblock : request.val.evidence.facts.val.any isBlock = true) : ¬result.val.Approves := by
  rintro ⟨hstatus, draft, hdraft, haction⟩
  cases reply with
  | misconfigured error => cases h
  | failed attempts costUsd => exact absurd (hstatus.symm.trans (fallback_status h)) (by decide)
  | completed response =>
    unfold prepare at h
    dsimp only at h
    split at h
    · exact absurd (hstatus.symm.trans (fallback_status h)) (by decide)
    · split at h
      · exact absurd (hstatus.symm.trans (fallback_status h)) (by decide)
      · rename_i hconflict
        unfold construct at h
        split_ifs at h
        rw [← Except.ok.inj h] at hdraft
        rw [← Option.some.inj hdraft] at haction
        exact hconflict ⟨haction, hblock⟩

theorem isGatewayVersion_model : isGatewayVersion "model@v1" := by decide

theorem isGatewayVersion_triage : isGatewayVersion "triage@v2" := by decide

/-- A short answer of the model, which approves the invoice. -/
def approval : GatewayResult TriageDraft where
  value :=
    { recommendedAction := .approve
      summary := ⟨"Fine", by decide⟩
      rationale := ⟨"Fine", by decide⟩
      evidenceRefs := ⟨["workflow:review"], by decide⟩ }
  provenance :=
    ⟨.triageReasoner, ⟨_, isGatewayVersion_model⟩, ⟨_, isGatewayVersion_model⟩,
      ⟨_, isGatewayVersion_triage⟩⟩
  usage := .zero
  attempts := 1
  latencyMs := 0
  latencyMs_nonneg := le_rfl
  validate_cache_attempts := rfl

/-- Without evidence of a block, the model may approve. -/
theorem approves (hreview : "workflow:review" ∈ request.val.evidence.facts.val.map fun fact =>
    fact.val.ref) (hblock : request.val.evidence.facts.val.any isBlock = false) :
    ∃ result, prepare request policyVersion (.completed approval) = .ok result ∧
      result.val.Approves := by
  have hrefs : ∀ r ∈ approval.value.evidenceRefs.val,
      r ∈ request.val.evidence.facts.val.map fun fact => fact.val.ref := by
    intro r hr
    rw [List.mem_singleton.mp hr]
    exact hreview
  have hconflict : ¬(approval.value.recommendedAction = .approve ∧
      request.val.evidence.facts.val.any isBlock = true) := by
    rintro ⟨-, h⟩
    rw [hblock] at h
    exact Bool.false_ne_true h
  unfold prepare
  dsimp only
  rw [if_neg (not_not.mpr hrefs), if_neg hconflict]
  have hversion : 1 ≤ approval.provenance.modelVersion.val.length ∧
      approval.provenance.modelVersion.val.length ≤ 160 := by decide
  have hattempts : approval.attempts ≤ 6 := by decide
  exact ⟨_, construct_eq ⟨hversion, hattempts, fun _ => nofun, by simp, by simp⟩, rfl, _, rfl, rfl⟩

end TriageAgent

namespace LiveServices

variable (host : Host) (run : RunInput)

/-- The request for a draft. -/
def triageRequest (facts : TriageEvidence) : TriageRequest host :=
  ⟨⟨run.runId, run.invoiceId, run.traceId, facts, host.modelDigest TriageEvidence.codec facts⟩, rfl⟩

/-- The draft for a run that was checked. -/
def triage (evidence : Evidence) (policyVersion : GatewayVersion)
    (reply : GatewayReply) : Except Exn TriageResult := do
  let facts ← evidence.gather
  TriageAgent.prepare (triageRequest host run facts) policyVersion reply

/-- Whatever the model answers, a blocked invoice gets no draft that approves it. -/
def NeverApproved (evidence : Evidence) : Prop :=
  evidence.policy.val.status = .block → ∀ policyVersion reply result,
    triage host run evidence policyVersion reply = .ok result → ¬result.val.Approves

/-- Few enough findings stand before the status of the policy. -/
def StatusShown (evidence : Evidence) : Prop :=
  evidence.policy.val.status = .block → evidence.taxonomy.val.findings.length ≤ 146

variable {host run}

theorem any_isBlock {evidence : Evidence} {facts : TriageEvidence}
    (h : evidence.gather = .ok facts) :
    facts.facts.val.any TriageAgent.isBlock = true ↔
      ∃ e ∈ evidence.entries.take 150, Triage.ref e.1 = "policy:status" ∧ e.2 = "BLOCK" := by
  have hmap : facts.facts.val.map Subtype.val =
      (evidence.entries.take 150).map fun e => ⟨Triage.ref e.1, e.2⟩ := Triage.gather_eq h
  have hleft : facts.facts.val.any TriageAgent.isBlock = true ↔
      ∃ d ∈ facts.facts.val.map Subtype.val, d.ref = "policy:status" ∧ d.detail = "BLOCK" := by
    rw [List.any_eq_true]
    simp only [TriageAgent.isBlock, Bool.and_eq_true, decide_eq_true_eq, List.mem_map,
      exists_exists_and_eq_and]
  rw [hleft, hmap]
  simp only [List.mem_map, exists_exists_and_eq_and]

theorem status_block {status : PolicyStatus} : status = .block ↔ status.text = "BLOCK" := by
  cases status <;> decide

/-- Where the status of the policy is shown, the agent minds it. -/
theorem neverApproved_of_shown {evidence : Evidence} (h : StatusShown evidence) :
    NeverApproved host run evidence := by
  intro hstatus policyVersion reply result hresult
  obtain ⟨facts, hfacts, hprepare⟩ := bind_eq_ok.mp hresult
  refine TriageAgent.not_approves hprepare ((any_isBlock hfacts).mpr ?_)
  have htext := status_block.mp hstatus
  rw [← htext]
  exact Evidence.status_mem (h hstatus)

/-- Where it is not, a model may approve. -/
theorem shown_of_neverApproved {evidence : Evidence} (hshort : evidence.Short)
    (h : NeverApproved host run evidence) : StatusShown evidence := by
  intro hstatus
  by_contra hlong
  obtain ⟨facts, hfacts⟩ : ∃ facts, evidence.gather = .ok facts :=
    Triage.gather_of_group hshort.group
  have hblock : facts.facts.val.any TriageAgent.isBlock = false := by
    rw [← Bool.not_eq_true, any_isBlock hfacts]
    rintro ⟨e, he, href, -⟩
    exact hlong (Evidence.length_of_status_mem hshort he href)
  have hreview : "workflow:review" ∈ facts.facts.val.map fun fact => fact.val.ref := by
    have hmap := congrArg (List.map TriageFactData.ref) (Triage.gather_eq hfacts)
    rw [List.map_map] at hmap
    refine (congrArg ("workflow:review" ∈ ·) hmap).mpr (List.mem_map.mpr ?_)
    exact ⟨⟨Triage.ref ["workflow", "review"], "Human review is required"⟩,
      List.mem_cons_self, by decide⟩
  obtain ⟨result, hresult, happroves⟩ := @TriageAgent.approves host
    (triageRequest host run facts) ⟨_, TriageAgent.isGatewayVersion_model⟩ hreview hblock
  refine h hstatus ⟨_, TriageAgent.isGatewayVersion_model⟩ (.completed TriageAgent.approval)
    result ?_ happroves
  unfold triage
  rw [hfacts, ok_bind, hresult]

end LiveServices

/-- The checks of a run always have results. If the policy blocks the invoice only where the
taxonomy has at most 146 findings, no draft approves a blocked invoice, however often the results
were written and read back ; and this is needed, unless the tolerances of the match have long
texts. -/
theorem blocked_never_approved (host : Host) (configs : NodeConfigs) (run : RunInput) (n : ℕ) :
    ∃ evidence, LiveServices.evaluate host configs run = .ok evidence ∧
      (LiveServices.StatusShown evidence →
        LiveServices.NeverApproved host run (evidence.reread host n)) ∧
      (configs.matching.Plain →
        LiveServices.NeverApproved host run (evidence.reread host n) →
        LiveServices.StatusShown evidence) := by
  obtain ⟨evidence, heval, hran, hsized⟩ := LiveServices.evaluate_ok host configs run
  obtain ⟨hstatus, hfindings⟩ := @Evidence.reread_eq host evidence n
  have hshown : LiveServices.StatusShown (evidence.reread host n) ↔
      LiveServices.StatusShown evidence := by
    rw [LiveServices.StatusShown, hstatus, hfindings, LiveServices.StatusShown]
  refine ⟨evidence, heval, fun h => ?_, fun hplain h => ?_⟩
  · exact LiveServices.neverApproved_of_shown (hshown.mpr h)
  · have hshort : evidence.Short := ⟨hsized, Match.compact_of_plain host hplain hran.match⟩
    exact hshown.mp (LiveServices.shown_of_neverApproved (hshort.reread n) h)

/-! ## An invoice with many findings -/

namespace Taxonomy

theorem isSome_note {code : Option ExceptionCode} {ref : EvidenceRefData} {n : Note}
    (h : note code ref = .ok n) : n.finding?.isSome = code.isSome := by
  obtain ⟨evidence, -, h⟩ := bind_eq_ok.mp h
  cases code with
  | none => rw [← Except.ok.inj h]; rfl
  | some code => rw [← Except.ok.inj h]; rfl

theorem length_validationNotes {result : ValidationResultData} {ns : List Note}
    (h : validationNotes result = .ok ns) :
    (ns.filterMap Note.finding?).length =
      (result.issues.map fun issue => issue.val.code).countP fun c => (issueCode c).isSome := by
  have hmap : ns.map (fun n => n.finding?.isSome) =
      result.issues.zipIdx.map fun issue => (issueCode issue.1.val.code).isSome :=
    map_of_forall₂ (forall₂_of_mapM h) fun _ _ => isSome_note
  have hissues : result.issues.zipIdx.map (fun issue => (issueCode issue.1.val.code).isSome) =
      (result.issues.zipIdx.map Prod.fst).map fun issue => (issueCode issue.val.code).isSome := by
    rw [List.map_map]
    rfl
  calc (ns.filterMap Note.finding?).length
      = (ns.map fun n => n.finding?.isSome).countP id := by
        rw [List.length_filterMap_eq_countP, List.countP_map]
        rfl
    _ = (result.issues.map fun issue => (issueCode issue.val.code).isSome).countP id := by
        rw [hmap, hissues, List.zipIdx_map_fst]
    _ = (result.issues.map fun issue => issue.val.code).countP fun c => (issueCode c).isSome := by
        rw [List.countP_map, List.countP_map]
        rfl

/-- Every issue with a code is a finding. -/
theorem length_findings (host : Host) {request : TaxonomyRequest host}
    {config : Option TaxonomyConfig} {v : ValidationResult} {result : TaxonomyResult}
    (hv : request.val.validation = some v)
    (h : classifyExceptions host request config = .ok result) :
    (v.val.issues.map fun issue => issue.val.code).countP (fun c => (issueCode c).isSome) ≤
      result.val.findings.length := by
  unfold classifyExceptions at h
  obtain ⟨ns, hns, h⟩ := bind_eq_ok.mp h
  obtain ⟨old, -, h⟩ := bind_eq_ok.mp h
  unfold construct at h
  split_ifs at h
  rw [← Except.ok.inj h]
  unfold notes at hns
  obtain ⟨exact, -, hns⟩ := bind_eq_ok.mp hns
  obtain ⟨near, -, hns⟩ := bind_eq_ok.mp hns
  obtain ⟨matching, -, hns⟩ := bind_eq_ok.mp hns
  obtain ⟨validation, hvalidation, hns⟩ := bind_eq_ok.mp hns
  obtain ⟨bank, -, hns⟩ := bind_eq_ok.mp hns
  rw [hv, Option.elim_some] at hvalidation
  have hfound := length_validationNotes hvalidation
  obtain rfl := Except.ok.inj hns
  simp only [Taxonomy.result, List.filterMap_append, List.length_append]
  omega

end Taxonomy

namespace LiveServices

/-- A line without a quantity. -/
def emptyLine : InvoiceLineItem where
  description := .certain ⟨"Paper", by decide⟩
  quantity := .certain ⟨.zero, by decide +kernel⟩
  unitPrice := .certain ⟨.one, by decide +kernel⟩
  taxRate := .certain ⟨.zero, by decide +kernel⟩
  lineTotal := .certain ⟨.zero, by decide +kernel⟩

/-- An expensive invoice with 147 such lines. -/
def longInvoice : InvoiceExtraction where
  vendorName := .certain ⟨"Vendor", by decide⟩
  vendorTaxId := .certain ⟨"T-1", by decide⟩
  bankAccountIban := .certain ⟨"DE00", by decide⟩
  invoiceNumber := .certain ⟨"I-1", by decide⟩
  poNumber := .certain ⟨"P-1", by decide⟩
  currency := .certain .usd
  invoiceDate := .certain 0
  dueDate := .certain 30
  subtotal := .certain ⟨.zero, by decide +kernel⟩
  taxAmount := .certain ⟨.zero, by decide +kernel⟩
  totalAmount := .certain ⟨⟨false, 300000, 0⟩, by decide +kernel⟩
  lineItems := ⟨List.replicate 147 emptyLine, by simp⟩

theorem longTrace : isTraceId "0123456789abcdef0123456789abcdef" := by
  decide

/-- The run of that invoice. -/
def longRun : RunInput where
  runId := 1
  invoiceId := 2
  traceId := ⟨"0123456789abcdef0123456789abcdef", longTrace⟩
  asOf := 0
  extraction := longInvoice
  snapshot := none
  nearDuplicate := false

theorem longInvoice_findings :
    147 ≤ ((Control.findings longInvoice .default).map Finding.code).countP
      fun c => (Taxonomy.issueCode c).isSome := by
  decide +kernel

theorem longRun_reasons : .spendCapExceeded ∈ Policy.amountReasons
    (decimal? longInvoice.totalAmount)
    (Policy.band? .default (Match.text? longInvoice.currency)) := by
  decide +kernel

/-- The invoice is too expensive, and every line is a finding. -/
theorem longRun_blocked (host : Host) {evidence : Evidence}
    (h : Ran host {} longRun evidence) :
    evidence.policy.val.status = .block ∧ 147 ≤ evidence.taxonomy.val.findings.length := by
  constructor
  · obtain ⟨hvalid, hpolicy⟩ := h.policy
    rw [policy_ok] at hpolicy
    rw [← Except.ok.inj hpolicy]
    have hmem : PolicyReason.spendCapExceeded ∈ Policy.reasons .default
        (policyRequestData longRun evidence.validation evidence.match evidence.taxonomy) := by
      unfold Policy.reasons
      simp only [List.mem_append]
      exact .inl (.inl (.inl (.inl (.inr longRun_reasons))))
    refine if_pos (List.any_eq_true.mpr ?_)
    exact ⟨_, List.mem_map_of_mem hmem, by decide⟩
  · obtain ⟨hvalid, htaxonomy⟩ := h.taxonomy
    obtain ⟨validation, hvalidation, -, hissues⟩ := validateInvoice_ok host longInvoice .default
    have heq : evidence.validation = validation :=
      Except.ok.inj (h.validation.symm.trans hvalidation)
    have hcodes : evidence.validation.val.issues.map (fun issue => issue.val.code) =
        (Control.findings longInvoice .default).map Finding.code := by
      rw [heq, ← hissues, List.map_map]
      rfl
    have hle := Taxonomy.length_findings host rfl htaxonomy
    rw [hcodes] at hle
    exact longInvoice_findings.trans hle

end LiveServices

/-- A model may approve a blocked invoice of 147 lines. -/
theorem long_invoice_approved :
    ∃ evidence, LiveServices.evaluate .sample {} LiveServices.longRun = .ok evidence ∧
      evidence.policy.val.status = .block ∧
      ∃ policyVersion reply result,
        LiveServices.triage .sample LiveServices.longRun evidence policyVersion reply =
          .ok result ∧ result.val.Approves := by
  obtain ⟨evidence, heval, hran, hsized⟩ := LiveServices.evaluate_ok .sample {} LiveServices.longRun
  obtain ⟨hblock, hlong⟩ := LiveServices.longRun_blocked .sample hran
  refine ⟨evidence, heval, hblock, ?_⟩
  by_contra hnone
  have hnever : LiveServices.NeverApproved .sample LiveServices.longRun evidence :=
    fun _ policyVersion reply result hresult happroves =>
      hnone ⟨policyVersion, reply, result, hresult, happroves⟩
  have hshown := LiveServices.shown_of_neverApproved
    ⟨hsized, Match.compact_of_plain .sample MatchConfig.plain_default hran.match⟩ hnever hblock
  omega

/-! ## Every combination of results -/

/-- The result of a check is missing, or it is from a run under the default configurations, read
back after it was written some times. -/
def Produced {α : Type} (host : Host) (check : Evidence → α) (result : Option α) : Prop :=
  ∀ x ∈ result, ∃ run evidence n, LiveServices.evaluate host {} run = .ok evidence ∧
    x = check (evidence.reread host n)

theorem Produced.short {α : Type} {host : Host} {check : Evidence → α} {result : Option α}
    (h : Produced host check result) {x : α} (hx : x ∈ result) :
    ∃ evidence : Evidence, evidence.Short ∧ x = check evidence := by
  obtain ⟨run, evidence, n, heval, rfl⟩ := h x hx
  obtain ⟨evidence', heval', hran, hsized⟩ := LiveServices.evaluate_ok host {} run
  obtain rfl : evidence = evidence' := Except.ok.inj (heval.symm.trans heval')
  have hshort : evidence.Short :=
    ⟨hsized, Match.compact_of_plain host MatchConfig.plain_default hran.match⟩
  exact ⟨_, hshort.reread n, rfl⟩

/-- Whatever of the results there is, the evidence is gathered : all facts are accepted, under
distinct references, and the first 150 of them are the evidence. The result of the policy may be
any. -/
theorem triage_evidence_constructible (host : Host) (taxonomy : Option TaxonomyResult)
    (policy : Option PolicyResult) (result : Option MatchResult)
    (validation : Option ValidationResult) (extractionEscalated : Bool)
    (htaxonomy : Produced host Evidence.taxonomy taxonomy)
    (hresult : Produced host Evidence.match result)
    (hvalidation : Produced host Evidence.validation validation) :
    let facts := (Triage.entries taxonomy policy result validation extractionEscalated).map
      fun e => (⟨Triage.ref e.1, e.2⟩ : TriageFactData)
    (facts.map TriageFactData.ref).Nodup ∧ (∀ fact ∈ facts, fact.Valid) ∧
      ∃ evidence, gatherTriageEvidence taxonomy policy result validation extractionEscalated =
          .ok evidence ∧
        evidence.facts.val.map Subtype.val = facts.take 150 ∧
        1 ≤ evidence.facts.val.length ∧ evidence.facts.val.length ≤ 150 := by
  intro facts
  have hgroup := @Triage.entries_group taxonomy policy result validation extractionEscalated
    (fun t ht => by
      obtain ⟨evidence, hshort, rfl⟩ := htaxonomy.short ht
      exact ⟨hshort.sized.findings, hshort.sized.references⟩)
    (fun m hm => by
      obtain ⟨evidence, hshort, rfl⟩ := hresult.short hm
      exact ⟨hshort.sized.match, hshort.numbers⟩)
    fun v hv => by
      obtain ⟨evidence, hshort, rfl⟩ := hvalidation.short hv
      exact ⟨hshort.sized.issues, hshort.sized.fields⟩
  obtain ⟨evidence, hevidence⟩ := Triage.gather_of_group hgroup
  refine ⟨?_, ?_, evidence, hevidence, ?_, evidence.facts.property.1⟩
  · rw [List.map_map]
    exact hgroup.nodup_ref
  · intro fact hfact
    obtain ⟨e, he, rfl⟩ := List.mem_map.mp hfact
    exact ⟨Triage.isFactRef_ref (hgroup.parts e he), hgroup.detail e he⟩
  · rw [Triage.gather_eq hevidence, List.map_take]

theorem triage_evidence_sample :
    ∃ evidence, LiveServices.evaluate .sample {} LiveServices.longRun = .ok evidence ∧
      ∃ facts, gatherTriageEvidence (some evidence.taxonomy) (some evidence.policy)
        (some evidence.match) none false = .ok facts := by
  obtain ⟨evidence, heval, -⟩ := LiveServices.evaluate_ok .sample {} LiveServices.longRun
  obtain ⟨-, -, facts, hfacts, -⟩ := triage_evidence_constructible .sample
    (some evidence.taxonomy) (some evidence.policy) (some evidence.match) none false
    (fun _ hx => ⟨_, evidence, 0, heval, (Option.some.inj hx).symm⟩)
    (fun _ hx => ⟨_, evidence, 0, heval, (Option.some.inj hx).symm⟩) nofun
  exact ⟨evidence, heval, facts, hfacts⟩

end InvoiceOps
