import InvoiceOps.Provenance

/-!
# What the taxonomy does with its evidence

`Taxonomy.entries` is the evidence of a request with the code each piece of it has, if any. The
classification makes one reference for each entry (`notes_eq`), so it loses none and repeats none.
An entry is only refused for the length of its field's name, and nothing is found exactly if there
are no entries.
-/

namespace InvoiceOps

namespace Taxonomy

/-- A reference, and the code it is found under. -/
abbrev Entry := Option ExceptionCode × EvidenceRefData

/-- The entry of a signal, if it is on. -/
def signalEntries (on : Bool) (code : ExceptionCode) (source : EvidenceSource) (field : String) :
    List Entry :=
  if on then [(some code, { source := source, field := field })] else []

/-- The entries of the identity checks. -/
def identityEntries (checks : List IdentityCheck) : List Entry :=
  (checks.zipIdx.filter fun c => c.1.status ≠ .match).map fun c =>
    (identityCode c.1, ⟨.matchIdentity, c.1.field.text, c.1.lineNumber.map Subtype.val, some c.2⟩)

/-- The entries of the numeric checks. -/
def numericEntries (checks : List NumericCheck) : List Entry :=
  (checks.zipIdx.filter fun c => c.1.val.status ≠ .match).map fun c =>
    (numericCode c.1.val,
      ⟨.matchNumeric, c.1.val.field.text, c.1.val.lineNumber.map Subtype.val, some c.2⟩)

/-- The entries of a match. -/
def matchEntries (result : MatchResultData) : List Entry :=
  signalEntries (!result.snapshotFound) .missingPo .matchIdentity "po_number" ++
    signalEntries (result.poStatus = some "CLOSED" || result.poStatus = some "CANCELLED") .stalePo
      .erp "po_status" ++
    identityEntries result.identityChecks ++ numericEntries result.numericChecks

/-- The entries of the issues. -/
def issueEntries (issues : List ValidationIssue) : List Entry :=
  issues.zipIdx.map fun issue =>
    (issueCode issue.1.val.code,
      ⟨.validation, issue.1.val.field, issue.1.val.lineNumber, some issue.2⟩)

/-- The entry of a check that was not run though there was an extraction. -/
def notRunEntries (source : EvidenceSource) (extraction : Option InvoiceExtraction) : List Entry :=
  if extraction.isSome then [(none, { source := source, field := "not_run" })] else []

/-- The entry of a bank account that is not the vendor's, or of one that cannot be compared. -/
def bankEntries (host : Host) (extraction : InvoiceExtraction) (vendor : Option String) :
    List Entry :=
  match Match.text? extraction.bankAccountIban, vendor with
  | some observed, some vendor =>
    if observed = "" ∨ vendor = "" ∨ iban host observed = "" ∨ iban host vendor = "" then
      [(none, { source := .erp, field := "bank_account_iban" })]
    else if iban host observed ≠ iban host vendor then
      [(some .bankChange, { source := .erp, field := "bank_account_iban" })]
    else []
  | _, _ => [(none, { source := .erp, field := "bank_account_iban" })]

/-- All the evidence of a request, but for an old purchase order. -/
def entries (host : Host) (request : TaxonomyRequestData) : List Entry :=
  signalEntries request.exactDuplicate .dupExact .ingest "content_hash" ++
    signalEntries request.nearDuplicate .dupNear .similarity "invoice_similarity" ++
    request.match.elim (notRunEntries .matchIdentity request.extraction)
      (fun m => matchEntries m.val) ++
    request.validation.elim (notRunEntries .validation request.extraction)
      (fun v => issueEntries v.val.issues) ++
    request.extraction.elim [] fun e =>
      bankEntries host e (request.vendorBankIban.map Subtype.val)

/-- The reference an entry is made. -/
def noteEntry (e : Entry) : Except Exn Note :=
  note e.1 e.2

/-! ## One reference for each entry -/

theorem note_single (e : Entry) :
    (do let n ← note e.1 e.2; return [n]) = [e].mapM noteEntry := by
  rw [List.mapM_cons]
  rfl

theorem signal_eq (on : Bool) (code : ExceptionCode) (source : EvidenceSource) (field : String) :
    signal on code source field = (signalEntries on code source field).mapM noteEntry := by
  unfold signal signalEntries
  split_ifs
  · exact note_single (some code, { source := source, field := field })
  · rfl

theorem notRun_eq (source : EvidenceSource) (extraction : Option InvoiceExtraction) :
    notRun source extraction = (notRunEntries source extraction).mapM noteEntry := by
  unfold notRun notRunEntries
  split_ifs
  · exact note_single (none, { source := source, field := "not_run" })
  · rfl

theorem identityNotes_eq (checks : List IdentityCheck) :
    identityNotes checks = (identityEntries checks).mapM noteEntry := by
  unfold identityNotes identityEntries
  rw [List.mapM_map]
  rfl

theorem numericNotes_eq (checks : List NumericCheck) :
    numericNotes checks = (numericEntries checks).mapM noteEntry := by
  unfold numericNotes numericEntries
  rw [List.mapM_map]
  rfl

theorem validationNotes_eq (result : ValidationResultData) :
    validationNotes result = (issueEntries result.issues).mapM noteEntry := by
  unfold validationNotes issueEntries
  rw [List.mapM_map]
  rfl

theorem matchNotes_eq (result : MatchResultData) :
    matchNotes result = (matchEntries result).mapM noteEntry := by
  unfold matchNotes matchEntries
  rw [signal_eq, signal_eq, identityNotes_eq, numericNotes_eq]
  simp only [List.mapM_append, bind_assoc, pure_bind]

theorem bankNotes_eq (host : Host) (extraction : InvoiceExtraction) (vendor : Option String) :
    bankNotes host extraction vendor = (bankEntries host extraction vendor).mapM noteEntry := by
  unfold bankNotes bankEntries
  cases Match.text? extraction.bankAccountIban with
  | none => exact note_single (none, { source := .erp, field := "bank_account_iban" })
  | some observed =>
    cases vendor with
    | none => exact note_single (none, { source := .erp, field := "bank_account_iban" })
    | some vendor =>
      dsimp only
      split_ifs
      · exact note_single (none, { source := .erp, field := "bank_account_iban" })
      · exact note_single (some .bankChange, { source := .erp, field := "bank_account_iban" })
      · rfl

theorem notes_eq (host : Host) (request : TaxonomyRequestData) :
    notes host request = (entries host request).mapM noteEntry := by
  have hmatch : request.match.elim (notRun .matchIdentity request.extraction)
      (fun m => matchNotes m.val) =
      (request.match.elim (notRunEntries .matchIdentity request.extraction)
        fun m => matchEntries m.val).mapM noteEntry := by
    cases request.match with
    | none => exact notRun_eq _ _
    | some m => exact matchNotes_eq m.val
  have hvalidation : request.validation.elim (notRun .validation request.extraction)
      (fun v => validationNotes v.val) =
      (request.validation.elim (notRunEntries .validation request.extraction)
        fun v => issueEntries v.val.issues).mapM noteEntry := by
    cases request.validation with
    | none => exact notRun_eq _ _
    | some v => exact validationNotes_eq v.val
  have hbank : (request.extraction.elim (.ok []) fun e =>
      bankNotes host e (request.vendorBankIban.map Subtype.val)) =
      (request.extraction.elim [] fun e =>
        bankEntries host e (request.vendorBankIban.map Subtype.val)).mapM noteEntry := by
    cases request.extraction with
    | none => rfl
    | some e => exact bankNotes_eq host e _
  unfold notes entries
  rw [signal_eq, signal_eq, hmatch, hvalidation, hbank]
  simp only [List.mapM_append, bind_assoc, pure_bind]

/-! ## What a classification returns -/

theorem note_eq_ok {code : Option ExceptionCode} {ref : EvidenceRefData} {n : Note}
    (h : note code ref = .ok n) : (Note.evidence n).val = ref := by
  obtain ⟨evidence, hevidence, h⟩ := bind_eq_ok.mp h
  have hval : evidence.val = ref := by
    unfold newRef construct at hevidence
    split_ifs at hevidence
    rw [← Except.ok.inj hevidence]
  cases code with
  | none =>
    rw [← Except.ok.inj h]
    exact hval
  | some code =>
    rw [← Except.ok.inj h]
    exact hval

theorem note_ok_iff (e : Entry) : (∃ n, noteEntry e = .ok n) ↔ e.2.Valid := by
  refine ⟨fun ⟨n, hn⟩ => ?_, fun h => ?_⟩
  · rw [← note_eq_ok hn]
    exact (Note.evidence n).property
  · unfold noteEntry note
    rw [newRef_eq h, ok_bind]
    cases e.1 with
    | none => exact ⟨_, rfl⟩
    | some code => exact ⟨_, rfl⟩

theorem notes_ok_iff {es : List Entry} :
    (∃ ns, es.mapM noteEntry = .ok ns) ↔ ∀ e ∈ es, e.2.Valid := by
  refine ⟨fun ⟨ns, hns⟩ => ?_, fun h => ?_⟩
  · exact forall_of_forall₂ (forall₂_of_mapM hns).flip fun n _ e hn => (note_ok_iff e).mp ⟨n, hn⟩
  · obtain ⟨ns, hns, -⟩ := mapM_forall₂ (R := fun _ _ => True) fun e he =>
      ((note_ok_iff e).mpr (h e he)).imp fun n hn => ⟨hn, trivial⟩
    exact ⟨ns, hns⟩

theorem map_evidence {es : List Entry} {ns : List Note} (h : es.mapM noteEntry = .ok ns) :
    ns.map (fun n => (Note.evidence n).val) = es.map Prod.snd :=
  map_of_forall₂ (forall₂_of_mapM h) fun _ _ => note_eq_ok

/-- Every note is a finding or unresolved. -/
theorem split_perm : ∀ ns : List Note,
    ((ns.filterMap Note.finding?).map (fun f => f.evidence.val) ++
      (ns.filterMap Note.unresolved?).map Subtype.val).Perm
      (ns.map fun n => (Note.evidence n).val)
  | [] => .nil
  | .finding _ :: ns => (split_perm ns).cons _
  | .unresolved _ :: ns => List.perm_middle.trans ((split_perm ns).cons _)

theorem split_eq_nil {ns : List Note} :
    ns.filterMap Note.finding? = [] ∧ ns.filterMap Note.unresolved? = [] ↔ ns = [] := by
  cases ns with
  | nil => simp
  | cons n ns => cases n <;> simp [Note.finding?, Note.unresolved?]

/-! ## The items of the checks -/

/-- The evidence of the identity checks that do not match. -/
def identityItems (checks : List IdentityCheck) : List EvidenceRefData :=
  (checks.zipIdx.filter fun c => c.1.status ≠ .match).map fun c =>
    ⟨.matchIdentity, c.1.field.text, c.1.lineNumber.map Subtype.val, some c.2⟩

/-- The evidence of the numeric checks that do not match. -/
def numericItems (checks : List NumericCheck) : List EvidenceRefData :=
  (checks.zipIdx.filter fun c => c.1.val.status ≠ .match).map fun c =>
    ⟨.matchNumeric, c.1.val.field.text, c.1.val.lineNumber.map Subtype.val, some c.2⟩

/-- The evidence of the issues. -/
def issueItems (issues : List ValidationIssue) : List EvidenceRefData :=
  issues.zipIdx.map fun issue =>
    ⟨.validation, issue.1.val.field, issue.1.val.lineNumber, some issue.2⟩

/-- The checks that do not match and the issues, each with its own source and index. -/
def items (request : TaxonomyRequestData) : List EvidenceRefData :=
  request.match.elim [] (fun m =>
    identityItems m.val.identityChecks ++ numericItems m.val.numericChecks) ++
    request.validation.elim [] fun v => issueItems v.val.issues

/-- The references of a result. -/
def references (result : TaxonomyResultData) : List EvidenceRefData :=
  result.findings.map (fun f => f.evidence.val) ++ result.unresolved.map Subtype.val

/-- A reference to an item of a check. -/
def isItem (ref : EvidenceRefData) : Bool :=
  ref.sourceIndex.isSome

theorem filter_signal (on : Bool) (code : ExceptionCode) (source : EvidenceSource)
    (field : String) : ((signalEntries on code source field).map Prod.snd).filter isItem = [] := by
  unfold signalEntries
  split_ifs <;> rfl

theorem filter_notRun (source : EvidenceSource) (extraction : Option InvoiceExtraction) :
    ((notRunEntries source extraction).map Prod.snd).filter isItem = [] := by
  unfold notRunEntries
  split_ifs <;> rfl

theorem filter_bank (host : Host) (extraction : InvoiceExtraction) (vendor : Option String) :
    ((bankEntries host extraction vendor).map Prod.snd).filter isItem = [] := by
  unfold bankEntries
  split
  · split_ifs <;> rfl
  · rfl

theorem filter_indexed {α : Type} {f : α × ℕ → EvidenceRefData} (l : List (α × ℕ))
    (h : ∀ c, isItem (f c) = true) : (l.map f).filter isItem = l.map f :=
  List.filter_eq_self.mpr (List.forall_mem_map.mpr fun c _ => h c)

/-- The entries with an index are those of the items. -/
theorem filter_entries (host : Host) (request : TaxonomyRequestData) :
    ((entries host request).map Prod.snd).filter isItem = items request := by
  have hmatch : ((request.match.elim (notRunEntries .matchIdentity request.extraction)
      fun m => matchEntries m.val).map Prod.snd).filter isItem =
      request.match.elim [] (fun m =>
        identityItems m.val.identityChecks ++ numericItems m.val.numericChecks) := by
    cases request.match with
    | none => exact filter_notRun _ _
    | some m =>
      simp only [Option.elim_some, matchEntries, List.map_append, List.filter_append,
        filter_signal, List.nil_append]
      unfold identityEntries numericEntries
      rw [List.map_map, List.map_map]
      exact congrArg₂ _ (filter_indexed _ fun _ => rfl) (filter_indexed _ fun _ => rfl)
  have hvalidation : ((request.validation.elim (notRunEntries .validation request.extraction)
      fun v => issueEntries v.val.issues).map Prod.snd).filter isItem =
      request.validation.elim [] fun v => issueItems v.val.issues := by
    cases request.validation with
    | none => exact filter_notRun _ _
    | some v =>
      rw [Option.elim_some, Option.elim_some, issueEntries, List.map_map]
      exact filter_indexed _ fun _ => rfl
  have hbank : ((request.extraction.elim [] fun e =>
      bankEntries host e (request.vendorBankIban.map Subtype.val)).map Prod.snd).filter isItem =
      [] := by
    cases request.extraction with
    | none => rfl
    | some e => exact filter_bank host e _
  unfold entries items
  simp only [List.map_append, List.filter_append, filter_signal, hmatch, hvalidation, hbank,
    List.nil_append, List.append_nil]

theorem key_nodup {α : Type} {l : List (α × ℕ)} {f : α × ℕ → EvidenceRefData}
    (hl : (l.map Prod.snd).Nodup) (h : ∀ c, (f c).sourceIndex = some c.2) :
    ((l.map f).map fun r => (r.source, r.sourceIndex)).Nodup := by
  rw [List.map_map]
  refine List.Nodup.of_map (fun k : EvidenceSource × Option ℕ => k.2) ?_
  rw [List.map_map]
  have hmap : l.map ((fun k : EvidenceSource × Option ℕ => k.2) ∘
      (fun r : EvidenceRefData => (r.source, r.sourceIndex)) ∘ f) =
      (l.map Prod.snd).map some := by
    rw [List.map_map]
    exact List.map_congr_left fun c _ => h c
  rw [hmap]
  exact hl.map (Option.some_injective _)

/-- No two items have the source and the index. -/
theorem items_nodup (request : TaxonomyRequestData) :
    ((items request).map fun r => (r.source, r.sourceIndex)).Nodup := by
  have hsource : ∀ {α : Type} {l : List (α × ℕ)} {f : α × ℕ → EvidenceRefData}
      {source : EvidenceSource}, (∀ c, (f c).source = source) →
      ∀ k ∈ (l.map f).map (fun r => (r.source, r.sourceIndex)), k.1 = source := by
    intro α l f source h k hk
    rw [List.map_map] at hk
    obtain ⟨c, -, rfl⟩ := List.mem_map.mp hk
    exact h c
  have hmatch : ((request.match.elim [] (fun m =>
      identityItems m.val.identityChecks ++ numericItems m.val.numericChecks)).map
        fun r => (r.source, r.sourceIndex)).Nodup ∧
      ∀ k ∈ (request.match.elim [] (fun m =>
        identityItems m.val.identityChecks ++ numericItems m.val.numericChecks)).map
          (fun r => (r.source, r.sourceIndex)), k.1 ≠ .validation := by
    cases request.match with
    | none => simp
    | some m =>
      have hidentity := hsource (l := m.val.identityChecks.zipIdx.filter fun c =>
        c.1.status ≠ .match) (f := fun c => ⟨.matchIdentity, c.1.field.text,
          c.1.lineNumber.map Subtype.val, some c.2⟩) fun _ => rfl
      have hnumeric := hsource (l := m.val.numericChecks.zipIdx.filter fun c =>
        c.1.val.status ≠ .match) (f := fun c => ⟨.matchNumeric, c.1.val.field.text,
          c.1.val.lineNumber.map Subtype.val, some c.2⟩) fun _ => rfl
      rw [Option.elim_some, List.map_append]
      refine ⟨List.nodup_append.mpr ⟨key_nodup (zipIdx_filter_nodup _ _) fun _ => rfl,
        key_nodup (zipIdx_filter_nodup _ _) fun _ => rfl, fun k hk k' hk' heq => ?_⟩,
        List.forall_mem_append.mpr ⟨fun k hk => ?_, fun k hk => ?_⟩⟩
      · have hne := (hidentity k hk).symm.trans (heq ▸ hnumeric k' hk')
        exact absurd hne (by decide)
      · rw [hidentity k hk]
        decide
      · rw [hnumeric k hk]
        decide
  unfold items
  rw [List.map_append]
  cases request.validation with
  | none => simpa using hmatch.1
  | some v =>
    refine List.nodup_append.mpr ⟨hmatch.1, ?_, fun k hk k' hk' heq => ?_⟩
    · refine key_nodup ?_ fun _ => rfl
      rw [List.zipIdx_map_snd]
      exact List.nodup_range'
    · have hvalidation := hsource (l := v.val.issues.zipIdx) (f := fun issue =>
        ⟨.validation, issue.1.val.field, issue.1.val.lineNumber, some issue.2⟩)
        (fun _ => rfl) k' hk'
      exact hmatch.2 k hk (heq ▸ hvalidation)

/-! ## When a request is classified -/

/-- The field of every issue is short enough for a reference. -/
def ShortFields (request : TaxonomyRequestData) : Prop :=
  ∀ v ∈ request.validation, ∀ issue ∈ v.val.issues, issue.val.field.length ≤ 80

instance : DecidablePred ShortFields :=
  fun _ => inferInstanceAs (Decidable (∀ v ∈ _, _))

theorem length_issueField {field : String} (h : isIssueField field) : 1 ≤ field.length := by
  rw [← String.length_toList]
  unfold isIssueField at h
  cases hfield : field.toList with
  | nil => simp [hfield] at h
  | cons c rest => simp

theorem signal_valid (on : Bool) (code : ExceptionCode) (source : EvidenceSource) {field : String}
    (h : 1 ≤ field.length ∧ field.length ≤ 80) :
    ∀ e ∈ signalEntries on code source field, e.2.Valid := by
  unfold signalEntries
  split_ifs
  · exact List.forall_mem_singleton.mpr ⟨h, by simp⟩
  · simp

theorem notRun_valid (source : EvidenceSource) (extraction : Option InvoiceExtraction) :
    ∀ e ∈ notRunEntries source extraction, e.2.Valid := by
  unfold notRunEntries
  split_ifs
  · exact List.forall_mem_singleton.mpr
      ⟨(by decide : 1 ≤ "not_run".length ∧ "not_run".length ≤ 80), by simp⟩
  · simp

theorem bank_valid (host : Host) (extraction : InvoiceExtraction) (vendor : Option String) :
    ∀ e ∈ bankEntries host extraction vendor, e.2.Valid := by
  have hvalid : ∀ code : Option ExceptionCode,
      ∀ e ∈ [(code, { source := .erp, field := "bank_account_iban" : EvidenceRefData })],
        e.2.Valid := fun code => List.forall_mem_singleton.mpr
    ⟨(by decide : 1 ≤ "bank_account_iban".length ∧ "bank_account_iban".length ≤ 80), by simp⟩
  unfold bankEntries
  split
  · split_ifs
    · exact hvalid none
    · exact hvalid (some .bankChange)
    · simp
  · exact hvalid none

theorem line_valid {source : EvidenceSource} {field : String} {lineNumber : Option LineNumber}
    {index : ℕ} (hfield : 1 ≤ field.length ∧ field.length ≤ 80) :
    EvidenceRefData.Valid ⟨source, field, lineNumber.map Subtype.val, some index⟩ := by
  refine ⟨hfield, fun n hn => ?_⟩
  obtain ⟨m, -, rfl⟩ := Option.map_eq_some_iff.mp hn
  exact m.property

theorem match_valid (result : MatchResultData) : ∀ e ∈ matchEntries result, e.2.Valid := by
  have hidentity : ∀ e ∈ identityEntries result.identityChecks, e.2.Valid := by
    refine List.forall_mem_map.mpr fun c _ => line_valid ?_
    cases c.1.field <;> decide
  have hnumeric : ∀ e ∈ numericEntries result.numericChecks, e.2.Valid := by
    refine List.forall_mem_map.mpr fun c _ => line_valid ?_
    cases c.1.val.field <;> decide
  unfold matchEntries
  simp only [List.forall_mem_append]
  exact ⟨⟨⟨signal_valid _ _ _ (by decide), signal_valid _ _ _ (by decide)⟩, hidentity⟩, hnumeric⟩

/-- Only the field of an issue may be too long. -/
theorem issue_valid_iff (issues : List ValidationIssue) :
    (∀ e ∈ issueEntries issues, e.2.Valid) ↔ ∀ issue ∈ issues, issue.val.field.length ≤ 80 := by
  unfold issueEntries
  rw [List.forall_mem_map]
  constructor
  · intro h issue hissue
    obtain ⟨i, hi⟩ := List.mem_iff_getElem?.mp hissue
    exact (h (issue, i) (List.mk_mem_zipIdx_iff_getElem?.mpr hi)).1.2
  · intro h issue hissue
    have hvalid := issue.1.property
    exact ⟨⟨length_issueField hvalid.1, h issue.1 (List.fst_mem_of_mem_zipIdx hissue)⟩,
      fun n hn => (hvalid.2.1 n hn).1⟩

theorem entries_valid_iff (host : Host) (request : TaxonomyRequestData) :
    (∀ e ∈ entries host request, e.2.Valid) ↔ ShortFields request := by
  have hmatch : ∀ e ∈ request.match.elim (notRunEntries .matchIdentity request.extraction)
      fun m => matchEntries m.val, e.2.Valid := by
    cases request.match with
    | none => exact notRun_valid _ _
    | some m => exact match_valid m.val
  have hbank : ∀ e ∈ request.extraction.elim [] fun e =>
      bankEntries host e (request.vendorBankIban.map Subtype.val), e.2.Valid := by
    cases request.extraction with
    | none => simp
    | some e => exact bank_valid host e _
  have hvalidation : (∀ e ∈ request.validation.elim (notRunEntries .validation request.extraction)
      fun v => issueEntries v.val.issues, e.2.Valid) ↔ ShortFields request := by
    unfold ShortFields
    cases request.validation with
    | none =>
      refine iff_of_true (notRun_valid _ _) ?_
      simp
    | some v => simpa using issue_valid_iff v.val.issues
  unfold entries
  simp only [List.forall_mem_append]
  refine ⟨fun h => hvalidation.mp h.1.2, fun h => ⟨⟨⟨⟨?_, ?_⟩, hmatch⟩, hvalidation.mpr h⟩, hbank⟩⟩
  · exact signal_valid _ _ _ (by decide)
  · exact signal_valid _ _ _ (by decide)

/-! ## When nothing is found -/

/-- An account that is there. -/
def Nonblank (host : Host) (account : String) : Prop :=
  account ≠ "" ∧ iban host account ≠ ""

/-- A request with nothing to find. -/
structure Clean (host : Host) (request : TaxonomyRequestData) (extraction : InvoiceExtraction) :
    Prop where
  exactDuplicate : request.exactDuplicate = false
  nearDuplicate : request.nearDuplicate = false
  stalePo : request.stalePo = false
  «match» : ∃ m ∈ request.match, m.val.status = .pass ∧ m.val.poStatus ≠ some "CLOSED" ∧
    m.val.poStatus ≠ some "CANCELLED"
  validation : ∃ v ∈ request.validation, v.val.status = .pass
  bank : ∃ observed ∈ Match.text? extraction.bankAccountIban, ∃ vendor ∈ request.vendorBankIban,
    Nonblank host observed ∧ Nonblank host vendor.val ∧ iban host observed = iban host vendor.val

theorem signalEntries_eq_nil {on : Bool} {code : ExceptionCode} {source : EvidenceSource}
    {field : String} : signalEntries on code source field = [] ↔ on = false := by
  unfold signalEntries
  split_ifs with h <;> simp [h]

theorem filter_zipIdx_eq_nil {α : Type} {l : List α} {p : α → Bool} :
    (l.zipIdx.filter fun c => p c.1) = [] ↔ ∀ x ∈ l, p x = false := by
  rw [List.filter_eq_nil_iff]
  constructor
  · intro h x hx
    obtain ⟨i, hi⟩ := List.mem_iff_getElem?.mp hx
    exact Bool.eq_false_iff.mpr (h (x, i) (List.mk_mem_zipIdx_iff_getElem?.mpr hi))
  · intro h c hc
    exact Bool.eq_false_iff.mp (h c.1 (List.fst_mem_of_mem_zipIdx hc))

theorem identityEntries_eq_nil {checks : List IdentityCheck} :
    identityEntries checks = [] ↔ ∀ c ∈ checks, c.status = .match := by
  unfold identityEntries
  rw [List.map_eq_nil_iff, filter_zipIdx_eq_nil (p := fun c : IdentityCheck =>
    decide (c.status ≠ .match))]
  simp

theorem numericEntries_eq_nil {checks : List NumericCheck} :
    numericEntries checks = [] ↔ ∀ c ∈ checks, c.val.status = .match := by
  unfold numericEntries
  rw [List.map_eq_nil_iff, filter_zipIdx_eq_nil (p := fun c : NumericCheck =>
    decide (c.val.status ≠ .match))]
  simp

/-- A match passes if its snapshot is there and every check matches. -/
theorem match_pass_iff (result : MatchResult) : result.val.status = .pass ↔
    result.val.snapshotFound = true ∧ ∀ s ∈ result.val.statuses, s = .match := by
  have hcases : ∀ s : CheckStatus, s = .match ↔ s ≠ .mismatch ∧ s ≠ .unknown := by
    intro s
    cases s <;> decide
  have hall : (∀ s ∈ result.val.statuses, s = .match) ↔
      .mismatch ∉ result.val.statuses ∧ .unknown ∉ result.val.statuses := by
    refine ⟨fun h => ⟨fun hm => ?_, fun hu => ?_⟩, fun h s hs => (hcases s).mpr ⟨?_, ?_⟩⟩
    · exact absurd (h _ hm) (by decide)
    · exact absurd (h _ hu) (by decide)
    · exact fun heq => h.1 (heq ▸ hs)
    · exact fun heq => h.2 (heq ▸ hs)
  rw [result.property.2, hall]
  split_ifs with hmismatch hunknown
  · exact iff_of_false (by decide) fun h => h.2.1 hmismatch
  · refine iff_of_false (by decide) fun h => ?_
    rcases hunknown with hfound | hunknown
    · exact absurd h.1 (Bool.eq_false_iff.mp hfound)
    · exact h.2.2 hunknown
  · rw [not_or, Bool.not_eq_false] at hunknown
    exact iff_of_true rfl ⟨hunknown.1, hmismatch, hunknown.2⟩

theorem matchEntries_eq_nil (result : MatchResult) : matchEntries result.val = [] ↔
    result.val.status = .pass ∧ result.val.poStatus ≠ some "CLOSED" ∧
      result.val.poStatus ≠ some "CANCELLED" := by
  unfold matchEntries
  rw [List.append_eq_nil_iff, List.append_eq_nil_iff, List.append_eq_nil_iff, signalEntries_eq_nil,
    signalEntries_eq_nil, identityEntries_eq_nil, numericEntries_eq_nil, match_pass_iff,
    MatchResultData.statuses, List.forall_mem_append, List.forall_mem_map, List.forall_mem_map,
    Bool.not_eq_false', Bool.or_eq_false_iff, decide_eq_false_iff_not, decide_eq_false_iff_not]
  tauto

theorem notRunEntries_ne_nil (source : EvidenceSource) (extraction : InvoiceExtraction) :
    notRunEntries source (some extraction) ≠ [] :=
  List.cons_ne_nil _ _

theorem issueEntries_eq_nil (result : ValidationResult) :
    issueEntries result.val.issues = [] ↔ result.val.status = .pass := by
  unfold issueEntries
  rw [List.map_eq_nil_iff, List.zipIdx_eq_nil_iff]
  exact result.property.symm

theorem bankEntries_eq_nil {host : Host} {extraction : InvoiceExtraction}
    {vendor : Option String} : bankEntries host extraction vendor = [] ↔
      ∃ observed ∈ Match.text? extraction.bankAccountIban, ∃ v ∈ vendor,
        Nonblank host observed ∧ Nonblank host v ∧ iban host observed = iban host v := by
  unfold bankEntries
  cases Match.text? extraction.bankAccountIban with
  | none => simp
  | some observed =>
    cases vendor with
    | none => simp
    | some v =>
      have hblank : (observed = "" ∨ v = "" ∨ iban host observed = "" ∨ iban host v = "") ↔
          ¬(Nonblank host observed ∧ Nonblank host v) := by
        unfold Nonblank
        tauto
      dsimp only
      split_ifs with hb hne
      · refine iff_of_false id ?_
        rintro ⟨_, ⟨⟩, _, ⟨⟩, hobserved, hv, -⟩
        exact hblank.mp hb ⟨hobserved, hv⟩
      · refine iff_of_false id ?_
        rintro ⟨_, ⟨⟩, _, ⟨⟩, -, -, heq⟩
        exact hne heq
      · obtain ⟨hobserved, hv⟩ := not_not.mp (hb ∘ hblank.mpr)
        exact iff_of_true rfl ⟨observed, rfl, v, rfl, hobserved, hv, not_not.mp hne⟩

/-- A request is clean if it is not about an old order and has no evidence. -/
theorem clean_iff {host : Host} {request : TaxonomyRequestData} {extraction : InvoiceExtraction}
    (h : request.extraction = some extraction) :
    Clean host request extraction ↔ request.stalePo = false ∧ entries host request = [] := by
  have hmatch : (request.match.elim (notRunEntries .matchIdentity request.extraction)
      fun m => matchEntries m.val) = [] ↔ ∃ m ∈ request.match, m.val.status = .pass ∧
        m.val.poStatus ≠ some "CLOSED" ∧ m.val.poStatus ≠ some "CANCELLED" := by
    rw [h]
    cases request.match with
    | none => exact iff_of_false (notRunEntries_ne_nil _ _) (by simp)
    | some m => simpa using matchEntries_eq_nil m
  have hvalidation : (request.validation.elim (notRunEntries .validation request.extraction)
      fun v => issueEntries v.val.issues) = [] ↔ ∃ v ∈ request.validation,
        v.val.status = .pass := by
    rw [h]
    cases request.validation with
    | none => exact iff_of_false (notRunEntries_ne_nil _ _) (by simp)
    | some v => simpa using issueEntries_eq_nil v
  have hbank : (request.extraction.elim [] fun e =>
      bankEntries host e (request.vendorBankIban.map Subtype.val)) = [] ↔
      ∃ observed ∈ Match.text? extraction.bankAccountIban, ∃ vendor ∈ request.vendorBankIban,
        Nonblank host observed ∧ Nonblank host vendor.val ∧
          iban host observed = iban host vendor.val := by
    rw [h, Option.elim_some, bankEntries_eq_nil]
    cases request.vendorBankIban with
    | none => simp
    | some v => simp
  unfold entries
  rw [List.append_eq_nil_iff, List.append_eq_nil_iff, List.append_eq_nil_iff,
    List.append_eq_nil_iff, signalEntries_eq_nil, signalEntries_eq_nil, hmatch, hvalidation, hbank]
  constructor
  · intro c
    exact ⟨c.stalePo, ⟨⟨⟨c.exactDuplicate, c.nearDuplicate⟩, c.match⟩, c.validation⟩, c.bank⟩
  · rintro ⟨hstale, ⟨⟨⟨hexact, hnear⟩, hm⟩, hv⟩, hb⟩
    exact ⟨hexact, hnear, hstale, hm, hv, hb⟩

/-! ## A classification -/

/-- The evidence that an order is old, where nothing else says so. -/
def staleEntries (stale : Bool) (findings : List ExceptionFinding) : List Entry :=
  signalEntries (stale && !findings.any fun f => f.code = .stalePo) .stalePo .policy "stale_po"

/-- A result of the notes of all the entries. -/
structure Classified (host : Host) (request : TaxonomyRequestData) (result : TaxonomyResultData)
    (ns old : List Note) : Prop where
  noted : (entries host request).mapM noteEntry = .ok ns
  notedOld : (staleEntries request.stalePo (ns.filterMap Note.finding?)).mapM noteEntry = .ok old
  findings : result.findings = ns.filterMap Note.finding? ++ old.filterMap Note.finding?
  unresolved : result.unresolved = ns.filterMap Note.unresolved?

theorem classified {host : Host} {request : TaxonomyRequest host}
    {config : Option TaxonomyConfig} {result : TaxonomyResult}
    (h : classifyExceptions host request config = .ok result) :
    ∃ ns old, Classified host request.val result.val ns old := by
  unfold classifyExceptions at h
  obtain ⟨ns, hns, h⟩ := bind_eq_ok.mp h
  obtain ⟨old, hold, h⟩ := bind_eq_ok.mp h
  unfold construct at h
  split_ifs at h
  rw [← Except.ok.inj h]
  exact ⟨ns, old, (notes_eq host request.val).symm.trans hns,
    (signal_eq _ _ _ _).symm.trans hold, rfl, rfl⟩

/-- A request has a result unless a reference is refused. -/
theorem classify_ok_iff (host : Host) (request : TaxonomyRequest host)
    (config : Option TaxonomyConfig) :
    (∃ result, classifyExceptions host request config = .ok result) ↔ ShortFields request.val := by
  rw [← entries_valid_iff host, ← notes_ok_iff]
  constructor
  · rintro ⟨result, h⟩
    obtain ⟨ns, old, hclassified⟩ := classified h
    exact ⟨ns, hclassified.noted⟩
  · rintro ⟨ns, hns⟩
    have hvalid := signal_valid
      (request.val.stalePo && !(ns.filterMap Note.finding?).any fun f => f.code = .stalePo)
      .stalePo .policy (by decide : 1 ≤ "stale_po".length ∧ "stale_po".length ≤ 80)
    obtain ⟨old, hold⟩ := notes_ok_iff.mpr hvalid
    unfold classifyExceptions
    dsimp only
    rw [notes_eq, hns, ok_bind, signal_eq, hold, ok_bind]
    exact ⟨_, construct_eq ⟨rfl, rfl⟩⟩

section

variable {host : Host} {request : TaxonomyRequestData} {result : TaxonomyResultData}
  {ns old : List Note}

/-- An old order is a finding, and not one of an item. -/
theorem Classified.old_eq (h : Classified host request result ns old) :
    ((old.filterMap Note.finding?).map fun f => f.evidence.val).filter isItem = [] ∧
      old.filterMap Note.unresolved? = [] := by
  have hold := h.notedOld
  unfold staleEntries signalEntries at hold
  split_ifs at hold
  · obtain ⟨n, hn, hold⟩ := bind_eq_ok.mp hold
    obtain ⟨evidence, hevidence, hn'⟩ := bind_eq_ok.mp hn
    rw [← Except.ok.inj hold]
    have hval := note_eq_ok hn
    rw [← Except.ok.inj hn'] at hval ⊢
    change evidence.val = _ at hval
    simp [Note.finding?, Note.unresolved?, hval, isItem]
  · rw [← Except.ok.inj hold]
    exact ⟨rfl, rfl⟩

/-- The references with an index are those of the items. -/
theorem Classified.references_perm (h : Classified host request result ns old) :
    ((references result).filter isItem).Perm (items request) := by
  have hnotes := (split_perm ns).filter isItem
  rw [map_evidence h.noted, filter_entries, List.filter_append] at hnotes
  unfold references
  rw [h.findings, h.unresolved, List.map_append, List.filter_append, List.filter_append,
    h.old_eq.1, List.append_nil]
  exact hnotes

theorem Classified.clean_iff (h : Classified host request result ns old)
    (hvalid : result.Valid) {extraction : InvoiceExtraction}
    (hextraction : request.extraction = some extraction) :
    result.status = .clean ↔ Clean host request extraction := by
  have hstatus : result.status = .clean ↔ result.findings = [] ∧ result.unresolved = [] := by
    rw [hvalid.2]
    unfold statusOf
    split_ifs with hfindings hunresolved
    · exact iff_of_false (by decide) fun hnil => hfindings hnil.1
    · exact iff_of_false (by decide) fun hnil => hunresolved hnil.2
    · exact iff_of_true rfl ⟨not_not.mp hfindings, not_not.mp hunresolved⟩
  have hnotes : ns = [] ↔ entries host request = [] := by
    have hlength := (forall₂_of_mapM h.noted).length_eq
    rw [← List.length_eq_zero_iff, ← List.length_eq_zero_iff, hlength]
  have hold : ns.filterMap Note.finding? = [] →
      (old.filterMap Note.finding? = [] ↔ request.stalePo = false) := by
    intro hnil
    have hentries := h.notedOld
    rw [hnil, staleEntries, List.any_nil, Bool.not_false, Bool.and_true] at hentries
    have hlength := (forall₂_of_mapM hentries).length_eq
    have hsplit := @split_eq_nil old
    rw [and_iff_left h.old_eq.2] at hsplit
    rw [hsplit, ← @signalEntries_eq_nil request.stalePo .stalePo .policy "stale_po",
      ← List.length_eq_zero_iff, ← List.length_eq_zero_iff, hlength]
  rw [hstatus, Taxonomy.clean_iff hextraction, h.findings, h.unresolved, List.append_eq_nil_iff,
    ← hnotes, ← split_eq_nil]
  constructor
  · rintro ⟨⟨hfindings, holdNil⟩, hunresolved⟩
    exact ⟨(hold hfindings).mp holdNil, hfindings, hunresolved⟩
  · rintro ⟨hstale, hfindings, hunresolved⟩
    exact ⟨⟨hfindings, (hold hfindings).mpr hstale⟩, hunresolved⟩

end

theorem mem_codesOf {findings : List ExceptionFinding} {code : ExceptionCode} :
    code ∈ codesOf findings ↔ ∃ f ∈ findings, f.code = code := by
  have horder : code ∈ ExceptionCode.order := by
    cases code <;> decide
  unfold codesOf
  rw [List.mem_filter, List.any_eq_true]
  simp [horder]

/-! ## A long field -/

/-- An issue whose field has 81 letters. -/
def longIssue : ValidationIssue :=
  ⟨{ code := .requiredField, field := String.ofList (List.replicate 81 'a') }, by decide +kernel⟩

/-- A validation with that issue. -/
def longValidation (host : Host) : ValidationResult :=
  ⟨{ status := .fail
     inputSha256 := host.modelDigest (InvoiceExtraction.codec host) InvoiceExtraction.unread
     configSha256 := host.modelDigest ValidationConfig.codec .default
     config := .default
     issues := [longIssue] },
    iff_of_false ValidationStatus.noConfusion (List.cons_ne_nil _ _)⟩

/-- A request with that validation. -/
def longRequest (host : Host) : TaxonomyRequest host :=
  ⟨{ runId := 1
     invoiceId := 2
     traceId := ⟨"0123456789abcdef0123456789abcdef", by decide⟩
     extraction := some InvoiceExtraction.unread
     validation := some (longValidation host) },
    fun v hv => by rw [← Option.some.inj hv]; rfl, fun _ hm => by cases hm⟩

end Taxonomy

/-- A classification has every item of the checks once, under the codes it found, and is clean only
if there is nothing to find. -/
theorem classify_exceptions_exact (host : Host) (request : TaxonomyRequest host)
    (config : Option TaxonomyConfig) :
    ((∃ result, classifyExceptions host request config = .ok result) ↔
      Taxonomy.ShortFields request.val) ∧
    ((Taxonomy.items request.val).map fun r => (r.source, r.sourceIndex)).Nodup ∧
    ∀ result, classifyExceptions host request config = .ok result →
      ((Taxonomy.references result.val).filter Taxonomy.isItem).Perm
        (Taxonomy.items request.val) ∧
      result.val.codes.Sublist ExceptionCode.order ∧
      (∀ code, code ∈ result.val.codes ↔ ∃ f ∈ result.val.findings, f.code = code) ∧
      ∀ extraction, request.val.extraction = some extraction →
        (result.val.status = .clean ↔ Taxonomy.Clean host request.val extraction) := by
  refine ⟨Taxonomy.classify_ok_iff host request config, Taxonomy.items_nodup request.val,
    fun result hresult => ?_⟩
  obtain ⟨ns, old, hclassified⟩ := Taxonomy.classified hresult
  refine ⟨hclassified.references_perm, ?_, fun code => ?_, fun extraction hextraction => ?_⟩
  · rw [result.property.1]
    exact List.filter_sublist
  · rw [result.property.1]
    exact Taxonomy.mem_codesOf
  · exact hclassified.clean_iff result.property hextraction

/-- A request with a long field has no result. -/
theorem longRequest_refused : ¬∀ (host : Host) (request : TaxonomyRequest host)
    (config : Option TaxonomyConfig),
    ∃ result, classifyExceptions host request config = .ok result := by
  intro h
  have hshort := (Taxonomy.classify_ok_iff .sample (Taxonomy.longRequest .sample) none).mp
    (h .sample (Taxonomy.longRequest .sample) none)
  have hlong : Taxonomy.longIssue.val.field.length = 81 := by decide +kernel
  have hfield := hshort (Taxonomy.longValidation .sample) rfl Taxonomy.longIssue
    (List.mem_singleton_self _)
  omega

end InvoiceOps
