import InvoiceOps.Similarity

/-!
# Near duplicates never both escape

Two invoices are `Alike` if they are embedded by the same model and have the same identities. At
each moment, of two that are alike and similar enough, the later of their last detections has
flagged its invoice (`SimilarityInv.flagged`).

A detection looks at the nearest invoice only, and stores its own embedding after the search. That
is enough for two reasons : similarity, as it is rounded, decreases with the distance
(`chooseCandidate_flags`), and under the lock of the model no other invoice gets an embedding of
that model between the search and the commit (`Right.becomes`).
-/

set_option linter.unusedSectionVars false

open Shared ReadCommitted

namespace InvoiceOps

/-! ## The search -/

/-- One distance is a number, and no larger than the other. -/
def Closer (x y : Option Decimal) : Prop :=
  ∀ b ∈ y, ∃ a ∈ x, a.value ≤ b.value

/-- Every distance is as close as itself. -/
theorem Closer.refl (x : Option Decimal) : Closer x x :=
  fun b hb => ⟨b, hb, le_refl _⟩

/-- Closeness is transitive. -/
theorem Closer.trans {x y z : Option Decimal} (h : Closer x y) (h' : Closer y z) : Closer x z := by
  intro c hc
  obtain ⟨b, hb, hbc⟩ := h' c hc
  obtain ⟨a, ha, hab⟩ := h b hb
  exact ⟨a, ha, hab.trans hbc⟩

/-- Of two rows one comes before the other, and is as close. -/
theorem before_cases (r s : Neighbour) :
    (r.before s = true ∧ Closer r.distance s.distance) ∨
      (r.before s = false ∧ Closer s.distance r.distance) := by
  unfold Neighbour.before Closer
  cases hr : r.distance with
  | none => cases hs : s.distance <;> simp [le_or_gt]
  | some x =>
    cases hs : s.distance with
    | none => simp
    | some y =>
      rcases lt_trichotomy x.value y.value with h | h | h
      · simp [h, h.le]
      · simp [h, le_or_gt]
      · simp [h.le, h.ne', not_lt.mpr h.le]

/-- The nearest row is one of the rows, and none is closer. -/
theorem nearest_spec (rows : List Neighbour) :
    (nearest rows = none ∧ rows = []) ∨
      ∃ r ∈ rows, nearest rows = some r ∧ ∀ s ∈ rows, Closer r.distance s.distance := by
  induction rows with
  | nil => exact .inl ⟨rfl, rfl⟩
  | cons r rows ih =>
    right
    rcases ih with ⟨hnone, rfl⟩ | ⟨s, hs, hsome, hclosest⟩
    · refine ⟨r, by simp, by simp [nearest], ?_⟩
      simpa using Closer.refl r.distance
    · rcases before_cases r s with ⟨hbefore, hcloser⟩ | ⟨hbefore, hcloser⟩
      · refine ⟨r, by simp, by simp [nearest, hsome, hbefore], fun t ht => ?_⟩
        rcases List.mem_cons.mp ht with rfl | ht
        · exact Closer.refl _
        · exact hcloser.trans (hclosest t ht)
      · refine ⟨s, by simp [hs], by simp [nearest, hsome, hbefore], fun t ht => ?_⟩
        rcases List.mem_cons.mp ht with rfl | ht
        · exact hcloser
        · exact hclosest t ht

/-- A row that is no farther than one that is similar enough is a candidate, and as similar. -/
theorem chooseCandidate_flags {ctx : Decimal.Context} {config : SimilarityConfig}
    (hprec : 1 ≤ ctx.prec) {row : Neighbour} {distance similarity : Decimal}
    (hcloser : Closer row.distance (some distance))
    (hsub : (ctx.sub .one distance : Except Exn Decimal) = .ok similarity)
    (hmin : config.minimumCosineSimilarity.val.value ≤ similarity.value)
    {candidate : Option SimilarityCandidate}
    (h : chooseCandidate ctx config row = .ok candidate) :
    ∃ c ∈ candidate, similarity.value ≤ c.cosineSimilarity.val.value ∧ c.invoiceId = row.id := by
  obtain ⟨x, hx, hle⟩ := hcloser distance rfl
  unfold chooseCandidate at h
  rw [hx] at h
  obtain ⟨found, hfound, h⟩ := bind_eq_ok.mp h
  have hsimilar : similarity.value ≤ found.value := by
    rw [Decimal.Context.value_of_sub hprec hsub, Decimal.Context.value_of_sub hprec hfound]
    exact ctx.round_mono hprec (sub_le_sub_left hle _)
  split_ifs at h with hrange hlow
  · exact absurd (hmin.trans hsimilar) (not_le.mpr hlow)
  · cases h
    exact ⟨_, rfl, hsimilar, rfl⟩

/-- A candidate is the row that was chosen. -/
theorem chooseCandidate_id {ctx : Decimal.Context} {config : SimilarityConfig} {row : Neighbour}
    {candidate : Option SimilarityCandidate}
    (h : chooseCandidate ctx config row = .ok candidate) :
    ∀ c ∈ candidate, c.invoiceId = row.id := by
  unfold chooseCandidate at h
  cases hdistance : row.distance with
  | none => simp [hdistance] at h
  | some distance =>
    rw [hdistance] at h
    obtain ⟨found, -, h⟩ := bind_eq_ok.mp h
    split_ifs at h <;> cases h <;> simp

/-! ## Invoices that are alike -/

section

variable {host : VectorHost}

/-- Two invoices embedded by one model, with the same identities. -/
structure Alike (a b : SimilarityRow host) (v w : Embedding host) : Prop where
  left : a.embedding = some v
  right : b.embedding = some w
  model : v.modelVersion = w.modelVersion
  number : a.invoiceNumber.isSome ∧ b.invoiceNumber = a.invoiceNumber
  po : a.poNumber.isSome ∧ b.poNumber = a.poNumber

/-- Being alike does not depend on the order. -/
theorem Alike.symm {a b : SimilarityRow host} {v w : Embedding host} (h : Alike a b v w) :
    Alike b a w v :=
  ⟨h.right, h.left, h.model.symm, ⟨by rw [h.number.2]; exact h.number.1, h.number.2.symm⟩,
    ⟨by rw [h.po.2]; exact h.po.1, h.po.2.symm⟩⟩

/-- An invoice that is alike is compared. -/
theorem mem_comparable {d : SimilarityDb host} {a b : SimilarityRow host} {v w : Embedding host}
    (h : Alike a b v w) (hb : b ∈ d.invoices) (hne : b.id ≠ a.id) :
    ⟨b.id, host.cosineDistance v.vector.val w.vector.val⟩ ∈
      d.comparable a.id v a.invoiceNumber a.poNumber :=
  List.mem_filterMap.mpr ⟨b, hb, by
    rw [h.right]
    exact if_pos ⟨hne, h.model.symm, h.number, h.po⟩⟩

/-- An invoice is never compared with itself. -/
theorem comparable_ne {d : SimilarityDb host} {id : Uuid} {v : Embedding host}
    {invoiceNumber poNumber : Option String} {r : Neighbour}
    (h : r ∈ d.comparable id v invoiceNumber poNumber) : r.id ≠ id := by
  obtain ⟨row, -, hr⟩ := List.mem_filterMap.mp h
  split at hr
  · cases hr
  · split_ifs at hr with hcond
    cases hr
    exact hcond.1

end

/-- The event flags its invoice, with a similarity of at least `s`. -/
def SimilarityResult.Flags (result : SimilarityResult) (s : Decimal) : Prop :=
  result.status = .nearDuplicate ∧
    ∃ c ∈ result.candidate, s.value ≤ c.cosineSimilarity.val.value

namespace NearDuplicateAgent

variable (agent : NearDuplicateAgent)

/-- The similarity of two embeddings, as it is computed. -/
def similarity (v w : Embedding agent.vectors) : Option Decimal :=
  (agent.vectors.cosineDistance v.vector.val w.vector.val).bind fun distance =>
    (agent.ctx.sub .one distance : Except Exn Decimal).toOption

/-- Similarity does not depend on the order. -/
theorem similarity_comm (v w : Embedding agent.vectors) :
    agent.similarity v w = agent.similarity w v := by
  rw [similarity, similarity, agent.vectors.cosineDistance_comm]

/-- A result for `row`, with the embedding `v`, that is right about the other invoices : it flags
`row` if one of them is alike and similar enough. -/
structure Right (invoices : List (SimilarityRow agent.vectors)) (row : SimilarityRow agent.vectors)
    (result : SimilarityResult) : Prop where
  flags : ∀ b ∈ invoices, b.id ≠ row.id → ∀ v w, Alike row b v w → ∀ s,
    agent.similarity v w = some s →
    result.config.minimumCosineSimilarity.val.value ≤ s.value → result.Flags s
  other : ∀ c ∈ result.candidate, c.invoiceId ≠ row.id

variable {agent}

/-- The result of a search is right about the invoices it searched. -/
theorem right_of_search {x : SimilarityRequest} {d : SimilarityDb agent.vectors}
    {gateway : GatewayResult (List (List agent.vectors.Coordinate))}
    {embedding : Embedding agent.vectors}
    {candidate : { c : Option SimilarityCandidate // ∀ candidate ∈ c,
      x.config.minimumCosineSimilarity.val.value ≤ candidate.cosineSimilarity.val.value }}
    (h : agent.candidateOf x
      (nearest (d.comparable x.invoiceId embedding x.invoiceIdentity x.poIdentity)) =
        .ok candidate) :
    agent.Right d.invoices (x.row embedding) (agent.result x gateway embedding candidate) := by
  have hmem {b : SimilarityRow agent.vectors} {w : Embedding agent.vectors}
      (hb : b ∈ d.invoices) (hne : b.id ≠ x.invoiceId)
      (halike : Alike (x.row embedding) b embedding w) :
      ⟨b.id, agent.vectors.cosineDistance embedding.vector.val w.vector.val⟩ ∈
        d.comparable x.invoiceId embedding x.invoiceIdentity x.poIdentity :=
    mem_comparable halike hb hne
  rcases nearest_spec (d.comparable x.invoiceId embedding x.invoiceIdentity x.poIdentity) with
    ⟨hnone, hnil⟩ | ⟨r, hr, hsome, hclosest⟩
  · rw [hnone] at h
    obtain rfl := Except.ok.inj h
    refine ⟨fun b hb hne v w halike => ?_, by simp [result]⟩
    obtain rfl : embedding = v := Option.some.inj halike.left
    have := hmem hb hne halike
    rw [hnil] at this
    cases this
  · rw [hsome] at h
    obtain ⟨c, hc, rfl⟩ : ∃ c, ∃ hc : chooseCandidate agent.ctx x.config r = .ok c,
        candidate = ⟨c, chooseCandidate_meets hc⟩ := by
      unfold candidateOf at h
      dsimp only at h
      split at h
      · exact ⟨_, ‹_›, (Except.ok.inj h).symm⟩
      · cases h
    refine ⟨fun b hb hne v w halike s hs hmin => ?_, fun found hfound => ?_⟩
    · obtain rfl : embedding = v := Option.some.inj halike.left
      obtain ⟨distance, hdistance, hsub⟩ := Option.bind_eq_some_iff.mp hs
      have hcloser := hclosest _ (hmem hb hne halike)
      dsimp only at hcloser
      rw [hdistance] at hcloser
      have hsub : (agent.ctx.sub .one distance : Except Exn Decimal) = .ok s := by
        cases hd : (agent.ctx.sub .one distance : Except Exn Decimal) with
        | error e => simp [hd, Except.toOption] at hsub
        | ok t => simpa [hd, Except.toOption] using hsub
      obtain ⟨found, hfound, hsimilar, -⟩ :=
        chooseCandidate_flags agent.prec_pos hcloser hsub hmin hc
      refine ⟨?_, found, hfound, hsimilar⟩
      obtain rfl : c = some found := hfound
      rfl
    · rw [chooseCandidate_id hc found hfound]
      exact comparable_ne hr

end NearDuplicateAgent

/-! ## The invariant -/

section

variable {host : VectorHost}

/-- The last detection of an invoice. -/
def SimilarityDb.latest? (d : SimilarityDb host) (id : Uuid) : Option SimilarityEvent :=
  (d.ledger.filter fun event => event.invoiceId = id).getLast?

/-- The latest event of an invoice is the last one about it. -/
theorem latest?_of_split {d : SimilarityDb host} {before after : List SimilarityEvent}
    {event : SimilarityEvent} (h : d.ledger = before ++ event :: after)
    (hafter : ∀ e ∈ after, e.invoiceId ≠ event.invoiceId) :
    d.latest? event.invoiceId = some event := by
  have hnil : after.filter (fun e => e.invoiceId = event.invoiceId) = [] :=
    List.filter_eq_nil_iff.mpr fun e he => by simpa using hafter e he
  rw [SimilarityDb.latest?, h, List.filter_append, List.filter_cons, if_pos (by simp), hnil]
  simp

end

/-- The last member of a list with a property. -/
theorem exists_last {α : Type} {p : α → Prop} [DecidablePred p] (l : List α) (h : ∃ a ∈ l, p a) :
    ∃ before a after, l = before ++ a :: after ∧ p a ∧ ∀ b ∈ after, ¬p b := by
  induction l with
  | nil => simp at h
  | cons a l ih =>
    by_cases hl : ∃ b ∈ l, p b
    · obtain ⟨before, b, after, rfl, hb, hafter⟩ := ih hl
      exact ⟨a :: before, b, after, rfl, hb, hafter⟩
    · push Not at hl
      obtain ⟨b, hb, hpb⟩ := h
      rcases List.mem_cons.mp hb with rfl | hb
      · exact ⟨[], b, l, rfl, hpb, hl⟩
      · exact absurd hpb (hl b hb)

/-- Between detections : an embedding is that of the last detection of its invoice, and of two
invoices that are alike and similar enough the later of their last detections has flagged its
invoice. -/
structure SimilarityInv (agent : NearDuplicateAgent) (d : SimilarityDb agent.vectors) : Prop where
  ids : (d.invoices.map SimilarityRow.id).Nodup
  stored : ∀ row ∈ d.invoices,
    row.embedding.map (fun v => (agent.vectors.digest v.vector.val, v.modelVersion.val)) =
      (d.latest? row.id).map fun e => (e.result.embeddingSha256, e.result.modelVersion.val)
  flagged : ∀ (before : List SimilarityEvent) (event : SimilarityEvent)
    (after : List SimilarityEvent), d.ledger = before ++ event :: after →
    (∀ e ∈ after, e.invoiceId ≠ event.invoiceId) →
    ∀ a ∈ d.invoices, a.id = event.invoiceId → ∀ b ∈ d.invoices, b.id ≠ a.id →
    (∀ e ∈ after, e.invoiceId ≠ b.id) → ∀ v w, Alike a b v w → ∀ s, agent.similarity v w = some s →
    event.result.config.minimumCosineSimilarity.val.value ≤ s.value → event.result.Flags s
  other : ∀ event ∈ d.ledger, ∀ c ∈ event.result.candidate, c.invoiceId ≠ event.invoiceId

namespace SimilarityInv

variable {agent : NearDuplicateAgent} {d : SimilarityDb agent.vectors}

/-- Of two invoices that are alike, the last detection of one has flagged it if their similarity
reaches its threshold. -/
theorem never_both (h : SimilarityInv agent d) {a b : SimilarityRow agent.vectors}
    (ha : a ∈ d.invoices) (hb : b ∈ d.invoices) (hne : b.id ≠ a.id)
    {v w : Embedding agent.vectors} (halike : Alike a b v w) {s : Decimal}
    (hs : agent.similarity v w = some s) :
    ∃ event, (d.latest? a.id = some event ∨ d.latest? b.id = some event) ∧
      (event.result.config.minimumCosineSimilarity.val.value ≤ s.value → event.result.Flags s) := by
  have hsome : ∃ event ∈ d.ledger, event.invoiceId = a.id ∨ event.invoiceId = b.id := by
    have hstored := h.stored a ha
    rw [halike.left] at hstored
    cases hlatest : d.latest? a.id with
    | none => simp [hlatest] at hstored
    | some event =>
      have hmem := List.mem_of_getLast? hlatest
      simp only [List.mem_filter, decide_eq_true_eq] at hmem
      exact ⟨event, hmem.1, .inl hmem.2⟩
  obtain ⟨before, event, after, hsplit, hevent, hafter⟩ := exists_last d.ledger hsome
  have hnota : ∀ e ∈ after, e.invoiceId ≠ a.id := fun e he hid => hafter e he (.inl hid)
  have hnotb : ∀ e ∈ after, e.invoiceId ≠ b.id := fun e he hid => hafter e he (.inr hid)
  rcases hevent with hid | hid
  · refine ⟨event, .inl (hid ▸ latest?_of_split hsplit (by rwa [hid])), fun hmin => ?_⟩
    exact h.flagged before event after hsplit (by rwa [hid]) a ha hid.symm b hb hne hnotb v w halike
      s hs hmin
  · refine ⟨event, .inr (hid ▸ latest?_of_split hsplit (by rwa [hid])), fun hmin => ?_⟩
    exact h.flagged before event after hsplit (by rwa [hid]) b hb hid.symm a ha hne.symm hnota w v
      halike.symm s (agent.similarity_comm v w ▸ hs) hmin

/-- The database after a detection. -/
def detected (d : SimilarityDb agent.vectors) (row : SimilarityRow agent.vectors)
    (event : SimilarityEvent) : SimilarityDb agent.vectors :=
  ⟨replace SimilarityRow.id d.invoices row, d.ledger ++ [event]⟩

/-- A detection is the latest event of its own invoice, and of no other. -/
theorem latest?_detected {row : SimilarityRow agent.vectors} {event : SimilarityEvent} (id : Uuid) :
    (detected d row event).latest? id =
      if event.invoiceId = id then some event else d.latest? id := by
  unfold SimilarityDb.latest? detected
  rw [List.filter_append]
  by_cases h : event.invoiceId = id
  · simp [h]
  · simp [h]

/-- A detection that is right about the other invoices keeps the invariant. -/
theorem detect (h : SimilarityInv agent d) {row : SimilarityRow agent.vectors}
    {event : SimilarityEvent} {v : Embedding agent.vectors} (hid : event.invoiceId = row.id)
    (hembedding : row.embedding = some v)
    (hdigest : event.result.embeddingSha256 = agent.vectors.digest v.vector.val)
    (hmodel : event.result.modelVersion.val = v.modelVersion.val)
    (hright : agent.Right d.invoices row event.result) :
    SimilarityInv agent (detected d row event) where
  ids := by
    have hids : (replace SimilarityRow.id d.invoices row).map SimilarityRow.id =
        d.invoices.map SimilarityRow.id := by
      simp [replace, Function.comp_def, key_ite]
    rw [detected, hids]
    exact h.ids
  stored r hr := by
    rw [latest?_detected, hid]
    rcases mem_replace.mp hr with ⟨hr, hne⟩ | ⟨rfl, -⟩
    · rw [if_neg fun heq => hne heq.symm]
      exact h.stored r hr
    · rw [if_pos rfl, hembedding]
      simp [hdigest, hmodel]
  flagged before e after hsplit hafter a ha haid b hb hne hafterb u w halike s hs hmin := by
    -- whether the event is the new one, or the rows are the old ones
    rcases List.eq_nil_or_concat after with rfl | ⟨after', last, rfl⟩
    · obtain ⟨-, heq⟩ := List.append_inj' hsplit rfl
      obtain rfl : event = e := (List.cons.inj heq).1
      rcases mem_replace.mp ha with ⟨-, hane⟩ | ⟨rfl, -⟩
      · exact absurd (haid.trans hid) hane
      · rcases mem_replace.mp hb with ⟨hb, -⟩ | ⟨rfl, -⟩
        · exact hright.flags b hb hne u w halike s hs hmin
        · exact absurd rfl hne
    · have hconcat : d.ledger ++ [event] = (before ++ e :: after') ++ [last] := by
        rw [show d.ledger ++ [event] = (detected d row event).ledger from rfl, hsplit]
        simp
      obtain ⟨hledger, hlast⟩ := List.append_inj' hconcat rfl
      obtain rfl : event = last := (List.cons.inj hlast).1
      have hlaste : row.id ≠ e.invoiceId := by
        rw [← hid]
        exact hafter event (by simp)
      have hlastb : row.id ≠ b.id := by
        rw [← hid]
        exact hafterb event (by simp)
      rcases mem_replace.mp ha with ⟨ha, -⟩ | ⟨rfl, -⟩
      · rcases mem_replace.mp hb with ⟨hb, -⟩ | ⟨rfl, -⟩
        · exact h.flagged before e after' hledger
            (fun e' he' => hafter e' (by simp [he'])) a ha haid b hb hne
            (fun e' he' => hafterb e' (by simp [he'])) u w halike s hs hmin
        · exact absurd rfl hlastb
      · exact absurd haid hlaste
  other e he c hc := by
    rcases List.mem_append.mp he with he | he
    · exact h.other e he c hc
    · obtain rfl := List.mem_singleton.mp he
      rw [hid]
      exact hright.other c hc

end SimilarityInv

/-! ## The discipline -/

/-- The lock of a model. -/
def modelLock {host : VectorHost} (v : Embedding host) : SimilarityLock :=
  .model (host.hashtext v.modelVersion.val)

/-- An embedding is stored under the locks of its invoice and of its model. -/
def similarityDiscipline (host : VectorHost) :
    Discipline (SimilarityWrite host) SimilarityLock where
  locks
    | .setEmbedding row => .invoiceRow row.id :: row.embedding.toList.map modelLock
    | .insertEvent event => [.invoiceRow event.invoiceId]

section

variable {agent : NearDuplicateAgent}

/-- Under the lock of its model, what is right about the other invoices stays so : no other invoice
gets an embedding of that model. -/
theorem NearDuplicateAgent.Right.becomes {ls : List SimilarityLock}
    {d d' : SimilarityDb agent.vectors} {row : SimilarityRow agent.vectors}
    {v : Embedding agent.vectors} {result : SimilarityResult}
    (h : agent.Right d.invoices row result) (hv : row.embedding = some v)
    (hd : Evolved (similaritySchema agent.vectors) (similarityDiscipline agent.vectors) ls d d')
    (hl : modelLock v ∈ ls) : agent.Right d'.invoices row result := by
  have hkept : ∀ b ∈ d'.invoices, ∀ w, b.embedding = some w → w.modelVersion = v.modelVersion →
      b ∈ d.invoices := by
    refine hd.kept (p := fun d' => ∀ b ∈ d'.invoices, ∀ w, b.embedding = some w →
      w.modelVersion = v.modelVersion → b ∈ d.invoices) (fun d₁ write hfree hp => ?_)
      fun b hb _ _ _ => hb
    cases write with
    | insertEvent event => exact hp
    | setEmbedding r =>
      intro b hb w hw hmodel
      rcases mem_replace.mp hb with ⟨hb, -⟩ | ⟨rfl, -⟩
      · exact hp b hb w hw hmodel
      · refine absurd ?_ (hfree _ hl)
        simp [similarityDiscipline, hw, modelLock, hmodel]
  refine ⟨fun b hb hne u w halike => ?_, h.other⟩
  obtain rfl : v = u := Option.some.inj (hv.symm.trans halike.left)
  exact h.flags b (hkept b hb w halike.right halike.model.symm) hne v w halike

end

/-! ## The rule of a detection -/

/-- What an event records of a detection. -/
structure SimilarityRequest.Records (x : SimilarityRequest) (agent : NearDuplicateAgent)
    (v : Embedding agent.vectors) (event : SimilarityEvent) : Prop where
  runId : event.runId = x.runId
  invoiceId : event.invoiceId = x.invoiceId
  extraction : event.result.extractionSha256 =
    agent.host.modelDigest (InvoiceExtraction.codec agent.host) x.extraction
  embedding : event.result.embeddingSha256 = agent.vectors.digest v.vector.val
  model : event.result.modelVersion.val = v.modelVersion.val
  config : event.result.config = x.config

section

variable {ι : Type} [DecidableEq ι] {agent : NearDuplicateAgent} {x : SimilarityRequest} {i : ι}
  {g entry : Server ι (SimilarityDb agent.vectors) (SimilarityWrite agent.vectors) SimilarityLock}
  {d₀ : SimilarityDb agent.vectors} {wrote : List (SimilarityWrite agent.vectors)}
  {v : Embedding agent.vectors}

/-- The sessions of the detections. -/
abbrev detectOperations (ι : Type) (agent : NearDuplicateAgent) : Protocol ι
    (Server ι (SimilarityDb agent.vectors) (SimilarityWrite agent.vectors) SimilarityLock) :=
  protocol (similaritySchema agent.vectors) (similarityDiscipline agent.vectors)
    (SimilarityInv agent)

/-- What the session of a detection knows. -/
abbrev DetectKnows (agent : NearDuplicateAgent) (i : ι)
    (session : Session (SimilarityWrite agent.vectors)) (ls : List SimilarityLock)
    (d : SimilarityDb agent.vectors)
    (g : Server ι (SimilarityDb agent.vectors) (SimilarityWrite agent.vectors) SimilarityLock) :
    Prop :=
  At (similaritySchema agent.vectors) (similarityDiscipline agent.vectors) i session [] ls d g

/-- How a detection ends : it has committed the embedding with its event, or nothing. -/
def SimilarityRequest.Ends (x : SimilarityRequest) (agent : NearDuplicateAgent) (i : ι)
    (entry : Server ι (SimilarityDb agent.vectors) (SimilarityWrite agent.vectors) SimilarityLock) :
    Except Exn SimilarityResult →
      Server ι (SimilarityDb agent.vectors) (SimilarityWrite agent.vectors) SimilarityLock → Prop
  | .ok result, g => ∃ v event, x.Records agent v event ∧ event.result = result ∧
      event ∈ g.db.ledger ∧ (g.session i).wrote = (entry.session i).wrote ++
        [.setEmbedding (x.row v), .insertEvent event]
  | .error _, g => (g.session i).wrote = (entry.session i).wrote

/-- Nobody else undoes what a detection ended in. -/
theorem stable_detection (out : Except Exn SimilarityResult) :
    (detectOperations ι agent).Stable i fun g =>
      (detectOperations ι agent).idle i g ∧ x.Ends agent i entry out g := by
  rintro g g' - - hr ⟨hidle, h⟩
  refine ⟨(detectOperations ι agent).idle_rely i g g' hr hidle, ?_⟩
  obtain ⟨hs, -, ws, hdb, -⟩ := hr
  cases out with
  | error e => exact (congrArg Session.wrote hs).trans h
  | ok result =>
    obtain ⟨v, event, hrecords, hresult, hmem, hwrote⟩ := h
    refine ⟨v, event, hrecords, hresult, ?_, (congrArg Session.wrote hs).trans hwrote⟩
    rw [hdb]
    refine (similaritySchema agent.vectors).applyAll_induction
      (p := fun d => event ∈ d.ledger) (fun d w _ h => ?_) hmem
    cases w with
    | setEmbedding row => exact h
    | insertEvent e => exact List.mem_append_left _ h

/-- What the transaction of a detection owes. -/
def DetectEnds (x : SimilarityRequest) (agent : NearDuplicateAgent) (i : ι)
    (entry : Server ι (SimilarityDb agent.vectors) (SimilarityWrite agent.vectors) SimilarityLock)
    (out : Except Exn SimilarityResult)
    (g : Server ι (SimilarityDb agent.vectors) (SimilarityWrite agent.vectors) SimilarityLock) :
    Prop :=
  (detectOperations ι agent).idle i g ∧ x.Ends agent i entry out g

/-- What the session of a detection is to end in. -/
abbrev DetectDone (x : SimilarityRequest) (agent : NearDuplicateAgent) (i : ι)
    (entry : Server ι (SimilarityDb agent.vectors) (SimilarityWrite agent.vectors) SimilarityLock) :
    Except Exn SimilarityResult →
      Server ι (SimilarityDb agent.vectors) (SimilarityWrite agent.vectors) SimilarityLock → Prop :=
  Done (similaritySchema agent.vectors) (similarityDiscipline agent.vectors) (SimilarityInv agent) i
    (entry.session i).wrote [] (DetectEnds x agent i entry)

/-- A detection that fails before its commit ends as the postcondition says. -/
theorem detection_error {e : Exn} {d : SimilarityDb agent.vectors}
    (h : DetectKnows agent i ⟨.idle, [], (entry.session i).wrote⟩ [] d g) :
    DetectEnds x agent i entry (.error e) g :=
  ⟨h.idle, h.committed⟩

/-- Where a transaction of a detection is after its search and its update. -/
def Stored (agent : NearDuplicateAgent) (x : SimilarityRequest) (v : Embedding agent.vectors)
    (gateway : GatewayResult (List (List agent.vectors.Coordinate))) (i : ι)
    (wrote : List (SimilarityWrite agent.vectors)) :
    Except Exn { c : Option SimilarityCandidate // ∀ candidate ∈ c,
      x.config.minimumCosineSimilarity.val.value ≤ candidate.cosineSimilarity.val.value } →
    Server ι (SimilarityDb agent.vectors) (SimilarityWrite agent.vectors) SimilarityLock → Prop
  | .ok c, g => ∃ d, DetectKnows agent i ⟨.inTrans, [.setEmbedding (x.row v)], wrote⟩
      [modelLock v, .invoiceRow x.invoiceId] d g ∧
      agent.Right d.invoices (x.row v) (agent.result x gateway v c)
  | .error _, g => ∃ st ws ls d, DetectKnows agent i ⟨st, ws, wrote⟩ ls d g

/-- The rule of `detectAndStore`. -/
theorem wp_detectAndStore (gateway : GatewayResult (List (List agent.vectors.Coordinate)))
    (hi : (detectOperations ι agent).inv g)
    (h : DetectKnows agent i ⟨.inTrans, [], wrote⟩ [] d₀ g) :
    (detectOperations ι agent).wp i (agent.detectAndStore x v)
      (Stored agent x v gateway i wrote) g := by
  have hraise {st : ReadCommitted.Status} {ws : List (SimilarityWrite agent.vectors)}
      {ls : List SimilarityLock} {d : SimilarityDb agent.vectors} {e : Exn}
      {g : Server ι (SimilarityDb agent.vectors) (SimilarityWrite agent.vectors) SimilarityLock}
      (hi : (detectOperations ι agent).inv g) (h : DetectKnows agent i ⟨st, ws, wrote⟩ ls d g) :
      (detectOperations ι agent).wp i (.raise e : SimilarityClient ι agent.vectors _)
        (Stored agent x v gateway i wrote) g :=
    wp_raise hi h fun _ _ h' => ⟨_, _, _, _, h'⟩
  have hfails (d : SimilarityDb agent.vectors) :
      ReadCommitted.Fails (similaritySchema agent.vectors) (similarityDiscipline agent.vectors)
        (SimilarityInv agent) i wrote [] d (Stored agent x v gateway i wrote) :=
    fun e _ _ h' => ⟨_, _, _, _, h'⟩
  refine Protocol.wp_tryCatch hi (Protocol.wp_mono (Q := Stored agent x v gateway i wrote)
    (fun out g' hi' hout => ?_) ?_)
  · cases out with
    | ok c => exact hout
    | error e =>
      obtain ⟨st, ws, ls, d, hat⟩ := hout
      exact hraise hi' hat
  · refine wp_lock hi h (by simp [similaritySchema]) (hfails _) fun d₁ _ _ g₁ hi₁ h₁ => ?_
    refine wp_read hi₁ h₁ (hfails _) fun d₂ _ _ g₂ hi₂ h₂ => ?_
    rw [Schema.applyAll_nil]
    cases hc : agent.candidateOf x
        (nearest (d₂.comparable x.invoiceId v x.invoiceIdentity x.poIdentity)) with
    | error e => exact hraise hi₂ h₂
    | ok c =>
      have hright : agent.Right d₂.invoices (x.row v) (agent.result x gateway v c) :=
        NearDuplicateAgent.right_of_search hc
      refine wp_update hi₂ h₂ (by simp [similaritySchema]) (hfails _) ?_ ?_
      · exact fun d₃ _ _ _ g₃ hi₃ h₃ => hraise hi₃ h₃
      · intro d₃ _ hev₃ row hrow
        have hid : row.id = x.invoiceId := key_of_lookup hrow
        refine ⟨by simp [similarityDiscipline, SimilarityRequest.row, modelLock, hid],
          fun g₃ hi₃ h₃ => ?_⟩
        refine wp_ret hi₃ h₃ fun g₄ _ h₄ => ⟨d₃, ?_, ?_⟩
        · simpa [hid, modelLock] using h₄
        · exact hright.becomes rfl hev₃ (by simp [modelLock])

/-- The rule of the transaction of a detection. -/
theorem wp_detectBody {gateway : GatewayResult (List (List agent.vectors.Coordinate))}
    (hi : (detectOperations ι agent).inv g)
    (h : DetectKnows agent i ⟨.inTrans, [], (entry.session i).wrote⟩ [] d₀ g) :
    (detectOperations ι agent).wp i (agent.body x gateway v) (DetectDone x agent i entry) g := by
  have hraise {st : ReadCommitted.Status} {ws : List (SimilarityWrite agent.vectors)}
      {ls : List SimilarityLock} {d : SimilarityDb agent.vectors} {e : Exn}
      {g : Server ι (SimilarityDb agent.vectors) (SimilarityWrite agent.vectors) SimilarityLock}
      (hi : (detectOperations ι agent).inv g)
      (h : DetectKnows agent i ⟨st, ws, (entry.session i).wrote⟩ ls d g) :
      (detectOperations ι agent).wp i (.raise e : SimilarityClient ι agent.vectors _)
        (DetectDone x agent i entry) g :=
    wp_raise hi h fun _ _ h' => ⟨_, _, _, _, h', fun _ h'' => detection_error h''⟩
  have hfails (d : SimilarityDb agent.vectors) :
      ReadCommitted.Fails (similaritySchema agent.vectors) (similarityDiscipline agent.vectors)
        (SimilarityInv agent) i (entry.session i).wrote [] d (DetectDone x agent i entry) :=
    fun e _ _ h' => ⟨_, _, _, _, h', fun _ h'' => detection_error h''⟩
  unfold NearDuplicateAgent.body
  refine Protocol.wp_bind hi (Protocol.wp_mono (fun out g₁ hi₁ hout => ?_)
    (wp_detectAndStore gateway hi h))
  cases out with
  | error e =>
    obtain ⟨st, ws, ls, d, hat⟩ := hout
    exact ⟨_, _, _, _, hat, fun _ h'' => detection_error h''⟩
  | ok c =>
    obtain ⟨d₁, h₁, hright⟩ := hout
    dsimp only
    cases hevent : x.event? (agent.result x gateway v c) with
    | error e => exact hraise hi₁ h₁
    | ok event =>
      obtain ⟨hrecords, hresult⟩ : x.Records agent v event ∧
          event.result = agent.result x gateway v c := by
        unfold SimilarityRequest.event? at hevent
        split at hevent
        · obtain rfl := Except.ok.inj hevent
          exact ⟨⟨rfl, rfl, rfl, rfl, rfl, rfl⟩, rfl⟩
        · cases hevent
      change (detectOperations ι agent).wp i
        (agent.append event >>= fun _ => .ret event.result) _ g₁
      unfold NearDuplicateAgent.append
      rw [Prog.bind_eq, Prog.bind_eq, Prog.bind_assoc]
      refine wp_read hi₁ h₁ (hfails _) fun d₂ _ hev₂ g₂ hi₂ h₂ => ?_
      cases agent.audit.refuses event _ with
      | some e => exact hraise hi₂ h₂
      | none =>
        refine wp_insert hi₂ h₂ (by simp [similaritySchema])
          (by simp [similarityDiscipline, hrecords.invoiceId]) (hfails _) ?_
        intro d₃ _ hev₃ _ g₃ hi₃ h₃
        refine wp_ret hi₃ h₃ fun g₄ _ h₄ => ⟨_, _, _, _, h₄, .inl rfl, fun d hd hev => ?_⟩
        have hall : Evolved (similaritySchema agent.vectors) (similarityDiscipline agent.vectors)
            ([] ++ [modelLock v, .invoiceRow x.invoiceId]) d₁ d :=
          (hev₂.trans hev₃).trans (hev.mono (by simp))
        have hrightd : agent.Right d.invoices (x.row v) event.result :=
          hresult ▸ hright.becomes rfl hall (by simp)
        refine ⟨?_, fun g' h' => ⟨h'.idle, ?_⟩, fun e g' h' => detection_error h'⟩
        · exact hd.detect hrecords.invoiceId rfl hrecords.embedding hrecords.model hrightd
        · refine ⟨v, event, hrecords, rfl, ?_, h'.committed⟩
          refine h'.evolved.lasting (p := fun d => event ∈ d.ledger) (fun d w h => ?_)
            (List.mem_append_right _ (List.mem_singleton.mpr rfl))
          cases w with
          | setEmbedding row => exact h
          | insertEvent e => exact List.mem_append_left _ h

/-- The rule of `detect`. -/
theorem wp_detect (hi : (detectOperations ι agent).inv entry)
    (hidle : (detectOperations ι agent).idle i entry) :
    (detectOperations ι agent).wp i (agent.detect x)
      (fun out g => (detectOperations ι agent).idle i g ∧ x.Ends agent i entry out g) entry := by
  have hat := At.of_idle (S := similaritySchema agent.vectors)
    (D := similarityDiscipline agent.vectors) hidle
  unfold NearDuplicateAgent.detect
  refine wp_ask hi hat fun answer g₁ hi₁ h₁ => ?_
  cases answer with
  | failed e => exact wp_raise hi₁ h₁ fun _ _ h' => detection_error h'
  | embedded gateway =>
    dsimp only
    cases agent.vectorOf gateway with
    | error e => exact wp_raise hi₁ h₁ fun _ _ h' => detection_error h'
    | ok vector =>
      exact wp_transaction (fun out => stable_detection out) hi₁ h₁
        (fun e _ h' => detection_error h') fun g' hi' h' => wp_detectBody hi' h'

/-! ## Any number of detections -/

/-- Calls of `detect`, at once. -/
def detections (agent : NearDuplicateAgent) : System ι
    (Server ι (SimilarityDb agent.vectors) (SimilarityWrite agent.vectors) SimilarityLock)
    (EmbedAnswer agent.vectors) Exn SimilarityResult SimilarityRequest where
  body x := agent.detect x
  reset i g := g.close i

/-- Every detection, from any state of the invariant, ends as its postcondition says. -/
theorem detections_verified : (detections agent).Verified (detectOperations ι agent)
    fun x i entry out g => x.Ends agent i entry out g where
  body x i g hi hidle := wp_detect hi hidle
  reset i g hi := by
    obtain ⟨hg, hi', hat⟩ := close_step hi
    exact ⟨hi', hg, hat.idle⟩

/-- Before any detection. -/
theorem similarityInv_fresh {d : SimilarityDb agent.vectors}
    (hids : (d.invoices.map SimilarityRow.id).Nodup)
    (hnone : ∀ row ∈ d.invoices, row.embedding = none) (hledger : d.ledger = []) :
    SimilarityInv agent d where
  ids := hids
  stored row hrow := by simp [hnone row hrow, SimilarityDb.latest?, hledger]
  flagged before event after h := by simp [hledger] at h
  other event h := by simp [hledger] at h

/-- Any interleaving of detections keeps the invariant. Of two invoices that are alike and similar
enough, the later of their last detections has flagged its invoice with a candidate that is at least
as similar, so one of the two is flagged. An invoice is no candidate of its own, its embedding is
that of its last event, and a call that fails has committed nothing. -/
theorem near_duplicates_never_both {d : SimilarityDb agent.vectors} (h₀ : SimilarityInv agent d)
    {cfg : Config ι
      (Server ι (SimilarityDb agent.vectors) (SimilarityWrite agent.vectors) SimilarityLock)
      (EmbedAnswer agent.vectors) Exn SimilarityResult SimilarityRequest}
    (h : (detections agent).Reachable (Server.start d) cfg) :
    (∀ (before : List SimilarityEvent) (event : SimilarityEvent) (after : List SimilarityEvent),
      cfg.store.db.ledger = before ++ event :: after →
      (∀ e ∈ after, e.invoiceId ≠ event.invoiceId) →
      ∀ a ∈ cfg.store.db.invoices, a.id = event.invoiceId →
      ∀ b ∈ cfg.store.db.invoices, b.id ≠ a.id → (∀ e ∈ after, e.invoiceId ≠ b.id) →
      ∀ v w, Alike a b v w → ∀ s, agent.similarity v w = some s →
      event.result.config.minimumCosineSimilarity.val.value ≤ s.value → event.result.Flags s) ∧
    (∀ a ∈ cfg.store.db.invoices, ∀ b ∈ cfg.store.db.invoices, b.id ≠ a.id →
      ∀ v w, Alike a b v w → ∀ s, agent.similarity v w = some s →
      ∃ event, (cfg.store.db.latest? a.id = some event ∨ cfg.store.db.latest? b.id = some event) ∧
        (event.result.config.minimumCosineSimilarity.val.value ≤ s.value →
          event.result.Flags s)) ∧
    (∀ row ∈ cfg.store.db.invoices,
      row.embedding.map (fun v => (agent.vectors.digest v.vector.val, v.modelVersion.val)) =
        (cfg.store.db.latest? row.id).map fun e =>
          (e.result.embeddingSha256, e.result.modelVersion.val)) ∧
    (∀ event ∈ cfg.store.db.ledger, ∀ c ∈ event.result.candidate,
      c.invoiceId ≠ event.invoiceId) ∧
    ∀ i t out, cfg.thread i = some t → t.rest.outcome? = some out →
      t.call.Ends agent i t.entry out cfg.store := by
  have hv := @detections_verified ι _ agent
  have hinv := (System.inv_of_reachable hv (inv_start h₀) (fun i => idle_start d) h).2
  exact ⟨hinv.flagged, fun a ha b hb hne v w halike s hs => hinv.never_both ha hb hne halike hs,
    hinv.stored, hinv.other, fun i t out ht hout =>
      System.post_of_reachable hv (inv_start h₀) (fun i => idle_start d) h ht hout⟩

end

/-! ### Two detections with one vector -/

/-- The digest of the sample vector. -/
def onesDigest : Sha256 :=
  ⟨"d9f510e995146dc5d0567474f25d4929756d56b023e90453aa18134631374e28", by decide +kernel⟩

/-- Equal vectors have no distance ; of others it is not known. -/
def sampleDistance (v w : List ℤ) : Option Decimal :=
  if v = w then some .zero else none

/-- The sample distance does not depend on the order. -/
theorem sampleDistance_comm (v w : List ℤ) : sampleDistance v w = sampleDistance w v := by
  simp [sampleDistance, eq_comm]

/-- It knows the distance of a vector to itself. -/
def VectorHost.sample : VectorHost where
  Coordinate := ℤ
  isFinite _ := true
  isZero c := c = 0
  cosineDistance := sampleDistance
  cosineDistance_comm := sampleDistance_comm
  digest _ := onesDigest
  hashtext model := model.length

/-- The agent of the sample. -/
def sampleAgent : NearDuplicateAgent where
  vectors := .sample
  host := .sample
  ctx := ⟨28, .halfEven, -999999, 999999⟩
  prec_pos := by decide
  audit := ⟨fun _ _ => none, fun _ _ => none⟩

/-- The detection of an invoice of the sample. -/
def sampleSimilarity (id : Uuid) : SimilarityRequest where
  runId := id + 1
  invoiceId := id
  traceId := sampleTrace
  extraction := { InvoiceExtraction.unread with
    invoiceNumber := .certain ⟨"7", by decide⟩
    poNumber := .certain ⟨"P", by decide⟩ }
  config := .default

theorem sampleEmbedding_latencyMs : (0 : ℚ) ≤ 0 := le_rfl

theorem sampleEmbedding_attempts : false = decide (1 = 0) := rfl

/-- The embedding of the sample : one vector of ones. -/
def sampleEmbedding : GatewayResult (List (List ℤ)) where
  value := [List.replicate 384 1]
  provenance := ⟨.embed, ⟨"m", by decide⟩, ⟨"m", by decide⟩, ⟨"s", by decide⟩⟩
  usage := ⟨1, 0, 1, rfl⟩
  attempts := 1
  latencyMs := 0
  latencyMs_nonneg := sampleEmbedding_latencyMs
  validate_cache_attempts := sampleEmbedding_attempts

/-- Two invoices without an embedding. -/
def sampleInvoices : SimilarityDb VectorHost.sample :=
  ⟨[⟨1, none, none, none⟩, ⟨5, none, none, none⟩], []⟩

/-- The second detection waits for the model lock of the first. -/
def sampleDetections : List (Event ℕ (EmbedAnswer VectorHost.sample) SimilarityRequest) :=
  [Event.start 0 (sampleSimilarity 1), .start 1 (sampleSimilarity 5),
    .stmt 0 (.answer (EmbedAnswer.embedded sampleEmbedding)),
    .stmt 1 (.answer (.embedded sampleEmbedding)),
    .stmt 0 .proceed, .stmt 0 .proceed, .stmt 1 .proceed] ++
    List.replicate 5 (Event.stmt 0 .proceed) ++ List.replicate 6 (Event.stmt 1 .proceed)

set_option maxRecDepth 20000 in
/-- The first detection finds nothing and the second flags its invoice. -/
theorem sampleDetections_statuses :
    (((detections sampleAgent).replay (System.initial (Server.start sampleInvoices))
      sampleDetections).map fun cfg =>
        cfg.store.db.ledger.map fun e => (e.invoiceId, e.result.status)) =
      some [(1, .noMatch), (5, .nearDuplicate)] := by
  decide +kernel

/-- The theorem applies to the sample detections. -/
theorem near_duplicates_never_both_sampleDetections :
    ∃ cfg : Config ℕ (Server ℕ (SimilarityDb VectorHost.sample) (SimilarityWrite VectorHost.sample)
        SimilarityLock) (EmbedAnswer VectorHost.sample) Exn SimilarityResult SimilarityRequest,
      (cfg.store.db.ledger.map fun e => (e.invoiceId, e.result.status)) =
        [(1, .noMatch), (5, .nearDuplicate)] ∧
      ∀ event ∈ cfg.store.db.ledger, ∀ c ∈ event.result.candidate,
        c.invoiceId ≠ event.invoiceId := by
  obtain ⟨cfg, hcfg, hstatuses⟩ := Option.map_eq_some_iff.mp sampleDetections_statuses
  have hnone : ∀ row ∈ sampleInvoices.invoices, row.embedding = none := by
    intro row hrow
    rcases List.mem_pair.mp hrow with rfl | rfl <;> rfl
  have hfresh : SimilarityInv sampleAgent sampleInvoices :=
    similarityInv_fresh (by decide) hnone rfl
  exact ⟨cfg, hstatuses, (near_duplicates_never_both hfresh ⟨sampleDetections, hcfg⟩).2.2.2.1⟩

end InvoiceOps
