import InvoiceOps.DecimalRound
import InvoiceOps.Gate
import InvoiceOps.GatewaySettings
import InvoiceOps.Ledger

/-!
# Near-duplicate detection

`detect` embeds an invoice, searches under the lock of the model for the nearest invoice with the
same identities, stores the embedding and appends the result to the ledger, the search and both
writes in one transaction. A candidate is the nearest invoice, if it is similar enough
(`chooseCandidate`).

The audit writer is a parameter : it appends the event, or refuses it.
-/

set_option linter.unusedSectionVars false

open Shared ReadCommitted

namespace InvoiceOps

/-! ## Vectors -/

/-- What the host makes of vectors : the digest of one, and the cosine distance of two as the store
compares them, as the text of a float. There is none if the distance is not a number. -/
structure VectorHost where
  Coordinate : Type
  isFinite : Coordinate → Bool
  isZero : Coordinate → Bool
  cosineDistance : List Coordinate → List Coordinate → Option Decimal
  cosineDistance_comm : ∀ v w, cosineDistance v w = cosineDistance w v
  digest : List Coordinate → Sha256
  hashtext : String → ℤ

/-- The length of an embedding. -/
def embeddingDimensions : ℕ := 384

/-- `EmbeddingVector` : finite coordinates, not all of them zero. -/
abbrev EmbeddingVector (host : VectorHost) :=
  { values : List host.Coordinate // (values.length = embeddingDimensions ∧
      values.all host.isFinite) ∧ values.any fun value => !host.isZero value }

/-- `SimilarityConfig`. -/
structure SimilarityConfig where
  version : ConfigVersion
  minimumCosineSimilarity : Share
  deriving DecidableEq

theorem isConfigVersion_nearDuplicate : isConfigVersion "near-duplicate@v2" := by decide

theorem share_ninetyFive :
    (0 : ℚ) ≤ (⟨false, 95, -2⟩ : Decimal).value ∧ (⟨false, 95, -2⟩ : Decimal).value ≤ 1 := by
  decide +kernel

/-- The `SimilarityConfig` that is built without arguments. -/
def SimilarityConfig.default : SimilarityConfig where
  version := ⟨_, isConfigVersion_nearDuplicate⟩
  minimumCosineSimilarity := ⟨_, share_ninetyFive⟩

/-- A configuration as JSON ; what it leaves out is as in the default one. -/
def SimilarityConfig.codec : Codec SimilarityConfig :=
  (Codec.record ((Fields.default "version" ConfigVersion.codec
      SimilarityConfig.default.version).and <|
      .default "minimum_cosine_similarity" Share.codec
        SimilarityConfig.default.minimumCosineSimilarity) (by simp)).map
    (fun (version, minimum) => ⟨version, minimum⟩)
    (fun config => (config.version, config.minimumCosineSimilarity)) fun _ => rfl

/-- An invoice that is similar, with how similar it is. -/
structure SimilarityCandidate where
  invoiceId : Uuid
  cosineSimilarity : { d : Decimal // -1 ≤ d.value ∧ d.value ≤ 1 }
  deriving DecidableEq

/-- A row of the search. -/
structure Neighbour where
  id : Uuid
  distance : Option Decimal
  deriving DecidableEq

/-- `ORDER BY distance, id` : what is not a number is last. -/
def Neighbour.before (a b : Neighbour) : Bool :=
  match a.distance, b.distance with
  | some x, some y => x.value < y.value || (x.value = y.value && a.id ≤ b.id)
  | some _, none => true
  | none, some _ => false
  | none, none => a.id ≤ b.id

/-- The first row in that order. -/
def nearest : List Neighbour → Option Neighbour
  | [] => none
  | r :: rows =>
    match nearest rows with
    | none => some r
    | some s => if r.before s then some r else some s

section

variable (ctx : Decimal.Context) (config : SimilarityConfig)

/-- `choose_candidate`, of a row of the search. -/
def chooseCandidate (row : Neighbour) : Except Exn (Option SimilarityCandidate) :=
  match row.distance with
  | none => .error (.new .valueError "Cosine distance must be finite")
  | some distance => do
    let similarity ← ctx.sub .one distance
    if h : -1 ≤ similarity.value ∧ similarity.value ≤ 1 then
      if similarity.value < config.minimumCosineSimilarity.val.value then return none
      else return some ⟨row.id, similarity, h⟩
    else .error (.new .valueError "Cosine similarity is outside its mathematical range")

end

/-! ## Rows and events -/

/-- A vector with the pin of its model. -/
structure Embedding (host : VectorHost) where
  vector : EmbeddingVector host
  modelVersion : GatewayVersion

/-- The columns of an invoice that detection reads or writes. A vector is stored with its pin. -/
structure SimilarityRow (host : VectorHost) where
  id : Uuid
  embedding : Option (Embedding host)
  invoiceNumber : Option String
  poNumber : Option String

/-- The version of the summary an embedding is made of. -/
def summaryVersion : Version := ⟨"near-duplicate-summary@v1", by decide⟩

/-- Whether a similar invoice was found. -/
inductive SimilarityStatus where
  | nearDuplicate | noMatch
  deriving DecidableEq, Repr

/-- `SimilarityResult`, before its status is checked. -/
structure SimilarityResultData where
  status : SimilarityStatus
  candidate : Option SimilarityCandidate
  extractionSha256 : Sha256
  embeddingSha256 : Sha256
  configSha256 : Sha256
  summaryVersion : String
  modelVersion : Text 1 160
  gatewayModel : Text 1 160
  inputTokens : Option ℕ
  outputTokens : Option ℕ
  gatewayLatencyMs : Option { ms : ℚ // 0 ≤ ms }
  gatewayCostUsd : Option Cost
  config : SimilarityConfig

/-- `consistent_status`. -/
structure SimilarityResultData.Consistent (result : SimilarityResultData) : Prop where
  status : result.status = if result.candidate.isSome then .nearDuplicate else .noMatch
  threshold : ∀ c ∈ result.candidate,
    result.config.minimumCosineSimilarity.val.value ≤ c.cosineSimilarity.val.value

instance : DecidablePred SimilarityResultData.Consistent := fun result =>
  decidable_of_iff (result.status = (if result.candidate.isSome then .nearDuplicate else .noMatch) ∧
      ∀ c ∈ result.candidate,
        result.config.minimumCosineSimilarity.val.value ≤ c.cosineSimilarity.val.value)
    ⟨fun ⟨hstatus, hthreshold⟩ => ⟨hstatus, hthreshold⟩, fun h => ⟨h.status, h.threshold⟩⟩

/-- A result whose status follows from its candidate. -/
structure SimilarityResult extends SimilarityResultData where
  consistent : toSimilarityResultData.Consistent

/-! ### As JSON -/

namespace SimilarityStatus

/-- The value of a status. -/
def text : SimilarityStatus → String
  | nearDuplicate => "NEAR_DUPLICATE"
  | noMatch => "NO_MATCH"

/-- A status is read back by its value. -/
def codec : Codec SimilarityStatus :=
  .literal text [nearDuplicate, noMatch] fun x => by cases x <;> rfl

end SimilarityStatus

/-- How a float is written as JSON. It is read as it was written. -/
structure FloatJson where
  codec : Codec ℚ
  canon_eq : ∀ x, codec.canon x = x
  dump_ne_null : ∀ x, codec.dump x ≠ .null

/-- A float that is not negative. -/
def FloatJson.nonneg (floats : FloatJson) : Codec { x : ℚ // 0 ≤ x } :=
  floats.codec.check _ fun x h => by rwa [floats.canon_eq]

/-- A `Decimal` with its exponent as it is. -/
def Cost.codec : Codec Cost :=
  strictDecimal.check _ fun _ h => h

section

variable (host : Host) (floats : FloatJson)

/-- A candidate as JSON. -/
def SimilarityCandidate.codec : Codec SimilarityCandidate :=
  (Codec.record ((Fields.required "invoice_id" host.uuid).and <|
      .required "cosine_similarity" (limit fun x => -1 ≤ x ∧ x ≤ 1)) (by simp)).map
    (fun (invoiceId, cosineSimilarity) => ⟨invoiceId, cosineSimilarity⟩)
    (fun candidate => (candidate.invoiceId, candidate.cosineSimilarity)) fun _ => rfl

/-- A result as JSON, before it is checked. -/
def SimilarityResultData.codec : Codec SimilarityResultData :=
  (Codec.record ((Fields.required "status" SimilarityStatus.codec).and <|
      (Fields.required "candidate"
        ((SimilarityCandidate.codec host).nullable fun _ => nofun)).and <|
      (Fields.required "extraction_sha256" Sha256.codec).and <|
      (Fields.required "embedding_sha256" Sha256.codec).and <|
      (Fields.required "config_sha256" Sha256.codec).and <|
      (Fields.default "summary_version" Codec.string InvoiceOps.summaryVersion.val).and <|
      (Fields.required "model_version" (Text.codec 1 160)).and <|
      (Fields.required "gateway_model" (Text.codec 1 160)).and <|
      (Fields.default "input_tokens" (Codec.nat.nullable Codec.nat_ne_null) none).and <|
      (Fields.default "output_tokens" (Codec.nat.nullable Codec.nat_ne_null) none).and <|
      (Fields.default "gateway_latency_ms"
        (floats.nonneg.nullable fun x => floats.dump_ne_null x.val) none).and <|
      (Fields.default "gateway_cost_usd" (Cost.codec.nullable fun _ => nofun) none).and <|
      .required "config" SimilarityConfig.codec) (by simp)).map
    (fun (status, candidate, extractionSha256, embeddingSha256, configSha256, summaryVersion,
        modelVersion, gatewayModel, inputTokens, outputTokens, gatewayLatencyMs, gatewayCostUsd,
        config) =>
      ⟨status, candidate, extractionSha256, embeddingSha256, configSha256, summaryVersion,
        modelVersion, gatewayModel, inputTokens, outputTokens, gatewayLatencyMs, gatewayCostUsd,
        config⟩)
    (fun result => (result.status, result.candidate, result.extractionSha256,
      result.embeddingSha256, result.configSha256, result.summaryVersion, result.modelVersion,
      result.gatewayModel, result.inputTokens, result.outputTokens, result.gatewayLatencyMs,
      result.gatewayCostUsd, result.config)) fun _ => rfl

theorem SimilarityResultData.Consistent.canon {result : SimilarityResultData}
    (h : result.Consistent) :
      ((SimilarityResultData.codec host floats).canon result).Consistent where
  status := by
    have hcandidate : ((SimilarityResultData.codec host floats).canon result).candidate =
        result.candidate.map (SimilarityCandidate.codec host).canon := rfl
    rw [hcandidate, Option.isSome_map]
    exact h.status
  threshold c hc := by
    obtain ⟨candidate, hcandidate, rfl⟩ := Option.map_eq_some_iff.mp hc
    have hthreshold := h.threshold candidate hcandidate
    rw [← Decimal.value_canonical, ← Decimal.value_canonical candidate.cosineSimilarity.val]
      at hthreshold
    exact hthreshold

/-- A result as JSON ; it is checked as it is read. -/
def SimilarityResult.codec : Codec SimilarityResult :=
  ((SimilarityResultData.codec host floats).check SimilarityResultData.Consistent
    fun _ h => h.canon host floats).map
    (fun result => ⟨result.val, result.property⟩)
    (fun result => ⟨result.toSimilarityResultData, result.consistent⟩) fun _ => rfl

end

/-- A `similarity.completed` event, with what it was appended as. -/
structure SimilarityEvent where
  runId : Uuid
  invoiceId : Uuid
  traceId : String
  actorId : Version
  node : Version
  versions : VersionOverrides
  result : SimilarityResult

/-- The invoices, and the ledger, of the similarity search. -/
structure SimilarityDb (host : VectorHost) where
  invoices : List (SimilarityRow host)
  ledger : List SimilarityEvent

/-- The writes of a detection. -/
inductive SimilarityWrite (host : VectorHost) where
  | setEmbedding (row : SimilarityRow host)
  | insertEvent (event : SimilarityEvent)

/-- The locks of a detection. -/
inductive SimilarityLock where
  /-- `pg_advisory_xact_lock(761923, hashtext(model))`. -/
  | model (hash : ℤ)
  | invoiceRow (id : Uuid)
  deriving DecidableEq

namespace SimilarityDb

variable {host : VectorHost}

/-- The tables after a write. -/
def apply (d : SimilarityDb host) : SimilarityWrite host → SimilarityDb host
  | .setEmbedding row => { d with invoices := replace SimilarityRow.id d.invoices row }
  | .insertEvent event => { d with ledger := d.ledger ++ [event] }

/-- The row of an invoice. -/
def invoice? (d : SimilarityDb host) (id : Uuid) : Option (SimilarityRow host) :=
  lookup SimilarityRow.id d.invoices id

/-- The rows another invoice's row is compared with, which are those of its model and with its
identities. A comparison with NULL holds for no row. -/
def comparable (d : SimilarityDb host) (id : Uuid) (embedding : Embedding host)
    (invoiceNumber poNumber : Option String) : List Neighbour :=
  d.invoices.filterMap fun row =>
    match row.embedding with
    | none => none
    | some other =>
      if row.id ≠ id ∧ other.modelVersion = embedding.modelVersion ∧
          (invoiceNumber.isSome ∧ row.invoiceNumber = invoiceNumber) ∧
          poNumber.isSome ∧ row.poNumber = poNumber then
        some ⟨row.id, host.cosineDistance embedding.vector.val other.vector.val⟩
      else none

end SimilarityDb

/-- No lock of a detection outlives its transaction. -/
def similaritySchema (host : VectorHost) :
    Schema (SimilarityDb host) (SimilarityWrite host) SimilarityLock :=
  ⟨SimilarityDb.apply, fun _ => false⟩

/-! ## The agent -/

/-- What the gateway answers. -/
inductive EmbedAnswer (host : VectorHost) where
  | embedded (result : GatewayResult (List (List host.Coordinate)))
  | failed (error : Exn)

/-- A client that waits for the gateway. -/
abbrev SimilarityClient (ι : Type) (host : VectorHost) (α : Type) :=
  Prog ι (Server ι (SimilarityDb host) (SimilarityWrite host) SimilarityLock) (EmbedAnswer host)
    Exn α

/-- A writer of the ledger : what it raises for an event, and the constraint its insert breaks. -/
structure AuditWriter (host : VectorHost) where
  refuses : SimilarityEvent → SimilarityDb host → Option Exn
  conflict : SimilarityEvent → SimilarityDb host → Option String

/-- One call of `detect`, with the configuration of its agent. -/
structure SimilarityRequest where
  runId : Uuid
  invoiceId : Uuid
  traceId : String
  extraction : InvoiceExtraction
  config : SimilarityConfig

/-- `value.strip() if value and value.strip() else None`. -/
def strippedIdentity (value : Option Identifier) : Option String :=
  (value.map fun text => pythonStrip text.val).filter (· ≠ "")

/-- The number an invoice is compared by. -/
def SimilarityRequest.invoiceIdentity (x : SimilarityRequest) : Option String :=
  strippedIdentity x.extraction.invoiceNumber.value

/-- The order an invoice is compared by. -/
def SimilarityRequest.poIdentity (x : SimilarityRequest) : Option String :=
  strippedIdentity x.extraction.poNumber.value

/-- The row that a detection stores. -/
def SimilarityRequest.row {host : VectorHost} (x : SimilarityRequest) (embedding : Embedding host) :
    SimilarityRow host :=
  ⟨x.invoiceId, some embedding, x.invoiceIdentity, x.poIdentity⟩

/-- `NearDuplicateAgent`, with its hosts. -/
structure NearDuplicateAgent where
  vectors : VectorHost
  host : Host
  /-- The context of the decimal arithmetic. -/
  ctx : Decimal.Context
  prec_pos : 1 ≤ ctx.prec
  audit : AuditWriter vectors

theorem chooseCandidate_meets {ctx : Decimal.Context} {config : SimilarityConfig} {row : Neighbour}
    {candidate : Option SimilarityCandidate}
    (h : chooseCandidate ctx config row = .ok candidate) : ∀ c ∈ candidate,
      config.minimumCosineSimilarity.val.value ≤ c.cosineSimilarity.val.value := by
  unfold chooseCandidate at h
  cases hdistance : row.distance with
  | none => simp [hdistance] at h
  | some distance =>
    rw [hdistance] at h
    obtain ⟨similarity, -, h⟩ := bind_eq_ok.mp h
    split_ifs at h with hrange hlow
    · cases h
      simp
    · cases h
      simpa using hlow

namespace NearDuplicateAgent

variable {ι : Type} [DecidableEq ι] (agent : NearDuplicateAgent) (x : SimilarityRequest)

/-- The candidate of a search. -/
def candidateOf (row : Option Neighbour) :
    Except Exn { c : Option SimilarityCandidate // ∀ candidate ∈ c,
      x.config.minimumCosineSimilarity.val.value ≤ candidate.cosineSimilarity.val.value } :=
  match row with
  | none => .ok ⟨none, by simp⟩
  | some row =>
    match h : chooseCandidate agent.ctx x.config row with
    | .ok c => .ok ⟨c, chooseCandidate_meets h⟩
    | .error e => .error e

/-- A failure of the store, or a timeout, is reported as one of the repository. -/
def storageError (e : Exn) : Exn :=
  if e.isInstance .psycopgError ∨ e.isInstance .timeoutError then
    .new .similarityRepositoryError "Similarity storage failed"
  else e

/-- `detect_and_store`, for the embedding of the invoice. -/
def detectAndStore (embedding : Embedding agent.vectors) :
    SimilarityClient ι agent.vectors { c : Option SimilarityCandidate // ∀ candidate ∈ c,
      x.config.minimumCosineSimilarity.val.value ≤ candidate.cosineSimilarity.val.value } :=
  Prog.tryCatch (do
    sql (similaritySchema _) (.lock [.model (agent.vectors.hashtext embedding.modelVersion.val)])
    let row ← sql (similaritySchema _) (.read fun d =>
      nearest (d.comparable x.invoiceId embedding x.invoiceIdentity x.poIdentity))
    let candidate ← Prog.ofExcept (agent.candidateOf x row)
    let updated ← sql (similaritySchema _) (.update (fun d => d.invoice? x.invoiceId)
      (fun row => [.invoiceRow row.id]) fun _ => .setEmbedding (x.row embedding))
    match updated with
    | none => throw (.new .invoiceNotFound "Invoice for similarity decision is missing")
    | some _ => return candidate) fun e => throw (storageError e)

/-- The result of a detection. -/
def result (gateway : GatewayResult (List (List agent.vectors.Coordinate)))
    (embedding : Embedding agent.vectors)
    (candidate : { c : Option SimilarityCandidate // ∀ candidate ∈ c,
      x.config.minimumCosineSimilarity.val.value ≤ candidate.cosineSimilarity.val.value }) :
    SimilarityResult where
  status := if candidate.val.isSome then .nearDuplicate else .noMatch
  candidate := candidate.val
  extractionSha256 := agent.host.modelDigest (InvoiceExtraction.codec agent.host) x.extraction
  embeddingSha256 := agent.vectors.digest embedding.vector.val
  configSha256 := agent.host.modelDigest SimilarityConfig.codec x.config
  summaryVersion := summaryVersion.val
  modelVersion := ⟨embedding.modelVersion.val, gatewayVersion_length _⟩
  gatewayModel := ⟨gateway.provenance.model.val, gatewayVersion_length _⟩
  inputTokens := some gateway.usage.inputTokens
  outputTokens := some gateway.usage.outputTokens
  gatewayLatencyMs := some ⟨gateway.latencyMs, gateway.latencyMs_nonneg⟩
  gatewayCostUsd := gateway.costUsd
  config := x.config
  consistent := ⟨rfl, candidate.property⟩

end NearDuplicateAgent

/-- The actor of a detection. -/
def nearDuplicateActor : Version := ⟨"invoiceops-near-duplicate", by decide⟩

/-- The node of a detection. -/
def nearDuplicateNode : Version := ⟨"NearDuplicate", by decide⟩

/-- The event of a result. A pin of the gateway may be too long for the ledger. -/
def SimilarityRequest.event? (x : SimilarityRequest) (result : SimilarityResult) :
    Except Exn SimilarityEvent :=
  match Version.ofString? result.modelVersion.val, Version.ofString? x.config.version.val with
  | some model, some policy => .ok {
      runId := x.runId
      invoiceId := x.invoiceId
      traceId := x.traceId
      actorId := nearDuplicateActor
      node := nearDuplicateNode
      versions := ⟨none, some model, some summaryVersion, some policy⟩
      result }
  | _, _ => .error (.new .validationError "VersionOverrides")

namespace NearDuplicateAgent

variable {ι : Type} [DecidableEq ι] (agent : NearDuplicateAgent) (x : SimilarityRequest)

/-- `append`, of the audit writer. -/
def append (event : SimilarityEvent) : SimilarityClient ι agent.vectors Unit := do
  let refusal ← sql (similaritySchema _) (.read (agent.audit.refuses event))
  match refusal with
  | some e => throw e
  | none =>
    sql (similaritySchema _)
      (.insert (agent.audit.conflict event) [.invoiceRow event.invoiceId] (.insertEvent event))

/-- The vector of an answer. -/
def vectorOf (result : GatewayResult (List (List agent.vectors.Coordinate))) :
    Except Exn (EmbeddingVector agent.vectors) :=
  match result.value with
  | [values] =>
    if h : (values.length = embeddingDimensions ∧ values.all agent.vectors.isFinite) ∧
        values.any fun value => !agent.vectors.isZero value then .ok ⟨values, h⟩
    else .error (.new .embeddingContractError "Expected a finite nonzero 384-dimension embedding")
  | _ => .error (.new .embeddingContractError "Expected one invoice embedding")

/-- The transaction of `detect`. -/
def body (gateway : GatewayResult (List (List agent.vectors.Coordinate)))
    (embedding : Embedding agent.vectors) : SimilarityClient ι agent.vectors SimilarityResult := do
  let candidate ← agent.detectAndStore x embedding
  let event ← Prog.ofExcept (x.event? (agent.result x gateway embedding candidate))
  agent.append event
  return event.result

/-- `detect`. -/
def detect : SimilarityClient ι agent.vectors SimilarityResult := do
  let answer ← Prog.ask some
  match answer with
  | .failed e => throw e
  | .embedded gateway => do
    let vector ← Prog.ofExcept (agent.vectorOf gateway)
    transaction (similaritySchema _)
      (agent.body x gateway ⟨vector, gateway.provenance.modelVersion⟩)

end NearDuplicateAgent

end InvoiceOps
