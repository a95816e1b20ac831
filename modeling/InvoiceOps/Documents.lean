import InvoiceOps.Base64
import InvoiceOps.Host
import InvoiceOps.Loop

/-!
# Documents

`readDocument` reads a stream in chunks, hashes them as they come, and stops at the first one that
goes over the limit. What it ends in depends on the bytes of the stream alone, not on its chunks
(`readDocument_eq`). `decodeEmailDocument` reads what an attachment is the base 64 of.

The accepted attachments are the canonical encodings of the admissible bodies
(`email_attachment_canonical`).
-/

open Loop (Turn)

namespace InvoiceOps

/-! ## Hashing -/

/-- `hashlib.sha256`. An object that is told some bytes in parts is the one that is told them at
once. -/
structure HashObject where
  State : Type
  new : State
  update : State → List UInt8 → State
  hexdigest : State → Sha256
  update_nil : ∀ s, update s [] = s
  update_append : ∀ s a b, update (update s a) b = update s (a ++ b)

/-- The digest of some bytes. -/
def HashObject.sha256 (hash : HashObject) (data : List UInt8) : Sha256 :=
  hash.hexdigest (hash.update hash.new data)

/-- It keeps what it was told. -/
def HashObject.sample : HashObject where
  State := List UInt8
  new := []
  update := (· ++ ·)
  hexdigest data := Host.digestOf (data.foldl (fun n b => (n * 257 + b.toNat) % 2 ^ 256) 0)
  update_nil := List.append_nil
  update_append := List.append_assoc

/-- `text.encode("ascii")`, of an ASCII text. -/
def encodeAscii (text : String) : List UInt8 :=
  text.toList.map fun c => UInt8.ofNat c.toNat

/-! ## Types -/

namespace DocumentType

/-- `SIGNATURES`. -/
def signature : DocumentType → List UInt8
  | pdf => [0x25, 0x50, 0x44, 0x46, 0x2d]
  | png => [0x89, 0x50, 0x4e, 0x47, 0x0d, 0x0a, 0x1a, 0x0a]
  | jpeg => [0xff, 0xd8, 0xff]

/-- The type of a value, if it is one. -/
def read? (contentType : String) : Option DocumentType :=
  [pdf, png, jpeg].find? fun t => t.text = contentType

theorem read?_text (t : DocumentType) : read? t.text = some t := by
  cases t <;> rfl

end DocumentType

/-- The value of a source. -/
def IngestionSource.text : IngestionSource → String
  | upload => "UPLOAD"
  | email => "EMAIL"

/-- The expected failures of an ingestion, and what they say. -/
inductive IngestionError where
  | invalidDocument (message : String)
  | unsupportedDocument (message : String)
  | documentTooLarge (message : String)
  | idempotencyConflict (message : String)
  | webhookNonceReuse (message : String)
  | ingestionUnavailable (message : String)
  deriving DecidableEq, Repr

/-- A failure of the document itself. -/
def IngestionError.OfDocument : IngestionError → Prop
  | invalidDocument _ | unsupportedDocument _ | documentTooLarge _ => True
  | idempotencyConflict _ | webhookNonceReuse _ | ingestionUnavailable _ => False

/-- A document as it is stored. -/
structure RawDocument where
  contentType : DocumentType
  contentHash : Sha256
  requestHash : Sha256
  body : List UInt8
  source : IngestionSource
  deriving DecidableEq

/-! ## Reading -/

/-- The bytes that are read at once. -/
def chunkSize : ℕ :=
  64 * 1024

section

variable (hash : HashObject)

/-- The document of a body. Its request hash is that of its source, type and content. -/
def RawDocument.ofBody (contentType : DocumentType) (source : IngestionSource)
    (contentHash : Sha256) (body : List UInt8) : RawDocument where
  contentType
  contentHash
  requestHash := hash.sha256 (encodeAscii
    (source.text ++ "\n" ++ contentType.text ++ "\n" ++ contentHash.val))
  body
  source

/-- The stream, with what was read of it. -/
structure Reading (σ : Type) where
  stream : σ
  digest : hash.State
  data : List UInt8

variable {σ : Type} (read : ℕ → σ → List UInt8 × σ)

/-- A turn of the loop of `read_document`. -/
def readTurn (maxBytes : ℕ) (r : Reading hash σ) :
    Turn (Reading hash σ) (Except IngestionError (Reading hash σ)) :=
  match read chunkSize r.stream with
  | ([], _) => .leave (.ok r)
  | (chunk, stream) =>
    if maxBytes < r.data.length + chunk.length then
      .leave (.error (.documentTooLarge "Document exceeds the configured size limit."))
    else .again ⟨stream, hash.update r.digest chunk, r.data ++ chunk⟩

/-- What `read_document` does after its loop. -/
def documentOf (contentType : DocumentType) (source : IngestionSource) (digest : hash.State)
    (data : List UInt8) : Except IngestionError RawDocument :=
  if data = [] then .error (.invalidDocument "The document is empty.")
  else if contentType.signature.isPrefixOf data then
    .ok (.ofBody hash contentType source (hash.hexdigest digest) data)
  else
    .error (.unsupportedDocument "Document signature does not match its declared media type.")

/-- `read_document`. -/
def readDocument (fuel : ℕ) (stream : σ) (contentType : Option String) (maxBytes : ℕ)
    (source : IngestionSource) : Option (Except IngestionError RawDocument) :=
  match contentType.bind DocumentType.read? with
  | none =>
    some (.error (.unsupportedDocument "Only PDF, PNG, and JPEG documents are accepted."))
  | some contentType =>
    (Loop.run (readTurn hash read maxBytes) fuel ⟨stream, hash.new, []⟩).map fun reading =>
      reading.bind fun r => documentOf hash contentType source r.digest r.data

/-- What is read of a body, whatever its chunks. -/
def inspectBody (contentType : DocumentType) (maxBytes : ℕ) (source : IngestionSource)
    (body : List UInt8) : Except IngestionError RawDocument :=
  if maxBytes < body.length then
    .error (.documentTooLarge "Document exceeds the configured size limit.")
  else documentOf hash contentType source (hash.update hash.new body) body

/-- The chunks up to the first empty one are those of the body. -/
inductive Delivers : σ → List UInt8 → Prop where
  | done {s : σ} (h : (read chunkSize s).1 = []) : Delivers s []
  | chunk {s s' : σ} {chunk body : List UInt8} (h : read chunkSize s = (chunk, s'))
      (hchunk : chunk ≠ []) (hbody : Delivers s' body) : Delivers s (chunk ++ body)

/-- What is left to read completes what was read to the body. -/
structure Reading.Of (maxBytes : ℕ) (body : List UInt8) (r : Reading hash σ) : Prop where
  digest : r.digest = hash.update hash.new r.data
  bounded : r.data.length ≤ maxBytes
  left : ∃ rest, Delivers read r.stream rest ∧ r.data ++ rest = body

variable {hash read}

theorem readTurn_holds {maxBytes : ℕ} {body : List UInt8} {r : Reading hash σ}
    (hr : r.Of hash read maxBytes body) :
    (readTurn hash read maxBytes r).Holds
      (fun r' => r'.Of hash read maxBytes body ∧
        maxBytes - r'.data.length < maxBytes - r.data.length)
      fun result => ∀ contentType source,
        result.bind (fun r => documentOf hash contentType source r.digest r.data) =
          inspectBody hash contentType maxBytes source body := by
  obtain ⟨rest, hrest, hdata⟩ := hr.left
  cases hrest with
  | done h =>
    obtain ⟨stream, hread⟩ : ∃ stream, read chunkSize r.stream = ([], stream) :=
      ⟨_, Prod.ext h rfl⟩
    simp only [readTurn, hread, Turn.Holds]
    intro contentType source
    rw [List.append_nil] at hdata
    rw [inspectBody, if_neg (by rw [← hdata]; exact Nat.not_lt.mpr hr.bounded),
      ← hdata, ← hr.digest]
    rfl
  | @chunk _ s' chunk rest h hchunk hrest =>
    obtain ⟨b, bs, rfl⟩ := List.exists_cons_of_ne_nil hchunk
    have hlength : body.length = r.data.length + (b :: bs).length + rest.length := by
      rw [← hdata, List.length_append, List.length_append, Nat.add_assoc]
    simp only [readTurn, h]
    split_ifs with hlarge
    · intro contentType source
      rw [inspectBody, if_pos (by omega)]
      rfl
    · refine ⟨⟨?_, ?_, rest, hrest, ?_⟩, ?_⟩
      · rw [hr.digest, hash.update_append]
      · rw [List.length_append]
        exact Nat.not_lt.mp hlarge
      · rw [List.append_assoc, hdata]
      · rw [List.length_append]
        rw [List.length_cons] at hlarge ⊢
        omega

/-- Whatever its chunks are, a body is read to the same end. -/
theorem readDocument_eq {stream : σ} {body : List UInt8} (hbody : Delivers read stream body)
    {fuel maxBytes : ℕ} (hfuel : maxBytes < fuel) (contentType : DocumentType)
    (source : IngestionSource) :
    readDocument hash read fuel stream (some contentType.text) maxBytes source =
      some (inspectBody hash contentType maxBytes source body) := by
  have hstart : (⟨stream, hash.new, []⟩ : Reading hash σ).Of hash read maxBytes body :=
    ⟨(hash.update_nil _).symm, Nat.zero_le _, body, hbody, rfl⟩
  obtain ⟨result, hrun, hresult⟩ :=
    Loop.run_holds (fun r : Reading hash σ => maxBytes - r.data.length)
      (fun _ => readTurn_holds) hstart
  rw [readDocument, Option.bind_some, DocumentType.read?_text]
  dsimp only
  rw [hrun fuel (by simpa using hfuel), Option.map_some, hresult contentType source]

end

/-! ## Attachments -/

/-- `BytesIO.read`. -/
def MemoryDocument.read (size : ℕ) (rest : List UInt8) : List UInt8 × List UInt8 :=
  (rest.take size, rest.drop size)

theorem MemoryDocument.delivers (body : List UInt8) : Delivers MemoryDocument.read body body := by
  induction hn : body.length using Nat.strongRecOn generalizing body with
  | ind n ih =>
    by_cases hempty : body = []
    · rw [hempty]
      exact .done rfl
    · have hpositive := List.length_pos_iff.mpr hempty
      have hdrop : (body.drop chunkSize).length < n := by
        rw [List.length_drop, ← hn]
        exact Nat.sub_lt hpositive (by decide)
      have hchunk : body.take chunkSize ≠ [] := by
        rw [Ne, List.take_eq_nil_iff]
        exact not_or.mpr ⟨by decide, hempty⟩
      have h : Delivers MemoryDocument.read _ _ := .chunk rfl hchunk (ih _ hdrop _ rfl)
      rwa [List.take_append_drop] at h

/-- `EmailAttachment`. -/
structure EmailAttachment where
  contentType : DocumentType
  contentBase64 : String

/-- `EmailWebhookRequest`. -/
structure EmailWebhookRequest where
  attachment : EmailAttachment

/-- The most characters of an encoding that is not too large. -/
def encodedLimit (maxBytes : ℕ) : ℕ :=
  4 * ((maxBytes + 2) / 3)

variable (hash : HashObject)

/-- `decode_email_document`. -/
def decodeEmailDocument (fuel : ℕ) (envelope : EmailWebhookRequest) (maxBytes : ℕ) :
    Option (Except IngestionError RawDocument) :=
  let encoded := envelope.attachment.contentBase64
  if encodedLimit maxBytes < encoded.length then
    some (.error (.documentTooLarge "Document exceeds the configured size limit."))
  else
    match if isAscii encoded then Base64.b64decode encoded.toList else none with
    | none => some (.error (.invalidDocument "The attachment must use valid base64."))
    | some body =>
      if Base64.b64encode body = encoded.toList then
        readDocument hash MemoryDocument.read fuel body (some envelope.attachment.contentType.text)
          maxBytes .email
      else some (.error (.invalidDocument "The attachment must use canonical base64."))

/-- What a body has to be. -/
structure AdmissibleBody (maxBytes : ℕ) (contentType : DocumentType) (body : List UInt8) :
    Prop where
  nonempty : 1 ≤ body.length
  bounded : body.length ≤ maxBytes
  signature : contentType.signature <+: body

/-- The document of an attachment. -/
def RawDocument.ofEmail (contentType : DocumentType) (body : List UInt8) : RawDocument :=
  .ofBody hash contentType .email (hash.sha256 body) body

section

variable {hash} {maxBytes : ℕ} {contentType : DocumentType} {body : List UInt8}

theorem documentOf_ok {source : IngestionSource} {digest : hash.State} {document : RawDocument} :
    documentOf hash contentType source digest body = .ok document ↔
      (1 ≤ body.length ∧ contentType.signature <+: body) ∧
        document = .ofBody hash contentType source (hash.hexdigest digest) body := by
  unfold documentOf
  split_ifs with hempty hsignature
  · simp [hempty]
  · rw [List.isPrefixOf_iff_prefix] at hsignature
    simp only [Except.ok.injEq, hsignature, List.length_pos_iff.mpr hempty, Nat.succ_le_iff,
      true_and]
    exact eq_comm
  · rw [List.isPrefixOf_iff_prefix] at hsignature
    simp [hsignature]

theorem documentOf_error {source : IngestionSource} {digest : hash.State} {error : IngestionError}
    (h : documentOf hash contentType source digest body = .error error) : error.OfDocument := by
  unfold documentOf at h
  split_ifs at h <;> cases h <;> trivial

theorem inspectBody_ok {source : IngestionSource} {document : RawDocument} :
    inspectBody hash contentType maxBytes source body = .ok document ↔
      AdmissibleBody maxBytes contentType body ∧
        document = .ofBody hash contentType source (hash.sha256 body) body := by
  unfold inspectBody
  split_ifs with hlarge
  · refine ⟨nofun, fun h => ?_⟩
    exact absurd h.1.bounded (Nat.not_le.mpr hlarge)
  · rw [documentOf_ok]
    exact ⟨fun h => ⟨⟨h.1.1, Nat.not_lt.mp hlarge, h.1.2⟩, h.2⟩,
      fun h => ⟨⟨h.1.nonempty, h.1.signature⟩, h.2⟩⟩

theorem inspectBody_error {source : IngestionSource} {error : IngestionError}
    (h : inspectBody hash contentType maxBytes source body = .error error) :
    error.OfDocument := by
  unfold inspectBody at h
  split_ifs at h
  · cases h
    trivial
  · exact documentOf_error h

/-- An encoding of a body within the limit is not too long, whatever is left of it after the last
group of three bytes. -/
theorem encodedLimit_fits (hbody : body.length ≤ maxBytes) :
    (Base64.b64encode body).length ≤ encodedLimit maxBytes := by
  rw [Base64.length_b64encode, encodedLimit]
  exact Nat.mul_le_mul_left 4 (Nat.div_le_div_right (Nat.add_le_add_right hbody 2))

end

/-- An attachment is no encoding of a body within the limit, or it is read as the body it
encodes. -/
theorem decodeEmailDocument_cases (envelope : EmailWebhookRequest) (maxBytes : ℕ) :
    ∃ result, (∀ fuel, maxBytes < fuel →
        decodeEmailDocument hash fuel envelope maxBytes = some result) ∧
      ((∃ error, result = .error error ∧ error.OfDocument ∧ ∀ body, body.length ≤ maxBytes →
          envelope.attachment.contentBase64.toList ≠ Base64.b64encode body) ∨
        ∃ body, envelope.attachment.contentBase64.toList = Base64.b64encode body ∧
          result = inspectBody hash envelope.attachment.contentType maxBytes .email body) := by
  unfold decodeEmailDocument
  dsimp only
  generalize envelope.attachment.contentBase64 = encoded
  by_cases hlimit : encodedLimit maxBytes < encoded.length
  · refine ⟨_, fun _ _ => if_pos hlimit, Or.inl ⟨_, rfl, trivial, fun body hbody heq => ?_⟩⟩
    have hfits := encodedLimit_fits hbody
    rw [← heq, String.length_toList] at hfits
    exact absurd hlimit (Nat.not_lt.mpr hfits)
  · simp only [if_neg hlimit]
    -- a text with an encoding is ASCII, and decodes to what it encodes
    have hread : ∀ body, encoded.toList = Base64.b64encode body →
        (if isAscii encoded then Base64.b64decode encoded.toList else none) = some body := by
      intro body heq
      have hascii : isAscii encoded := by
        rw [isAscii, List.all_eq_true]
        intro c hc
        exact decide_eq_true (Base64.b64encode_ascii body c (heq ▸ hc))
      rw [if_pos hascii, heq, Base64.b64decode_b64encode]
    cases hdecode : if isAscii encoded then Base64.b64decode encoded.toList else none with
    | none =>
      refine ⟨_, fun _ _ => rfl, Or.inl ⟨_, rfl, trivial, fun body _ heq => ?_⟩⟩
      rw [hread body heq] at hdecode
      cases hdecode
    | some body =>
      dsimp only
      by_cases hcanonical : Base64.b64encode body = encoded.toList
      · refine ⟨_, fun fuel hfuel => ?_, Or.inr ⟨body, hcanonical.symm, rfl⟩⟩
        rw [if_pos hcanonical, readDocument_eq (MemoryDocument.delivers body) hfuel]
      · refine ⟨_, fun _ _ => if_neg hcanonical,
          Or.inl ⟨_, rfl, trivial, fun body' _ heq => hcanonical ?_⟩⟩
        rw [hread body' heq, Option.some.injEq] at hdecode
        rw [← hdecode, heq]

/-- An attachment is accepted exactly when it is the canonical encoding of an admissible body, as
the document of that body, which does not depend on the chunks it is read in. What is not accepted
is a failure of the document. -/
theorem email_attachment_canonical (envelope : EmailWebhookRequest) (maxBytes : ℕ) :
    (∃ result, (∀ fuel, maxBytes < fuel →
        decodeEmailDocument hash fuel envelope maxBytes = some result) ∧
      (∀ document, result = .ok document ↔
        ∃ body, envelope.attachment.contentBase64.toList = Base64.b64encode body ∧
          AdmissibleBody maxBytes envelope.attachment.contentType body ∧
          document = .ofEmail hash envelope.attachment.contentType body) ∧
      ∀ error, result = .error error → error.OfDocument) ∧
    (∀ body, envelope.attachment.contentBase64.toList = Base64.b64encode body →
      body.length ≤ maxBytes →
        envelope.attachment.contentBase64.length ≤ encodedLimit maxBytes) ∧
    ∀ {σ : Type} (read : ℕ → σ → List UInt8 × σ) (stream : σ) (body : List UInt8),
      Delivers read stream body → ∀ fuel, maxBytes < fuel →
        readDocument hash read fuel stream (some envelope.attachment.contentType.text) maxBytes
          .email = some (inspectBody hash envelope.attachment.contentType
            maxBytes .email body) := by
  refine ⟨?_, ?_, fun read stream body hbody fuel hfuel => readDocument_eq hbody hfuel _ _⟩
  · obtain ⟨result, hrun, ⟨error, rfl, herror, hnone⟩ | ⟨body, heq, rfl⟩⟩ :=
      decodeEmailDocument_cases hash envelope maxBytes
    · refine ⟨_, hrun, fun document => ⟨nofun, ?_⟩, fun _ h => ?_⟩
      · rintro ⟨body, heq, hbody, -⟩
        exact absurd heq (hnone body hbody.bounded)
      · cases h
        exact herror
    · refine ⟨_, hrun, fun document => ?_, fun _ => inspectBody_error⟩
      rw [inspectBody_ok]
      constructor
      · rintro ⟨hbody, rfl⟩
        exact ⟨body, heq, hbody, rfl⟩
      · rintro ⟨body', heq', hbody, rfl⟩
        obtain rfl := Base64.b64encode_injective (heq.symm.trans heq')
        exact ⟨hbody, rfl⟩
  · intro body heq hbody
    have hfits := encodedLimit_fits hbody
    rwa [← heq, String.length_toList] at hfits

end InvoiceOps
