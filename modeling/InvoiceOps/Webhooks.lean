import InvoiceOps.Idempotency
import Mathlib.Data.List.Basic

/-!
# Signed webhooks

An email arrives as a request whose headers sign its timestamp, its nonce and its body
(`readSignedEmail`), and is ingested under its nonce. The message that is signed is
`timestamp.nonce.body`, and a nonce may have dots itself, but a body that is a JSON object starts
with no character of a nonce : the message tells its three parts (`macInput_injective`).

`endpoints` is any number of uploads and deliveries at once. A message is answered at most once,
whatever is delivered again and under whatever key (`webhook_single_use`).
-/

set_option linter.unusedSectionVars false

open Shared ReadCommitted

namespace InvoiceOps

/-! ## Signatures -/

/-- `^(0|[1-9][0-9]{0,11})$`. -/
def isTimestamp (s : String) : Bool :=
  match s.toList with
  | [] => false
  | c :: cs => if c = '0' then cs = [] else c.isDigit && cs.length ≤ 11 && cs.all Char.isDigit

/-- `[A-Za-z0-9._:-]`. -/
def isNonceChar (c : Char) : Bool :=
  c.isAlphanum || c = '.' || c = '_' || c = ':' || c = '-'

/-- `^[A-Za-z0-9][A-Za-z0-9._:-]{15,127}$`. -/
def isNonce (s : String) : Bool :=
  match s.toList with
  | [] => false
  | c :: cs => c.isAlphanum && 15 ≤ cs.length && cs.length ≤ 127 && cs.all isNonceChar

/-- `int`, of ASCII digits. -/
def readDecimal (s : String) : ℕ :=
  s.toList.foldl (fun n c => 10 * n + (c.toNat - 48)) 0

/-- `datetime.fromtimestamp` : no later than the end of the year 9999. -/
def fromTimestamp? (seconds : ℕ) : Option Instant :=
  if seconds ≤ 253402300799 then some (seconds * 1000000) else none

/-- What the headers of a delivery say. -/
structure WebhookSignature where
  timestamp : String
  nonce : WebhookNonce
  signature : String
  deriving DecidableEq

/-- `parse_signature_headers`. There is no result where it raises. -/
def parseSignatureHeaders (timestamp nonce signature : String) (now : Instant)
    (windowSeconds : ℕ) : Option WebhookSignature :=
  if isTimestamp timestamp && isNonce nonce && isSha256 signature then
    (fromTimestamp? (readDecimal timestamp)).bind fun signedAt =>
      if windowSeconds * 1000000 < |now - signedAt| then none
      else some ⟨timestamp, ⟨nonce, signedAt⟩, signature⟩
  else none

/-- What an object starts with, after JSON's whitespace or right away. -/
def isObjectStart (b : UInt8) : Bool :=
  b = 0x20 || b = 0x09 || b = 0x0a || b = 0x0d || b = 0x7b

/-- What the host provides : HMAC-SHA256 under a key, as an object that is told the message in
parts, and the JSON of a body. A body that is an object starts as one. -/
structure WebhookHost where
  hmac : List UInt8 → HashObject
  loads : List UInt8 → Except IngestionError Json
  loads_object : ∀ raw fields, loads raw = .ok (.obj fields) →
    ∃ b rest, raw = b :: rest ∧ isObjectStart b

/-- `authenticate_signature`. -/
def authenticateSignature (host : WebhookHost) (signed : WebhookSignature)
    (body secret : List UInt8) :
    Option WebhookNonce :=
  let mac := host.hmac secret
  let digest := mac.update mac.new
    (encodeAscii (signed.timestamp ++ "." ++ signed.nonce.nonce ++ "."))
  if (mac.hexdigest (mac.update digest body)).val = signed.signature then some signed.nonce
  else none

/-! ## Requests -/

/-- What a server receives of a body. -/
inductive Receive where
  | chunk (bytes : List UInt8)
  | disconnect
  | timeout
  deriving DecidableEq, Repr

/-- A request : its headers in lower case, its body as it comes, and its context. -/
structure WebhookRequest where
  headers : List (String × String)
  stream : List Receive
  idempotencyKey : Option String
  traceId : String
  deriving DecidableEq

/-- What the API answers instead of a result. -/
inductive ApiError where
  | http (status : ℕ) (detail : String)
  | ingestion (error : IngestionError)
  deriving DecidableEq, Repr

/-- An error of the ingestion, as it is raised. -/
def IngestionError.exn : IngestionError → Exn
  | .invalidDocument message => .new (.other "InvalidDocument") message
  | .unsupportedDocument message => .new (.other "UnsupportedDocument") message
  | .documentTooLarge message => .new (.other "DocumentTooLarge") message
  | .idempotencyConflict message => .new .idempotencyConflict message
  | .webhookNonceReuse message => .new .webhookNonceReuse message
  | .ingestionUnavailable message => .new .ingestionUnavailable message

/-- An error of the API, as it is raised. -/
def ApiError.exn : ApiError → Exn
  | .http _ detail => .new (.other "HTTPException") detail
  | .ingestion error => error.exn

/-- The answer to a delivery that is not signed as it should be. -/
def unauthenticated : ApiError :=
  .http 401 "Invalid webhook authentication."

/-- The answer to a body that is too large. -/
def bodyTooLarge : ApiError :=
  .ingestion (.documentTooLarge "Request exceeds the configured whole-body size limit.")

/-- The answer to a body that is no envelope. -/
def envelopeMismatch : ApiError :=
  .ingestion (.invalidDocument "The webhook body must match the attachment schema.")

namespace WebhookRequest

variable (request : WebhookRequest)

/-- `headers.getlist`. -/
def getlist (name : String) : List String :=
  (request.headers.filter fun h => h.1 = name).map Prod.snd

/-- `_one_header`. -/
def oneHeader (name : String) : Except ApiError String :=
  match request.getlist name with
  | [value] => .ok value
  | _ => .error unauthenticated

/-- `content_type.split(";", 1)[0].strip().lower()`. -/
def mediaType (contentType : String) : String :=
  let media := String.ofList (contentType.toList.takeWhile (· ≠ ';'))
  String.ofList ((pythonStrip media).toList.map Char.toLower)

/-- The body is declared to be JSON, once. -/
def checkContentType : Except ApiError Unit :=
  match request.getlist "content-type" with
  | [contentType] =>
    if mediaType contentType = "application/json" then .ok ()
    else .error (.http 415 "Use application/json for the signed email attachment.")
  | _ => .error (.http 415 "Use application/json for the signed email attachment.")

/-- `validate_content_length`. -/
def validateContentLength (maxBytes : ℕ) : Except ApiError Unit :=
  match request.getlist "content-length" with
  | [] => .ok ()
  | [length] =>
    if length.isEmpty || !length.toList.all Char.isDigit then
      .error (.ingestion (.invalidDocument "A valid Content-Length is required when supplied."))
    else if 12 < length.length || maxBytes < readDecimal length then .error bodyTooLarge
    else .ok ()
  | _ => .error (.ingestion
    (.invalidDocument "A valid Content-Length is required when supplied."))

end WebhookRequest

/-- `bounded_body_stream`, with what was received so far. -/
def boundedBody (maxBytes : ℕ) : List Receive → List UInt8 → Except ApiError (List UInt8)
  | [], raw => .ok raw
  | .chunk bytes :: rest, raw =>
    if maxBytes < raw.length + bytes.length then .error bodyTooLarge
    else boundedBody maxBytes rest (raw ++ bytes)
  | .disconnect :: _, _ => .error envelopeMismatch
  | .timeout :: _, _ => .error (.http 408 "The webhook exceeded its receive time limit.")

/-- `EmailWebhookRequest.model_validate`. -/
def EmailWebhookRequest.validate : Json → Option EmailWebhookRequest
  | .obj [("attachment", .obj [(k, .str v), (k', .str v')])] =>
    let attachment? (type content : String) : Option EmailWebhookRequest :=
      (DocumentType.read? type).bind fun contentType =>
        if content.isEmpty then none else some ⟨⟨contentType, content⟩⟩
    if k = "content_type" ∧ k' = "content_base64" then attachment? v v'
    else if k = "content_base64" ∧ k' = "content_type" then attachment? v' v
    else none
  | _ => none

/-- The settings of the webhooks. -/
structure WebhookSettings where
  /-- The bytes of the secret, if the webhooks are configured. -/
  secret : Option (List UInt8)
  windowSeconds : ℕ
  webhookMaxBytes : ℕ
  documentMaxBytes : ℕ
  /-- There is a service to ingest with. -/
  configured : Bool

section

variable (host : WebhookHost) (settings : WebhookSettings)

/-- What raises `WebhookAuthenticationError` is answered with 401. -/
def authenticated {α : Type} : Option α → Except ApiError α
  | some a => .ok a
  | none => .error unauthenticated

/-- `read_signed_email`. -/
def readSignedEmail (request : WebhookRequest) (now : Instant) :
    Except ApiError (EmailWebhookRequest × WebhookNonce) :=
  match settings.secret with
  | none => .error (.http 503 "Email webhooks are not configured.")
  | some secret => do
    let timestamp ← request.oneHeader "x-webhook-timestamp"
    let nonce ← request.oneHeader "x-webhook-nonce"
    let signature ← request.oneHeader "x-webhook-signature"
    let signed ← authenticated
      (parseSignatureHeaders timestamp nonce signature now settings.windowSeconds)
    request.checkContentType
    request.validateContentLength settings.webhookMaxBytes
    let raw ← boundedBody settings.webhookMaxBytes request.stream []
    let nonce ← authenticated (authenticateSignature host signed raw secret)
    let payload ← (host.loads raw).mapError ApiError.ingestion
    match EmailWebhookRequest.validate payload with
    | none => .error envelopeMismatch
    | some envelope => .ok (envelope, nonce)

/-- A delivery of a webhook, with the time of its receipt and what its ingestion takes. -/
structure Delivery where
  request : WebhookRequest
  now : Instant
  invoiceId : Uuid
  runId : Uuid
  createdAt : Instant
  eventId : Uuid
  stamp : Instant

/-- What `email_webhook` asks of the service. -/
def Delivery.ingest (hash : HashObject) (delivery : Delivery) : Except ApiError Ingest :=
  match delivery.request.idempotencyKey with
  | none => .error (.http 400 "An Idempotency-Key is required.")
  | some key => do
    let (envelope, nonce) ← readSignedEmail host settings delivery.request delivery.now
    if settings.configured then
      let fuel := settings.documentMaxBytes + 1
      match decodeEmailDocument hash fuel envelope settings.documentMaxBytes with
      | none => .error (.http 500 "")
      | some (.error error) => .error (.ingestion error)
      | some (.ok document) => .ok {
          contentType := document.contentType
          source := document.source
          body := document.body
          key
          traceId := delivery.request.traceId
          nonce := some nonce
          invoiceId := delivery.invoiceId
          runId := delivery.runId
          createdAt := delivery.createdAt
          eventId := delivery.eventId
          stamp := delivery.stamp }
    else .error (.http 503 "Invoice ingestion is not configured.")

end

/-! ## Signed messages -/

/-- What a sender signs. -/
@[ext] structure SignedMessage where
  timestamp : String
  nonce : String
  body : List UInt8
  timestamp_ok : isTimestamp timestamp
  nonce_ok : isNonce nonce
  body_ok : ∃ b rest, body = b :: rest ∧ isObjectStart b

/-- `timestamp.nonce.body`. -/
def SignedMessage.macInput (m : SignedMessage) : List UInt8 :=
  encodeAscii (m.timestamp ++ "." ++ m.nonce ++ ".") ++ m.body

/-- The bytes of a text are those of its parts. -/
theorem encodeAscii_append (s t : String) :
    encodeAscii (s ++ t) = encodeAscii s ++ encodeAscii t := by
  simp [encodeAscii]

/-- Two texts with the same bytes are the same. -/
theorem encodeAscii_inj {s t : String} (hs : isAscii s) (ht : isAscii t)
    (h : encodeAscii s = encodeAscii t) : s = t := by
  have hinj : ∀ cs ds : List Char, (∀ c ∈ cs, c.toNat < 128) → (∀ d ∈ ds, d.toNat < 128) →
      cs.map (fun c => UInt8.ofNat c.toNat) = ds.map (fun d => UInt8.ofNat d.toNat) → cs = ds := by
    intro cs
    induction cs with
    | nil => simp +contextual
    | cons c cs ih =>
      intro ds hcs hds heq
      cases ds with
      | nil => simp at heq
      | cons d ds =>
        simp only [List.map_cons, List.cons.injEq] at heq
        have hc := hcs c List.mem_cons_self
        have hd := hds d List.mem_cons_self
        have hnat := congrArg UInt8.toNat heq.1
        rw [UInt8.toNat_ofNat_of_lt' (by simp [UInt8.size]; omega),
          UInt8.toNat_ofNat_of_lt' (by simp [UInt8.size]; omega)] at hnat
        rw [Char.toNat_inj.mp hnat, ih ds (fun c h => hcs c (List.mem_cons_of_mem _ h))
          (fun d h => hds d (List.mem_cons_of_mem _ h)) heq.2]
  simp only [isAscii, List.all_eq_true, decide_eq_true_eq] at hs ht
  exact String.toList_inj.mp (hinj _ _ hs ht h)

/-- The code points of letters and digits. -/
theorem isAlphanum_bounds {c : Char} (h : c.isAlphanum) : 48 ≤ c.toNat ∧ c.toNat ≤ 57 ∨
    65 ≤ c.toNat ∧ c.toNat ≤ 90 ∨ 97 ≤ c.toNat ∧ c.toNat ≤ 122 := by
  delta Char.isAlphanum Char.isAlpha Char.isUpper Char.isLower Char.isDigit at h
  simp only [Bool.or_eq_true, Bool.and_eq_true, decide_eq_true_eq, ge_iff_le,
    UInt32.le_iff_toNat_le] at h
  rcases h with (h | h) | h
  · exact .inr (.inl h)
  · exact .inr (.inr h)
  · exact .inl h

/-- A character of a nonce is ASCII, and is not what an object starts with. -/
theorem isNonceChar_bounds {c : Char} (h : isNonceChar c) :
    32 < c.toNat ∧ c.toNat < 123 := by
  simp only [isNonceChar, Bool.or_eq_true, decide_eq_true_eq] at h
  rcases h with (((h | rfl) | rfl) | rfl) | rfl
  · have := isAlphanum_bounds h
    omega
  all_goals decide

/-- The visible characters before an opening brace start no object. -/
theorem isObjectStart_ofNat {n : ℕ} (h : 32 < n ∧ n < 123) :
    isObjectStart (UInt8.ofNat n) = false := by
  have hn : (UInt8.ofNat n).toNat = n := UInt8.toNat_ofNat_of_lt' (by simp [UInt8.size]; omega)
  have hne (b : UInt8) (hb : b.toNat ≤ 32 ∨ b.toNat = 123) : UInt8.ofNat n ≠ b := by
    rintro rfl
    omega
  simp [isObjectStart, hne 32 (by decide), hne 9 (by decide), hne 10 (by decide),
    hne 13 (by decide), hne 123 (by decide)]

/-- The characters of a nonce. -/
theorem isNonce_chars {s : String} (h : isNonce s) : ∀ c ∈ s.toList, isNonceChar c := by
  unfold isNonce at h
  split at h
  · cases h
  · rename_i c cs hs
    simp only [Bool.and_eq_true, List.all_eq_true] at h
    rw [hs]
    intro d hd
    rcases List.mem_cons.mp hd with rfl | hd
    · simp [isNonceChar, h.1.1.1]
    · exact h.2 d hd

/-- The characters of a timestamp. -/
theorem isTimestamp_digits {s : String} (h : isTimestamp s) : ∀ c ∈ s.toList, c.isDigit := by
  unfold isTimestamp at h
  split at h
  · cases h
  · rename_i c cs hs
    rw [hs]
    split_ifs at h with hc
    · simp [hc, of_decide_eq_true h]
    · simp only [Bool.and_eq_true, List.all_eq_true] at h
      intro d hd
      rcases List.mem_cons.mp hd with rfl | hd
      · exact h.1.1
      · exact h.2 d hd

/-- A nonce is ASCII text. -/
theorem isAscii_nonce {s : String} (h : isNonce s) : isAscii s := by
  simp only [isAscii, List.all_eq_true, decide_eq_true_eq]
  intro c hc
  have := isNonceChar_bounds (isNonce_chars h c hc)
  omega

/-- So is a timestamp. -/
theorem isAscii_timestamp {s : String} (h : isTimestamp s) : isAscii s := by
  simp only [isAscii, List.all_eq_true, decide_eq_true_eq]
  intro c hc
  have := isAlphanum_bounds (c := c) (by simp [Char.isAlphanum, isTimestamp_digits h c hc])
  omega

/-- The byte of a dot. -/
def dot : UInt8 := 0x2e

/-- What is signed, part by part. -/
theorem SignedMessage.macInput_eq (m : SignedMessage) : m.macInput =
    encodeAscii m.timestamp ++ dot :: (encodeAscii m.nonce ++ dot :: m.body) := by
  have hdot : encodeAscii "." = [dot] := by decide
  simp [macInput, encodeAscii_append, hdot]

/-- A timestamp has no dot. -/
theorem dot_notMem_timestamp {s : String} (h : isTimestamp s) : dot ∉ encodeAscii s := by
  intro hmem
  obtain ⟨c, hc, hbyte⟩ := List.mem_map.mp hmem
  have hdigit := digit_bounds (isTimestamp_digits h c hc)
  have hlow : 48 ≤ c.toNat := hdigit.1
  have hhigh : c.toNat ≤ 57 := hdigit.2
  have hnat := congrArg UInt8.toNat hbyte
  rw [UInt8.toNat_ofNat_of_lt' (by simp [UInt8.size]; omega)] at hnat
  have hdot : dot.toNat = 46 := rfl
  omega

/-- What follows a list ends any list that has no such element. -/
theorem length_le_of_notMem {α : Type} {as as' bs bs' : List α} {b : α} (hb : b ∉ as')
    (h : as ++ b :: bs = as' ++ bs') : as'.length ≤ as.length := by
  by_contra hlt
  push Not at hlt
  have hget := congrArg (fun l : List α => l[as.length]?) h
  simp only [List.getElem?_append_left hlt, List.getElem?_append_right (le_refl as.length),
    Nat.sub_self, List.getElem?_cons_zero] at hget
  exact hb (List.mem_of_getElem? hget.symm)

/-- No byte of a nonce is what an object starts with. -/
theorem nonce_bytes {s : String} (h : isNonce s) :
    ∀ b ∈ encodeAscii s, isObjectStart b = false := by
  intro b hb
  obtain ⟨c, hc, rfl⟩ := List.mem_map.mp hb
  exact isObjectStart_ofNat (isNonceChar_bounds (isNonce_chars h c hc))

/-- What an object starts with tells where the nonce has ended. -/
theorem SignedMessage.nonce_length_le (m m' : SignedMessage)
    (h : encodeAscii m.nonce ++ dot :: m.body = encodeAscii m'.nonce ++ dot :: m'.body) :
    (encodeAscii m'.nonce).length ≤ (encodeAscii m.nonce).length := by
  obtain ⟨b, rest, hbody, hb⟩ := m.body_ok
  have hnot : b ∉ encodeAscii m'.nonce ++ [dot] := by
    intro hmem
    have hne : isObjectStart b = false := by
      rcases List.mem_append.mp hmem with hmem | hmem
      · exact nonce_bytes m'.nonce_ok b hmem
      · rw [List.mem_singleton.mp hmem]
        decide
    rw [hb] at hne
    cases hne
  rw [hbody] at h
  have hsplit : (encodeAscii m.nonce ++ [dot]) ++ b :: rest =
      (encodeAscii m'.nonce ++ [dot]) ++ m'.body := by
    simpa using h
  simpa using length_le_of_notMem hnot hsplit

/-- What is signed tells the timestamp, the nonce and the body. -/
theorem macInput_injective : Function.Injective SignedMessage.macInput := by
  intro m m' h
  rw [m.macInput_eq, m'.macInput_eq] at h
  obtain ⟨htimestamp, hrest⟩ := List.append_inj h (le_antisymm
    (length_le_of_notMem (dot_notMem_timestamp m.timestamp_ok) h.symm)
    (length_le_of_notMem (dot_notMem_timestamp m'.timestamp_ok) h))
  have hrest := (List.cons.inj hrest).2
  have hle := m.nonce_length_le m' hrest
  have hge := m'.nonce_length_le m hrest.symm
  obtain ⟨hnonce, hbody⟩ := List.append_inj hrest (le_antisymm hge hle)
  exact SignedMessage.ext (encodeAscii_inj (isAscii_timestamp m.timestamp_ok)
    (isAscii_timestamp m'.timestamp_ok) htimestamp) (encodeAscii_inj (isAscii_nonce m.nonce_ok)
    (isAscii_nonce m'.nonce_ok) hnonce) (List.cons.inj hbody).2

/-! ## Accepted deliveries -/

/-- When a message was signed. -/
def SignedMessage.signedAt (m : SignedMessage) : Instant :=
  readDecimal m.timestamp * 1000000

/-- What a delivery is accepted for : its headers and its body are a signed message, of late, and
what is ingested is the attachment, under the nonce. -/
structure Delivery.Accepts (host : WebhookHost) (settings : WebhookSettings) (delivery : Delivery)
    (m : SignedMessage) (x : Ingest) : Prop where
  signature : ∃ secret, settings.secret = some secret ∧
    delivery.request.getlist "x-webhook-signature" =
      [((host.hmac secret).sha256 m.macInput).val]
  timestamp : delivery.request.getlist "x-webhook-timestamp" = [m.timestamp]
  nonce : delivery.request.getlist "x-webhook-nonce" = [m.nonce]
  body : boundedBody settings.webhookMaxBytes delivery.request.stream [] = .ok m.body
  recent : |delivery.now - m.signedAt| ≤ settings.windowSeconds * 1000000
  spends : x.nonce = some ⟨m.nonce, m.signedAt⟩
  attachment : ∃ payload envelope, host.loads m.body = .ok payload ∧
    EmailWebhookRequest.validate payload = some envelope ∧
    envelope.attachment.contentType = x.contentType ∧
    envelope.attachment.contentBase64.toList = Base64.b64encode x.body
  source : x.source = .email
  key : delivery.request.idempotencyKey = some x.key

/-- A header that is read was sent once. -/
theorem WebhookRequest.oneHeader_ok {request : WebhookRequest} {name value : String}
    (h : request.oneHeader name = .ok value) : request.getlist name = [value] := by
  unfold WebhookRequest.oneHeader at h
  split at h
  · rename_i v hv
    rw [hv, Except.ok.inj h]
  · cases h

/-- What passes the authentication is what was there. -/
theorem authenticated_ok {α : Type} {o : Option α} {a : α} (h : authenticated o = .ok a) :
    o = some a := by
  cases o with
  | none => cases h
  | some b => rw [Except.ok.inj h]

/-- What the signature's headers are once they are parsed. -/
theorem parseSignatureHeaders_some {timestamp nonce signature : String} {now : Instant}
    {windowSeconds : ℕ} {signed : WebhookSignature}
    (h : parseSignatureHeaders timestamp nonce signature now windowSeconds = some signed) :
    isTimestamp timestamp ∧ isNonce nonce ∧
      |now - readDecimal timestamp * 1000000| ≤ windowSeconds * 1000000 ∧
      signed = ⟨timestamp, ⟨nonce, readDecimal timestamp * 1000000⟩, signature⟩ := by
  unfold parseSignatureHeaders fromTimestamp? at h
  split_ifs at h with hpatterns hyear
  · simp only [Bool.and_eq_true] at hpatterns
    rw [Option.bind_some] at h
    split_ifs at h with hwindow
    exact ⟨hpatterns.1.1, hpatterns.1.2, not_lt.mp hwindow, (Option.some.inj h).symm⟩
  · cases h

/-- A signature that is accepted is the HMAC of what it signs, and its nonce is returned. -/
theorem authenticateSignature_some {host : WebhookHost} {signed : WebhookSignature}
    {body secret : List UInt8} {nonce : WebhookNonce}
    (h : authenticateSignature host signed body secret = some nonce) :
    nonce = signed.nonce ∧ signed.signature = ((host.hmac secret).sha256
      (encodeAscii (signed.timestamp ++ "." ++ signed.nonce.nonce ++ ".") ++ body)).val := by
  unfold authenticateSignature at h
  dsimp only at h
  split_ifs at h with hdigest
  rw [(host.hmac secret).update_append] at hdigest
  exact ⟨(Option.some.inj h).symm, hdigest.symm⟩

/-- Every body that validates is a JSON object. -/
theorem EmailWebhookRequest.validate_object {payload : Json} {envelope : EmailWebhookRequest}
    (h : EmailWebhookRequest.validate payload = some envelope) :
      ∃ fields, payload = .obj fields := by
  unfold EmailWebhookRequest.validate at h
  split at h
  · exact ⟨_, rfl⟩
  · cases h

/-- What is decoded is the document of a body, and the attachment its encoding. -/
theorem decodeEmailDocument_ok {hash : HashObject} {envelope : EmailWebhookRequest} {maxBytes : ℕ}
    {document : RawDocument}
    (h : decodeEmailDocument hash (maxBytes + 1) envelope maxBytes = some (.ok document)) :
    envelope.attachment.contentBase64.toList = Base64.b64encode document.body ∧
      document = .ofEmail hash envelope.attachment.contentType document.body := by
  obtain ⟨result, hrun, hresult⟩ := decodeEmailDocument_cases hash envelope maxBytes
  obtain rfl : result = .ok document :=
    Option.some.inj ((hrun _ (Nat.lt_succ_self maxBytes)).symm.trans h)
  rcases hresult with ⟨error, herror, -⟩ | ⟨body, hbody, hdocument⟩
  · cases herror
  · obtain ⟨-, rfl⟩ := inspectBody_ok.mp hdocument.symm
    exact ⟨hbody, rfl⟩

/-- A signed email was read. -/
theorem readSignedEmail_ok {host : WebhookHost} {settings : WebhookSettings}
    {request : WebhookRequest} {now : Instant} {envelope : EmailWebhookRequest}
    {nonce : WebhookNonce} (h : readSignedEmail host settings request now = .ok (envelope, nonce)) :
    ∃ (m : SignedMessage) (secret : List UInt8) (payload : Json), settings.secret = some secret ∧
      request.getlist "x-webhook-signature" = [((host.hmac secret).sha256 m.macInput).val] ∧
      request.getlist "x-webhook-timestamp" = [m.timestamp] ∧
      request.getlist "x-webhook-nonce" = [m.nonce] ∧
      boundedBody settings.webhookMaxBytes request.stream [] = .ok m.body ∧
      |now - m.signedAt| ≤ settings.windowSeconds * 1000000 ∧
      nonce = ⟨m.nonce, m.signedAt⟩ ∧ host.loads m.body = .ok payload ∧
      EmailWebhookRequest.validate payload = some envelope := by
  unfold readSignedEmail at h
  cases hsecret : settings.secret with
  | none => simp [hsecret] at h
  | some secret =>
    rw [hsecret] at h
    simp only [bind_eq_ok] at h
    obtain ⟨timestamp, htimestamp, n, hn, signature, hsignature, signed, hsigned, -, -, -, -, raw,
      hraw, nonce', hnonce, payload, hpayload, h⟩ := h
    obtain ⟨hts, hns, hrecent, rfl⟩ := parseSignatureHeaders_some (authenticated_ok hsigned)
    obtain ⟨rfl, hdigest⟩ := authenticateSignature_some (authenticated_ok hnonce)
    have hloads : host.loads raw = .ok payload := by
      cases hjson : host.loads raw with
      | error e => simp [hjson, Except.mapError] at hpayload
      | ok payload' => simpa [hjson, Except.mapError] using hpayload
    cases hvalid : EmailWebhookRequest.validate payload with
    | none => simp [hvalid] at h
    | some envelope' =>
      rw [hvalid] at h
      obtain ⟨rfl, rfl⟩ := Prod.mk.inj (Except.ok.inj h)
      obtain ⟨fields, rfl⟩ := EmailWebhookRequest.validate_object hvalid
      refine ⟨⟨timestamp, n, raw, hts, hns, host.loads_object raw fields hloads⟩, secret, _, rfl,
        ?_, WebhookRequest.oneHeader_ok htimestamp, WebhookRequest.oneHeader_ok hn, hraw, hrecent,
        rfl, hloads, hvalid⟩
      rw [WebhookRequest.oneHeader_ok hsignature]
      exact congrArg (fun v => [v]) hdigest

/-- What a delivery ingests is what it is accepted for. -/
theorem Delivery.ingest_ok {host : WebhookHost} {settings : WebhookSettings} {hash : HashObject}
    {delivery : Delivery} {x : Ingest} (h : delivery.ingest host settings hash = .ok x) :
    ∃ m, delivery.Accepts host settings m x := by
  unfold Delivery.ingest at h
  cases hkey : delivery.request.idempotencyKey with
  | none => simp [hkey] at h
  | some key =>
    rw [hkey] at h
    simp only [bind_eq_ok] at h
    obtain ⟨⟨envelope, nonce⟩, hread, h⟩ := h
    obtain ⟨m, secret, payload, hsecret, hsignature, htimestamp, hnonce, hbody, hrecent, rfl,
      hloads, hvalid⟩ := readSignedEmail_ok hread
    dsimp only at h
    split_ifs at h
    split at h
    · cases h
    · cases h
    · rename_i document hdecode
      obtain ⟨hencoded, hdocument⟩ := decodeEmailDocument_ok hdecode
      obtain rfl := Except.ok.inj h
      refine ⟨m, ⟨secret, hsecret, hsignature⟩, htimestamp, hnonce, hbody, hrecent, rfl,
        ⟨payload, envelope, hloads, hvalid, ?_, hencoded⟩, ?_, hkey⟩
      · rw [hdocument]
        rfl
      · rw [hdocument]
        rfl

/-! ## Any number of requests -/

/-- A request that ingests : an upload, as it was read, or a delivery. -/
inductive EndpointCall where
  | upload (x : Ingest)
  | email (delivery : Delivery)

section

variable {ι : Type} [DecidableEq ι] (host : WebhookHost) (settings : WebhookSettings)
  (s : IngestionService)

/-- What a request asks of the service. -/
def EndpointCall.ingest (hash : HashObject) : EndpointCall → Except ApiError Ingest
  | upload x => .ok { x with source := .upload, nonce := none }
  | email delivery => delivery.ingest host settings hash

/-- Requests at once. -/
def endpoints :
    System ι (Server ι Db Write Lock) PutAnswer Exn IngestionOutcome EndpointCall where
  body call :=
    match call.ingest host settings s.hash with
    | .error e => throw e.exn
    | .ok x => s.ingest x
  reset i g := g.close i

/-- How a request ends. -/
def EndpointCall.Handled (call : EndpointCall) (i : ι) (entry : Server ι Db Write Lock)
    (out : Except Exn IngestionOutcome) (g : Server ι Db Write Lock) : Prop :=
  match call.ingest host settings s.hash with
  | .error e => out = .error e.exn ∧ (g.session i).wrote = (entry.session i).wrote
  | .ok x => s.Ingested x i entry out g

variable {host settings s}

/-- Every call of the two endpoints is handled as the postcondition says, from any state. -/
theorem endpoints_verified : (endpoints host settings s).Verified (ingestOperations ι s)
    fun call i entry out g => call.Handled host settings s i entry out g where
  body call i g hi hidle := by
    unfold EndpointCall.Handled endpoints
    dsimp only
    cases call.ingest host settings s.hash with
    | ok x => exact wp_ingest hi hidle
    | error e => exact wp_raise hi (At.of_idle hidle) fun g' _ h => ⟨h.idle, rfl, h.committed⟩
  reset i g hi := by
    obtain ⟨hg, hi', hat⟩ := close_step hi
    exact ⟨hi', hg, hat.idle⟩

/-- A request that is answered was ingested. -/
theorem EndpointCall.Handled.ok {call : EndpointCall} {i : ι} {entry g : Server ι Db Write Lock}
    {outcome : IngestionOutcome} (h : call.Handled host settings s i entry (.ok outcome) g) :
    ∃ x, call.ingest host settings s.hash = .ok x ∧ s.Answered x i entry outcome g := by
  unfold EndpointCall.Handled at h
  cases hx : call.ingest host settings s.hash with
  | ok x =>
    rw [hx] at h
    exact ⟨x, rfl, h⟩
  | error e =>
    rw [hx] at h
    exact absurd h.1 (by simp)

/-- A request that fails has written nothing. -/
theorem EndpointCall.Handled.error {call : EndpointCall} {i : ι}
    {entry g : Server ι Db Write Lock} {e : Exn}
    (h : call.Handled host settings s i entry (.error e) g) :
    (g.session i).wrote = (entry.session i).wrote := by
  unfold EndpointCall.Handled at h
  cases hx : call.ingest host settings s.hash with
  | ok x =>
    rw [hx] at h
    exact h.1
  | error e' =>
    rw [hx] at h
    exact h.2

/-- What is signed tells the message. In any interleaving of uploads and deliveries, a nonce is
claimed by one commit. A delivery that is answered has accepted a message that was signed within the
window, and its commit claims the message's nonce, which no one had claimed before ; one that fails
has written nothing. No two answered deliveries have accepted one message, nor one nonce. -/
theorem webhook_single_use {d : Db} (h₀ : IngestInv s.hash d)
    {cfg : Config ι (Server ι Db Write Lock) PutAnswer Exn IngestionOutcome EndpointCall}
    (h : (endpoints host settings s).Reachable (Server.start d) cfg) :
    Function.Injective SignedMessage.macInput ∧
    (∃ log, IsLog schema d cfg.store log ∧ ((claimsOf log).map Prod.snd).Nodup) ∧
    (∀ i t delivery outcome, cfg.thread i = some t → t.call = .email delivery →
      t.rest.outcome? = some (.ok outcome) → ∃ m x, delivery.Accepts host settings m x ∧
        .insertNonce ⟨m.nonce, m.signedAt, x.createdAt⟩ ∈ (cfg.store.session i).wrote ∧
        s.Answered x i t.entry outcome cfg.store) ∧
    (∀ i t e, cfg.thread i = some t → t.rest.outcome? = some (.error e) →
      (cfg.store.session i).wrote = (t.entry.session i).wrote) ∧
    ∀ i j t t' delivery delivery' outcome outcome' m m' x x', cfg.thread i = some t →
      cfg.thread j = some t' → t.call = .email delivery → t'.call = .email delivery' →
      t.rest.outcome? = some (.ok outcome) → t'.rest.outcome? = some (.ok outcome') →
      delivery.Accepts host settings m x → delivery'.Accepts host settings m' x' →
      m.macInput = m'.macInput ∨ m.nonce = m'.nonce → i = j := by
  have hv := @endpoints_verified ι _ host settings s
  have hinv := (System.inv_of_reachable hv (inv_start h₀) (fun i => idle_start d) h).2
  have hpost (i t out) (ht : cfg.thread i = some t) (hout : t.rest.outcome? = some out) :
      t.call.Handled host settings s i t.entry out cfg.store :=
    System.post_of_reachable hv (inv_start h₀) (fun i => idle_start d) h ht hout
  obtain ⟨log, hlog⟩ := log_of_reachable hv h₀ h
  have hnodup := claimsOf_nodup hlog hinv.nonces
  have haccepts (i t delivery outcome) (ht : cfg.thread i = some t)
      (hcall : t.call = .email delivery) (hout : t.rest.outcome? = some (.ok outcome)) :
      ∃ m x, delivery.Accepts host settings m x ∧
        .insertNonce ⟨m.nonce, m.signedAt, x.createdAt⟩ ∈ (cfg.store.session i).wrote ∧
        s.Answered x i t.entry outcome cfg.store := by
    obtain ⟨x, hx, hanswered⟩ := (hpost i t _ ht hout).ok
    rw [hcall] at hx
    obtain ⟨m, hm⟩ := Delivery.ingest_ok hx
    exact ⟨m, x, hm, hanswered.claims hm.spends, hanswered⟩
  refine ⟨macInput_injective, ⟨log, hlog, hnodup⟩, haccepts,
    fun i t e ht hout => (hpost i t _ ht hout).error, ?_⟩
  intro i j t t' delivery delivery' outcome outcome' m m' x x' ht ht' hcall hcall' hout hout' hm hm'
    hsame
  have hnonce : m.nonce = m'.nonce := by
    rcases hsame with hmac | hnonce
    · rw [macInput_injective hmac]
    · exact hnonce
  obtain ⟨n, y, hn, hwrote, -⟩ := haccepts i t delivery outcome ht hcall hout
  obtain ⟨n', y', hn', hwrote', -⟩ := haccepts j t' delivery' outcome' ht' hcall' hout'
  have hsent : n.nonce = n'.nonce := by
    rw [← List.singleton_inj.mp (hm.nonce.symm.trans hn.nonce),
      ← List.singleton_inj.mp (hm'.nonce.symm.trans hn'.nonce), hnonce]
  exact congrArg Prod.fst (List.inj_on_of_nodup_map hnodup (mem_claimsOf hlog hwrote)
    (mem_claimsOf hlog hwrote') hsent)

end

/-! ### One message under two keys -/

/-- An object with the document `%PDF-` as its attachment. -/
def sampleEmail : List UInt8 :=
  encodeAscii ("\x7b\"attachment\":\x7b\"content_type\":\"application/pdf\"," ++
    "\"content_base64\":\"JVBERi0=\"\x7d\x7d")

/-- The secret of the sample. -/
def sampleSecret : List UInt8 :=
  List.replicate 32 0x6b

/-- The nonce of the sample. -/
def sampleNonce : String :=
  "aaaaaaaaaaaaaaaa"

/-- The signature of the sample. -/
def sampleMac : Sha256 :=
  ⟨"1980bce2eec9676b9954adacc321482e8b23bd021d526e0511a23a2cf8da2d99", by decide +kernel⟩

/-- The sample body starts an object. -/
theorem sampleEmail_object : ∃ b rest, sampleEmail = b :: rest ∧ isObjectStart b :=
  ⟨0x7b, sampleEmail.tail, by decide +kernel, by decide⟩

/-- The only body that is read is that object. -/
def sampleLoads (raw : List UInt8) : Except IngestionError Json :=
  if raw = sampleEmail then
    .ok (.obj [("attachment", .obj [("content_type", .str "application/pdf"),
      ("content_base64", .str "JVBERi0=")])])
  else .error (.invalidDocument "The webhook body must contain valid JSON.")

/-- The sample parser reads objects only. -/
theorem sampleLoads_object (raw : List UInt8) (fields : List (String × Json))
    (h : sampleLoads raw = .ok (.obj fields)) :
    ∃ b rest, raw = b :: rest ∧ isObjectStart b := by
  unfold sampleLoads at h
  split_ifs at h with hraw
  rw [hraw]
  exact sampleEmail_object

/-- A host that knows the signature of the sample. -/
def sampleWebhookHost : WebhookHost where
  hmac secret := .knowing (if secret = sampleSecret then
    [(encodeAscii ("0." ++ sampleNonce ++ ".") ++ sampleEmail, sampleMac)] else [])
  loads := sampleLoads
  loads_object := sampleLoads_object

/-- The settings of the sample. -/
def sampleWebhooks : WebhookSettings where
  secret := some sampleSecret
  windowSeconds := 300
  webhookMaxBytes := 1000
  documentMaxBytes := 10
  configured := true

/-- A delivery of the message, a second after it was signed. -/
def sampleDelivery (key : String) (id : Uuid) : Delivery where
  request := {
    headers := [("x-webhook-timestamp", "0"), ("x-webhook-nonce", sampleNonce),
      ("x-webhook-signature", sampleMac.val), ("content-type", "application/json")]
    stream := [.chunk sampleEmail]
    idempotencyKey := some key
    traceId := sampleTrace }
  now := 1000000
  invoiceId := id
  runId := id + 1
  createdAt := 1000000
  eventId := id + 2
  stamp := 1000000

/-- The second delivery waits for the nonce of the first. -/
def sampleDeliveries : List (Event ℕ PutAnswer EndpointCall) :=
  [Event.start 0 (EndpointCall.email (sampleDelivery "a" 10)),
    .start 1 (.email (sampleDelivery "bb" 20)),
    .stmt 0 (.answer PutAnswer.stored), .stmt 1 (.answer (.clientError "PreconditionFailed"))] ++
    List.replicate 4 (Event.stmt 0 .proceed) ++ List.replicate 2 (Event.stmt 1 .proceed) ++
    List.replicate 8 (Event.stmt 0 .proceed) ++ List.replicate 2 (Event.stmt 1 .proceed)

set_option maxRecDepth 20000 in
/-- The second delivery is refused. -/
theorem sampleDeliveries_outcomes :
    (((endpoints sampleWebhookHost sampleWebhooks sampleIngestion).replay
      (System.initial (Server.start Db.empty)) sampleDeliveries).map fun cfg =>
        (cfg.store.db.nonces.map NonceRow.nonce,
          (cfg.thread 1).bind fun t => t.rest.outcome?)) =
      some ([sampleNonce], some (.error webhookNonceReuse)) := by
  decide +kernel

/-- The theorem applies to the sample deliveries. -/
theorem webhook_single_use_sampleDeliveries :
    ∃ cfg : Config ℕ (Server ℕ Db Write Lock) PutAnswer Exn IngestionOutcome EndpointCall,
      cfg.store.db.nonces.map NonceRow.nonce = [sampleNonce] ∧
      ∃ log, IsLog schema Db.empty cfg.store log ∧ ((claimsOf log).map Prod.snd).Nodup := by
  obtain ⟨cfg, hcfg, houtcomes⟩ := Option.map_eq_some_iff.mp sampleDeliveries_outcomes
  exact ⟨cfg, (Prod.mk.inj houtcomes).1,
    (webhook_single_use (ingestInv_empty _) ⟨sampleDeliveries, hcfg⟩).2.1⟩

end InvoiceOps
