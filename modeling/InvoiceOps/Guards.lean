import InvoiceOps.GatewayClient
import InvoiceOps.Substitution
import Mathlib.Data.Bool.AllAny

/-!
# The guards of the gateway

`RequestGuards.text` rejects a text in which an injection pattern is found, and replaces what the
PII patterns match, one pattern after another. `chat` and `embeddings` do so to every text of a
request, and charge what is sent against the budgets of its alias.

What an e-mail address or an IBAN is replaced by never makes a match of another pattern. A phone
number may not be preceded by a word, and a token is none : where two numbers touch, the second is
not replaced with the first, and is matched behind its token (`redaction_complete_iff`).
-/

namespace InvoiceOps

/-! ## Characters -/

/-- What `re` knows of characters. -/
structure Unicode where
  /-- `\w`. -/
  isWord : Char → Bool
  /-- `\d`. -/
  isDecimal : Char → Bool
  isWord_ascii : ∀ c, c.toNat < 128 → isWord c = (c.isAlphanum || c = '_')
  isDecimal_ascii : ∀ c, c.toNat < 128 → isDecimal c = c.isDigit
  isWord_of_isDecimal : ∀ c, isDecimal c → isWord c
  isWord_folded : ∀ c ∈ ['\u0130', '\u0131', '\u017f', '\u212a'], isWord c

/-- `[A-Z]`, in any case. -/
def isLetter (c : Char) : Bool :=
  c.isAlpha || c ∈ ['\u0130', '\u0131', '\u017f', '\u212a']

/-- `[A-Z0-9]`, in any case. -/
def isLetterOrDigit (c : Char) : Bool :=
  isLetter c || c.isDigit

/-- A small letter, in any case. -/
def caseless (letter c : Char) : Bool :=
  c.toLower = letter || letter = 'i' && (c = '\u0130' || c = '\u0131') ||
    letter = 's' && c = '\u017f' || letter = 'k' && c = '\u212a'

namespace Unicode

variable (u : Unicode)

/-- `\b`. -/
def boundary (before next : Option Char) : Bool :=
  before.any u.isWord != next.any u.isWord

/-- `(?<!\w)`. -/
def clear (before : Option Char) : Bool :=
  !before.any u.isWord

/-- `[\d ()\-]`. -/
def isPhoneChar (c : Char) : Bool :=
  u.isDecimal c || c = ' ' || c = '(' || c = ')' || c = '-'

/-! ## Patterns -/

open Pattern in
/-- `\b[A-Z0-9._%+\-]+@[A-Z0-9.\-]+\.[A-Z]{2,}\b`. -/
def email : Pattern :=
  all [look u.boundary, plus fun c => isLetterOrDigit c || c ∈ ['.', '_', '%', '+', '-'],
    one fun c => c = '@', plus fun c => isLetterOrDigit c || c ∈ ['.', '-'], one fun c => c = '.',
    one isLetter, plus isLetter, look u.boundary]

open Pattern in
/-- `\b[A-Z]{2}\d{2}(?:[ ]?[A-Z0-9]){11,30}\b`. -/
def iban : Pattern :=
  all [look u.boundary, one isLetter, one isLetter, one u.isDecimal, one u.isDecimal,
    times 11 30 (seq (optional (one fun c => c = ' ')) (one isLetterOrDigit)), look u.boundary]

open Pattern in
/-- `\d[\d ()\-]{7,18}\d\b`. -/
def phoneNumber : Pattern :=
  all [one u.isDecimal, times 7 18 (one u.isPhoneChar), one u.isDecimal, look u.boundary]

/-- `(?<!\w)\+\d[\d ()\-]{7,18}\d\b`. -/
def phone : Pattern :=
  .led u.clear '+' u.phoneNumber

/-- `pii_patterns`. -/
def piiPatterns : List (String × Pattern) :=
  [("EMAIL", u.email), ("IBAN", u.iban), ("PHONE", u.phone)]

/-- A word, in any case. -/
def word (s : String) : Pattern :=
  .all (s.toList.map fun c => .one (caseless c))

/-- `\s+`. -/
def spaces : Pattern :=
  .plus isPythonSpace

open Pattern in
/-- `\bignore\s+(?:all\s+)?(?:previous|prior|above)\s+instructions\b`. -/
def ignoreInstructions : Pattern :=
  all [look u.boundary, word "ignore", spaces, optional (seq (word "all") spaces),
    alt (word "previous") (alt (word "prior") (word "above")), spaces, word "instructions",
    look u.boundary]

open Pattern in
/-- `\b(?:reveal|print|disclose)\s+(?:the\s+)?system\s+prompt\b`. -/
def revealPrompt : Pattern :=
  all [look u.boundary, alt (word "reveal") (alt (word "print") (word "disclose")), spaces,
    optional (seq (word "the") spaces), word "system", spaces, word "prompt", look u.boundary]

/-- `injection_patterns`. -/
def injectionPatterns : List Pattern :=
  [u.ignoreInstructions, u.revealPrompt]

end Unicode

/-! ## Requests -/

/-- A part of a message : a text, or the data URL of an image or a document. -/
inductive ContentPart where
  | text (text : String)
  | image (dataUrl : String) (detail : String)
  | file (dataUrl : String)
  deriving DecidableEq

/-- Who speaks. -/
inductive MessageRole where
  | system | user | assistant
  deriving DecidableEq, Repr

/-- A message of a request. Only a user sends documents. -/
structure GatewayMessage where
  role : MessageRole
  content : List ContentPart
  length_pos : 1 ≤ content.length
  length_le : content.length ≤ 32
  validate_role_content : role ≠ .user → ∀ part ∈ content, ∃ text, part = .text text

/-- A request for a completion. -/
structure GatewayRequest extends RequestContext where
  «alias» : ModelAlias
  messages : List GatewayMessage
  maxOutputTokens : Option ℕ := none
  semanticCache : Bool := false
  messages_pos : 1 ≤ messages.length
  messages_le : messages.length ≤ 64
  maxOutputTokens_pos : ∀ n ∈ maxOutputTokens, 0 < n
  /-- `public_cache_only`. -/
  public_cache_only : semanticCache = true → sensitivity = .public ∧ "public_".isPrefixOf scenario ∧
    ∀ m ∈ messages, ∀ part ∈ m.content, ∃ text, part = .text text

/-- A request for embeddings. -/
structure EmbeddingRequest extends RequestContext where
  inputs : List String
  inputs_pos : 1 ≤ inputs.length
  inputs_le : inputs.length ≤ 128
  validate_inputs : ∀ input ∈ inputs, 1 ≤ input.length ∧ input.length ≤ 1000000

/-- A part of a message as it is sent. -/
inductive SentPart where
  | text (text : String)
  | imageUrl (url : String) (detail : String)
  | file (fileData : String) (filename : String)
  deriving DecidableEq

/-- A message as it is sent. -/
inductive SentMessage where
  | system (content : String)
  | assistant (content : String)
  | user (content : List SentPart)
  deriving DecidableEq

/-- `GuardedChat`, but for the schema, which is the caller's. -/
structure GuardedChat where
  messages : List SentMessage
  outputTokens : ℕ
  deriving DecidableEq

/-- The policy of an alias, with what it allows of documents. -/
structure ChatPolicy extends AliasPolicy where
  binaryTokenReserve : ℕ := 8192
  allowImages : Bool := false
  allowPdf : Bool := false

/-! ## Guards -/

/-- What the guards read of the settings. -/
structure RequestGuards where
  pii : List (String × Pattern)
  injection : List Pattern
  maxBinaryBytes : ℕ := 5000000
  maxBinaryParts : ℕ := 4

/-- The tokens charged so far, and the documents. -/
structure Charged where
  tokens : ℕ
  binaries : ℕ

/-- `len(text.encode("utf-8"))`. -/
def utf8Length (text : String) : ℕ :=
  text.utf8ByteSize

namespace RequestGuards

variable (guards : RequestGuards)

/-- The text with a token for what the patterns match, one pattern after another. -/
def redact (pii : List (String × Pattern)) (text : List Char) : List Char :=
  pii.foldl (fun text p => p.2.sub ("[REDACTED:" ++ p.1 ++ "]").toList text) text

/-- A text as it is sent. -/
def redacted (text : String) : String :=
  String.ofList (redact guards.pii text.toList)

/-- An injection pattern is found. -/
def injected (text : String) : Bool :=
  guards.injection.any fun pattern => pattern.search none text.toList

/-- `text`. -/
def text (text : String) (inspect : Bool) : Except GatewayError String :=
  if inspect && guards.injected text then .error { kind := .guardrailRejected }
  else .ok (guards.redacted text)

/-- `contains_pii`. -/
def containsPii (text : String) : Bool :=
  guards.pii.any fun p => p.2.search none text.toList

/-- `data_url.partition(",")[2]`. -/
def payload (dataUrl : String) : List Char :=
  (dataUrl.toList.dropWhile (· ≠ ',')).drop 1

/-- The size of what is encoded, by its length and its padding. -/
def decodedBytes (payload : List Char) : ℤ :=
  payload.length / 4 * 3 - payload.length + (payload.reverse.dropWhile (· = '=')).length

/-- `_binary`, of a part that is allowed or not. -/
def binary (allowed : Bool) (dataUrl : String) : Except GatewayError Unit :=
  if !allowed then .error { kind := .guardrailRejected }
  else if decodedBytes (payload dataUrl) > guards.maxBinaryBytes then
    .error { kind := .tokenBudgetExceeded }
  else .ok ()

/-- A document, charged. -/
def document (policy : ChatPolicy) (allowed : Bool) (dataUrl : String) (part : SentPart)
    (charged : Charged) : Except GatewayError (SentPart × Charged) :=
  if charged.binaries + 1 > guards.maxBinaryParts then .error { kind := .tokenBudgetExceeded }
  else do
    guards.binary allowed dataUrl
    return (part, ⟨charged.tokens + policy.binaryTokenReserve, charged.binaries + 1⟩)

/-- A part of a message, charged. -/
def part (policy : ChatPolicy) (inspect : Bool) (charged : Charged) :
    ContentPart → Except GatewayError (SentPart × Charged)
  | .text t => do
    let sent ← guards.text t inspect
    return (.text sent, { charged with tokens := charged.tokens + utf8Length sent })
  | .image url detail =>
    guards.document policy policy.allowImages url (.imageUrl url detail) charged
  | .file url => guards.document policy policy.allowPdf url (.file url "invoice.pdf") charged

/-- The parts of a message. -/
def parts (policy : ChatPolicy) (inspect : Bool) :
    Charged → List ContentPart → Except GatewayError (List SentPart × Charged)
  | charged, [] => .ok ([], charged)
  | charged, p :: ps => do
    let (sent, charged) ← guards.part policy inspect charged p
    let (rest, charged) ← parts policy inspect charged ps
    return (sent :: rest, charged)

end RequestGuards

/-- The texts of some parts. -/
def SentPart.texts (sent : List SentPart) : List String :=
  sent.filterMap fun
    | .text t => some t
    | _ => none

/-- The texts of some parts of a message. -/
def ContentPart.texts (parts : List ContentPart) : List String :=
  parts.filterMap fun
    | .text t => some t
    | _ => none

/-- The texts of a message that is sent. -/
def SentMessage.texts : SentMessage → List String
  | .system content | .assistant content => [content]
  | .user content => SentPart.texts content

/-- A message with its parts. -/
def MessageRole.sent (role : MessageRole) (sent : List SentPart) : SentMessage :=
  match role with
  | .system => .system ("\n".intercalate (SentPart.texts sent))
  | .assistant => .assistant ("\n".intercalate (SentPart.texts sent))
  | .user => .user sent

namespace RequestGuards

variable (guards : RequestGuards)

/-- The messages of a request, each of them at 16 tokens more. -/
def messages (policy : ChatPolicy) :
    Charged → List GatewayMessage → Except GatewayError (List SentMessage × Charged)
  | charged, [] => .ok ([], charged)
  | charged, m :: ms => do
    let (sent, charged) ← guards.parts policy (m.role = .user)
      { charged with tokens := charged.tokens + 16 } m.content
    let (rest, charged) ← messages policy charged ms
    return (m.role.sent sent :: rest, charged)

/-- `_budget`. -/
def budget (tokens output : ℕ) (policy : ChatPolicy) : Except GatewayError Unit :=
  if tokens > policy.inputTokenLimit ∨ tokens + output > policy.totalTokenLimit then
    .error { kind := .tokenBudgetExceeded }
  else .ok ()

/-- `chat`, for a response whose schema is so many bytes. -/
def chat (request : GatewayRequest) (policy : ChatPolicy) (schemaBytes : ℕ) :
    Except GatewayError GuardedChat := do
  let (sent, charged) ← guards.messages policy ⟨schemaBytes + 32, 0⟩ request.messages
  let output := request.maxOutputTokens.getD policy.outputTokenLimit
  if output > policy.outputTokenLimit then throw { kind := .tokenBudgetExceeded }
  budget charged.tokens output policy
  return ⟨sent, output⟩

/-- `embeddings`. -/
def embeddings (request : EmbeddingRequest) (policy : ChatPolicy) :
    Except GatewayError (List String) := do
  let inputs ← request.inputs.mapM fun input => guards.text input true
  budget ((inputs.map utf8Length).sum + 16 * inputs.length) 0 policy
  return inputs

end RequestGuards

/-- The guards under the patterns of the settings, where they give none. -/
def Unicode.guards (u : Unicode) (maxBinaryBytes maxBinaryParts : ℕ) : RequestGuards where
  pii := u.piiPatterns
  injection := u.injectionPatterns
  maxBinaryBytes := maxBinaryBytes
  maxBinaryParts := maxBinaryParts

/-- The text without e-mail addresses and IBANs has a phone number, as `re` finds it, that ends
where another begins. -/
def Unicode.phonesTouch (u : Unicode) (text : String) : Bool :=
  Pattern.anywhere (u.phone.followed (.headed '+' u.phoneNumber)) none
    (RequestGuards.redact (u.piiPatterns.take 2) text.toList)

/-! ## What the patterns match -/

namespace RequestGuards

section

variable {u : Unicode}

/-- A letter is of a word. -/
theorem isWord_of_isLetter {c : Char} (h : isLetter c) : u.isWord c := by
  rw [isLetter, Bool.or_eq_true, decide_eq_true_eq] at h
  rcases h with h | h
  · have hascii : c.toNat < 128 := by
      rcases (Bool.or_eq_true _ _).mp h with hcase | hcase
      · have hle := (of_decide_eq_true hcase).2
        exact Nat.lt_of_le_of_lt (UInt32.le_iff_toNat_le.mp hle) (by decide)
      · have hle := of_decide_eq_true ((Bool.and_eq_true _ _).mp hcase).2
        exact Nat.lt_of_le_of_lt (UInt32.le_iff_toNat_le.mp hle) (by decide)
    rw [u.isWord_ascii c hascii, Char.isAlphanum, h]
    rfl
  · exact u.isWord_folded c h

/-- So is a digit. -/
theorem isWord_of_isLetterOrDigit {c : Char} (h : isLetterOrDigit c) : u.isWord c := by
  rw [isLetterOrDigit, Bool.or_eq_true] at h
  rcases h with h | h
  · exact isWord_of_isLetter h
  · have hhigh := (Char.isDigit_iff_toNat.mp h).2
    rw [u.isWord_ascii c (Nat.lt_of_le_of_lt hhigh (by decide)), Char.isAlphanum, h, Bool.or_true]
    rfl

/-- A character that is of no word, and of no class of the PII patterns. -/
def Plain (c : Char) : Prop :=
  c = '[' ∨ c = ']' ∨ c = '\n'

/-- It is of no class, but for that of spaces. -/
theorem Plain.classes {c : Char} (h : Plain c) : c.toNat < 128 ∧ isLetterOrDigit c = false ∧
    isLetter c = false ∧ u.isDecimal c = false ∧ u.isPhoneChar c = false ∧ u.isWord c = false ∧
    c ∉ ['.', '_', '%', '+', '-', '@', ' '] := by
  have hascii : c.toNat < 128 := by
    rcases h with rfl | rfl | rfl <;> decide
  rw [Unicode.isPhoneChar, u.isDecimal_ascii c hascii, u.isWord_ascii c hascii]
  rcases h with rfl | rfl | rfl <;> decide

/-- Every pattern rejects it. -/
theorem email_rejects {c : Char} (h : Plain c) : u.email.Rejects c := by
  obtain ⟨-, hdigit, hletter, -, -, -, hc⟩ := h.classes (u := u)
  simp only [List.mem_cons, List.not_mem_nil, or_false, not_or] at hc
  simp [Unicode.email, Pattern.all, Pattern.plus, Pattern.empty, Pattern.Rejects, hdigit, hletter,
    hc]

/-- So does the one of IBANs. -/
theorem iban_rejects {c : Char} (h : Plain c) : u.iban.Rejects c := by
  obtain ⟨-, hdigit, hletter, hdecimal, -, -, hc⟩ := h.classes (u := u)
  simp only [List.mem_cons, List.not_mem_nil, or_false, not_or] at hc
  simp [Unicode.iban, Pattern.all, Pattern.optional, Pattern.empty, Pattern.Rejects, hdigit,
    hletter, hdecimal, hc]

/-- A phone number has no other `+` than the one before it. -/
theorem phoneNumber_rejects {c : Char} (h : Plain c ∨ c = '+') : u.phoneNumber.Rejects c := by
  have hc : u.isDecimal c = false ∧ u.isPhoneChar c = false := by
    rcases h with h | rfl
    · obtain ⟨-, -, -, hdecimal, hphone, -⟩ := h.classes (u := u)
      exact ⟨hdecimal, hphone⟩
    · rw [Unicode.isPhoneChar, u.isDecimal_ascii '+' (by decide)]
      decide
  simp [Unicode.phoneNumber, Pattern.all, Pattern.empty, Pattern.Rejects, hc]

/-- Nor is a plain character of it. -/
theorem phone_rejects {c : Char} (h : Plain c) : u.phone.Rejects c := by
  obtain ⟨-, -, -, -, -, -, hc⟩ := h.classes (u := u)
  simp only [List.mem_cons, List.not_mem_nil, or_false, not_or] at hc
  refine ⟨trivial, ?_, phoneNumber_rejects (.inl h)⟩
  simp [Pattern.Rejects, hc]

/-- A pattern asserts nothing but where words begin and end. -/
def Bounded (u : Unicode) (r : Pattern) : Prop :=
  r.Asserts fun holds => holds = u.boundary ∨ ∀ before next, holds before next = true

/-- The characters of the tokens, but for their end. -/
def tokenChars : List Char :=
  "[REDACTED:EMAILBANPHONE".toList

/-- The token of an e-mail address has no others. -/
theorem emailToken_chars : ∀ c ∈ "REDACTED:EMAIL".toList, c ∈ tokenChars :=
  List.all_iff_forall_prop.mp (by decide)

/-- Nor that of an IBAN. -/
theorem ibanToken_chars : ∀ c ∈ "REDACTED:IBAN".toList, c ∈ tokenChars :=
  List.all_iff_forall_prop.mp (by decide)

/-- Nor that of a phone number. -/
theorem phoneToken_chars : ∀ c ∈ "REDACTED:PHONE".toList, c ∈ tokenChars :=
  List.all_iff_forall_prop.mp (by decide)

/-- A pattern that no token has a part in. -/
structure Foreign (r : Pattern) : Prop where
  opening : r.Rejects '['
  closing : r.Rejects ']'
  needs : ∃ p, r.Needs p ∧ ∀ c ∈ tokenChars, p c = false

/-- So it is found behind a token as if there were none. -/
theorem Foreign.outside {r : Pattern} (h : Foreign r) {inner : List Char}
    (hinner : ∀ c ∈ inner, c ∈ tokenChars) : r.Outside '[' inner ']' where
  rejects_opening := h.opening
  rejects_closing := h.closing
  needs := by
    obtain ⟨p, hp, hclear⟩ := h.needs
    exact ⟨p, hp, hclear '[' (by decide), fun c hc => hclear c (hinner c hc)⟩

/-- What separates words in a text : a match stands between two of them. -/
structure Apart (u : Unicode) (r : Pattern) : Prop where
  start : ∀ x, r.ends x ≠ [] → ¬(x.before.any u.isWord ∧ x.next.any u.isWord)
  stop : ∀ x, ∀ y ∈ r.ends x, y.before.any u.isWord ∧ ¬y.next.any u.isWord

/-- What stands between words is replaced so that no boundary appears. -/
theorem Apart.blind {r s : Pattern} (h : Apart u r) (hs : Bounded u s) : s.Blind r '[' ']' := by
  have hopening : (some '[').any u.isWord = false :=
    (Plain.classes (u := u) (.inl rfl)).2.2.2.2.2.1
  have hclosing : (some ']').any u.isWord = false :=
    (Plain.classes (u := u) (.inr (.inl rfl))).2.2.2.2.2.1
  refine hs.mono fun holds hholds x before next hsight => ?_
  rcases hholds with rfl | htrue
  · rw [Unicode.boundary, Unicode.boundary, bne_iff_ne, bne_iff_ne]
    rcases hsight.before with rfl | ⟨rfl, y, hy⟩
    · rcases hsight.next with ⟨rfl, -⟩ | ⟨rfl, hne⟩
      · exact id
      · have hstart := h.start x hne
        rw [hopening]
        grind
    · have hstop := h.stop y x hy
      rw [hclosing]
      rcases hsight.next with ⟨rfl, -⟩ | ⟨rfl, -⟩
      · grind
      · rw [hopening]
        exact fun hne => absurd rfl hne
  · exact fun _ => htrue _ _

/-- A pattern that ends behind a character of a word, between boundaries. -/
theorem apart_of_boundary (rs : List Pattern) (r : Pattern)
    (hlast : ∀ x, ∀ y ∈ r.ends x, y.before.any u.isWord) :
    Apart u (.all (.look u.boundary :: (rs ++ [r, .look u.boundary]))) where
  start x hne := by
    obtain ⟨y, hy⟩ := List.exists_mem_of_ne_nil _ hne
    obtain ⟨z, hz, -⟩ := Pattern.mem_ends_cons.mp hy
    obtain ⟨-, hboundary⟩ := Pattern.mem_ends_look.mp hz
    rw [Unicode.boundary, bne_iff_ne] at hboundary
    grind
  stop x y hy := by
    obtain ⟨z, -, hrest⟩ := Pattern.mem_ends_cons.mp hy
    obtain ⟨w, -, hlasts⟩ := Pattern.mem_ends_all hrest
    obtain ⟨v, hv, hlook⟩ := Pattern.mem_ends_cons.mp hlasts
    obtain ⟨y', hy', hnil⟩ := Pattern.mem_ends_cons.mp hlook
    obtain rfl := Pattern.mem_ends_nil.mp hnil
    obtain ⟨rfl, hboundary⟩ := Pattern.mem_ends_look.mp hy'
    have hword := hlast w _ hv
    rw [Unicode.boundary, bne_iff_ne] at hboundary
    grind

/-! ## The patterns -/

theorem email_apart : Apart u u.email := by
  have h := apart_of_boundary (u := u)
    [.plus fun c => isLetterOrDigit c || c ∈ ['.', '_', '%', '+', '-'],
      .one fun c => c = '@', .plus fun c => isLetterOrDigit c || c ∈ ['.', '-'],
      .one fun c => c = '.', .one isLetter]
    (.plus isLetter) fun x y hy => by
      obtain ⟨c, hc, hletter⟩ := Pattern.before_plus hy
      rw [hc]
      exact isWord_of_isLetter hletter
  exact h

/-- An IBAN ends in a letter or a digit. -/
theorem iban_apart : Apart u u.iban := by
  have h := apart_of_boundary (u := u)
    [.one isLetter, .one isLetter, .one u.isDecimal, .one u.isDecimal]
    (.times 11 30 (.seq (.optional (.one fun c => c = ' ')) (.one isLetterOrDigit)))
    fun x y hy => by
      refine Pattern.ends_times (P := fun y => y.before.any u.isWord) (fun x y hy => ?_) hy
        (.inl (by decide))
      obtain ⟨z, -, hy⟩ := List.mem_flatMap.mp hy
      obtain ⟨c, hc, hletter⟩ := Pattern.before_one hy
      rw [hc]
      exact isWord_of_isLetterOrDigit hletter
  exact h

/-- A phone number is behind no word, and ends in a digit. -/
theorem phone_apart : Apart u u.phone where
  start x hne := by
    rw [Unicode.phone, Pattern.ends_led] at hne
    split_ifs at hne with hclear
    · rw [Unicode.clear, Bool.not_eq_true'] at hclear
      simp [hclear]
    · exact absurd rfl hne
  stop x y hy := by
    rw [Unicode.phone, Pattern.ends_led] at hy
    split_ifs at hy
    · obtain ⟨cs, -, hy⟩ := Pattern.ends_headed hy
      obtain ⟨w, -, hlasts⟩ := @Pattern.mem_ends_all [.one u.isDecimal,
        .times 7 18 (.one u.isPhoneChar)] [.one u.isDecimal, .look u.boundary] _ _ hy
      obtain ⟨v, hv, hlook⟩ := Pattern.mem_ends_cons.mp hlasts
      obtain ⟨y', hy', hnil⟩ := Pattern.mem_ends_cons.mp hlook
      obtain rfl := Pattern.mem_ends_nil.mp hnil
      obtain ⟨rfl, hboundary⟩ := Pattern.mem_ends_look.mp hy'
      obtain ⟨c, hc, hdecimal⟩ := Pattern.before_one hv
      have hword := u.isWord_of_isDecimal c hdecimal
      rw [Unicode.boundary, bne_iff_ne, hc] at hboundary
      rw [hc]
      simp only [Option.any_some, hword] at hboundary ⊢
      grind
    · cases hy

theorem email_bounded : Bounded u u.email := by
  simp [Bounded, Unicode.email, Pattern.all, Pattern.plus, Pattern.empty, Pattern.Asserts]

theorem iban_bounded : Bounded u u.iban := by
  simp [Bounded, Unicode.iban, Pattern.all, Pattern.optional, Pattern.empty, Pattern.Asserts]

theorem phoneNumber_bounded : Bounded u (.headed '+' u.phoneNumber) := by
  simp [Bounded, Pattern.headed, Unicode.phoneNumber, Pattern.all, Pattern.empty, Pattern.Asserts]

/-- No token has an `@`. -/
theorem email_foreign : Foreign u.email where
  opening := email_rejects (.inl rfl)
  closing := email_rejects (.inr (.inl rfl))
  needs := by
    refine ⟨fun c => c = '@', ?_, List.all_iff_forall_prop.mp (by decide)⟩
    simp [Unicode.email, Pattern.all, Pattern.Needs]

/-- Nor a digit. -/
theorem iban_foreign : Foreign u.iban where
  opening := iban_rejects (.inl rfl)
  closing := iban_rejects (.inr (.inl rfl))
  needs := by
    refine ⟨u.isDecimal, ?_, fun c hc => ?_⟩
    · simp [Unicode.iban, Pattern.all, Pattern.Needs]
    · have hascii : ∀ c ∈ tokenChars, c.toNat < 128 ∧ c.isDigit = false :=
        List.all_iff_forall_prop.mp (by decide)
      rw [u.isDecimal_ascii c (hascii c hc).1, (hascii c hc).2]

/-- Nor a `+`. -/
theorem phone_foreign : Foreign u.phone where
  opening := phone_rejects (.inl rfl)
  closing := phone_rejects (.inr (.inl rfl))
  needs := by
    refine ⟨fun c => c = '+', ?_, List.all_iff_forall_prop.mp (by decide)⟩
    simp [Unicode.phone, Pattern.led, Pattern.headed, Pattern.Needs]

/-- A pattern of words, spaces between them and boundaries around. -/
inductive Worded (u : Unicode) : Pattern → Prop
  | boundary : Worded u (.look u.boundary)
  | word {s : String} : '[' ∉ s.toList ∧ ']' ∉ s.toList → Worded u (Unicode.word s)
  | spaces : Worded u Unicode.spaces
  | seq {r s : Pattern} : Worded u r → Worded u s → Worded u (.seq r s)
  | alt {r s : Pattern} : Worded u r → Worded u s → Worded u (.alt r s)
  | optional {r : Pattern} : Worded u r → Worded u (.optional r)
  | all {rs : List Pattern} : (∀ r ∈ rs, Worded u r) → Worded u (.all rs)

/-- A word rejects what is no letter of it. -/
theorem word_rejects {s : String} {c : Char} (h : c = '[' ∨ c = ']')
    (hs : '[' ∉ s.toList ∧ ']' ∉ s.toList) : (Unicode.word s).Rejects c := by
  refine Pattern.rejects_all fun r hr => ?_
  obtain ⟨l, hl, rfl⟩ := List.mem_map.mp hr
  rw [Pattern.Rejects]
  rcases h with rfl | rfl
  · have hne : '[' ≠ l := fun h => hs.1 (h ▸ hl)
    simp [caseless, hne]
  · have hne : ']' ≠ l := fun h => hs.2 (h ▸ hl)
    simp [caseless, hne]

/-- So does a pattern of words. -/
theorem Worded.rejects {r : Pattern} (h : Worded u r) {c : Char} (hc : c = '[' ∨ c = ']') :
    r.Rejects c := by
  induction h with
  | boundary => trivial
  | word hs => exact word_rejects hc hs
  | spaces =>
    have hspace : isPythonSpace c = false := by
      rcases hc with rfl | rfl <;> decide
    exact ⟨hspace, hspace⟩
  | seq _ _ ihr ihs | alt _ _ ihr ihs => exact ⟨ihr, ihs⟩
  | optional _ ih => exact ih
  | all _ ih => exact Pattern.rejects_all ih

/-- It asserts boundaries alone. -/
theorem Worded.bounded {r : Pattern} (h : Worded u r) : Bounded u r := by
  induction h with
  | boundary => exact .inl rfl
  | word =>
    refine Pattern.asserts_all (.inr fun _ _ => rfl) fun r hr => ?_
    obtain ⟨l, -, rfl⟩ := List.mem_map.mp hr
    trivial
  | spaces => exact ⟨trivial, trivial⟩
  | seq _ _ ihr ihs | alt _ _ ihr ihs => exact ⟨ihr, ihs⟩
  | optional _ ih => exact ih
  | all _ ih => exact Pattern.asserts_all (.inr fun _ _ => rfl) ih

/-- The injection patterns are such. -/
theorem injection_worded {r : Pattern} (h : r ∈ u.injectionPatterns) : Worded u r := by
  have hwords (s : String) (hs : '[' ∉ s.toList ∧ ']' ∉ s.toList) : Worded u (Unicode.word s) :=
    .word hs
  simp only [Unicode.injectionPatterns, List.mem_cons, List.not_mem_nil, or_false] at h
  rcases h with rfl | rfl
  · refine .all fun r hr => ?_
    simp only [List.mem_cons, List.not_mem_nil, or_false] at hr
    rcases hr with rfl | rfl | rfl | rfl | rfl | rfl | rfl | rfl
    · exact .boundary
    · exact hwords _ (by decide)
    · exact .spaces
    · exact .optional (.seq (hwords _ (by decide)) .spaces)
    · exact .alt (hwords _ (by decide)) (.alt (hwords _ (by decide)) (hwords _ (by decide)))
    · exact .spaces
    · exact hwords _ (by decide)
    · exact .boundary
  · refine .all fun r hr => ?_
    simp only [List.mem_cons, List.not_mem_nil, or_false] at hr
    rcases hr with rfl | rfl | rfl | rfl | rfl | rfl | rfl | rfl
    · exact .boundary
    · exact .alt (hwords _ (by decide)) (.alt (hwords _ (by decide)) (hwords _ (by decide)))
    · exact .spaces
    · exact .optional (.seq (hwords _ (by decide)) .spaces)
    · exact hwords _ (by decide)
    · exact .spaces
    · exact hwords _ (by decide)
    · exact .boundary

/-- They need a space. -/
theorem injection_foreign {r : Pattern} (h : r ∈ u.injectionPatterns) : Foreign r where
  opening := (injection_worded h).rejects (.inl rfl)
  closing := (injection_worded h).rejects (.inr rfl)
  needs := by
    refine ⟨isPythonSpace, ?_, List.all_iff_forall_prop.mp (by decide)⟩
    have hneeds : Unicode.spaces.Needs isPythonSpace := .inl fun _ hc => hc
    simp only [Unicode.injectionPatterns, List.mem_cons, List.not_mem_nil, or_false] at h
    rcases h with rfl | rfl
    · exact Pattern.needs_all (r := Unicode.spaces) (by simp) hneeds
    · exact Pattern.needs_all (r := Unicode.spaces) (by simp) hneeds

/-! ## Redaction -/

/-- Redaction is three substitutions. -/
theorem redact_piiPatterns (text : List Char) : redact u.piiPatterns text =
    u.phone.sub ('[' :: ("REDACTED:PHONE".toList ++ [']']))
      (redact (u.piiPatterns.take 2) text) := by
  have htoken : ("[REDACTED:" ++ "PHONE" ++ "]").toList =
      '[' :: ("REDACTED:PHONE".toList ++ [']']) := by decide
  rw [← htoken]
  rfl

/-- The first two of them. -/
theorem redact_take (text : List Char) : redact (u.piiPatterns.take 2) text =
    u.iban.sub ('[' :: ("REDACTED:IBAN".toList ++ [']']))
      (u.email.sub ('[' :: ("REDACTED:EMAIL".toList ++ [']'])) text) := by
  have hiban : ("[REDACTED:" ++ "IBAN" ++ "]").toList =
      '[' :: ("REDACTED:IBAN".toList ++ [']']) := by decide
  have hemail : ("[REDACTED:" ++ "EMAIL" ++ "]").toList =
      '[' :: ("REDACTED:EMAIL".toList ++ [']']) := by decide
  rw [← hiban, ← hemail]
  rfl

/-- What is not found is not found after a substitution, nor what was replaced. -/
theorem search_sub_token {r s : Pattern} (hr : Foreign r) (hapart : Apart u r) (hs : Foreign s)
    (hbounded : Bounded u s) {inner text : List Char} (hinner : ∀ c ∈ inner, c ∈ tokenChars)
    (hfree : s = r ∨ s.search none text = false) :
    s.search none (r.sub ('[' :: (inner ++ [']'])) text) = false := by
  obtain ⟨p, hneeds, -⟩ := hr.needs
  exact Pattern.search_sub hneeds (hs.outside hinner) (hapart.blind hbounded) hfree

/-- What is not found is not found in the redacted text. -/
theorem search_redact {s : Pattern} (hs : Foreign s) (hbounded : Bounded u s) {text : List Char}
    (hfree : s.search none text = false) : s.search none (redact u.piiPatterns text) = false := by
  rw [redact_piiPatterns, redact_take]
  exact search_sub_token phone_foreign phone_apart hs hbounded phoneToken_chars (.inr
    (search_sub_token iban_foreign iban_apart hs hbounded ibanToken_chars (.inr
      (search_sub_token email_foreign email_apart hs hbounded emailToken_chars (.inr hfree)))))

/-- No e-mail address is left. -/
theorem search_email_redact (text : List Char) :
    u.email.search none (redact u.piiPatterns text) = false := by
  rw [redact_piiPatterns, redact_take]
  exact search_sub_token phone_foreign phone_apart email_foreign email_bounded phoneToken_chars
    (.inr (search_sub_token iban_foreign iban_apart email_foreign email_bounded ibanToken_chars
      (.inr (search_sub_token email_foreign email_apart email_foreign email_bounded
        emailToken_chars (.inl rfl)))))

/-- Nor an IBAN. -/
theorem search_iban_redact (text : List Char) :
    u.iban.search none (redact u.piiPatterns text) = false := by
  rw [redact_piiPatterns, redact_take]
  exact search_sub_token phone_foreign phone_apart iban_foreign iban_bounded phoneToken_chars
    (.inr (search_sub_token iban_foreign iban_apart iban_foreign iban_bounded ibanToken_chars
      (.inl rfl)))

/-- A phone number is left just where two touched. -/
theorem search_phone_redact (text : String) :
    u.phone.search none (redact u.piiPatterns text.toList) = u.phonesTouch text := by
  obtain ⟨p, hneeds, -⟩ := phone_foreign (u := u).needs
  have hplus : u.isWord '+' = false ∧ u.isWord '[' = false ∧ u.isWord ']' = false := by
    rw [u.isWord_ascii '+' (by decide), u.isWord_ascii '[' (by decide),
      u.isWord_ascii ']' (by decide)]
    decide
  rw [redact_piiPatterns]
  refine Pattern.search_led_sub hneeds (phoneNumber_rejects (.inr rfl))
    (phone_foreign.outside phoneToken_chars) (phone_apart.blind phoneNumber_bounded) ?_ ?_ ?_ _
  · have hbounded := (phoneNumber_bounded (u := u)).2
    refine hbounded.mono fun holds hholds before => ?_
    rcases hholds with rfl | htrue
    · simp [Unicode.boundary, hplus]
    · exact fun _ => htrue _ _
  · simp [Unicode.clear, hplus]
  · intro x y hy
    simp [Unicode.clear, (phone_apart.stop x y hy).1]

/-- The guards redact by the patterns of the settings. -/
theorem redacted_guards (maxBinaryBytes maxBinaryParts : ℕ) (text : String) :
    (u.guards maxBinaryBytes maxBinaryParts).redacted text =
      String.ofList (redact u.piiPatterns text.toList) :=
  rfl

/-- So a phone number is all that is left. -/
theorem containsPii_redact (maxBinaryBytes maxBinaryParts : ℕ) (text : String) :
    (u.guards maxBinaryBytes maxBinaryParts).containsPii
      ((u.guards maxBinaryBytes maxBinaryParts).redacted text) = u.phonesTouch text := by
  rw [RequestGuards.containsPii, redacted_guards, String.toList_ofList]
  simp only [Unicode.guards, Unicode.piiPatterns, List.any_cons, List.any_nil, Bool.or_false]
  rw [← Unicode.piiPatterns, search_email_redact, search_iban_redact, search_phone_redact,
    Bool.false_or, Bool.false_or]

/-- Redaction makes no text an injection. -/
theorem injected_redact (maxBinaryBytes maxBinaryParts : ℕ) {text : String}
    (h : (u.guards maxBinaryBytes maxBinaryParts).injected text = false) :
    (u.guards maxBinaryBytes maxBinaryParts).injected
      ((u.guards maxBinaryBytes maxBinaryParts).redacted text) = false := by
  rw [RequestGuards.injected, List.any_eq_false] at h ⊢
  intro pattern hpattern
  rw [redacted_guards, String.toList_ofList,
    search_redact (injection_foreign hpattern) (injection_worded hpattern).bounded
      (by simpa using h pattern hpattern)]
  decide

/-- Nor is a text changed that no pattern is found in. -/
theorem redact_eq_self (maxBinaryBytes maxBinaryParts : ℕ) {text : String}
    (h : (u.guards maxBinaryBytes maxBinaryParts).containsPii text = false) :
    (u.guards maxBinaryBytes maxBinaryParts).redacted text = text := by
  rw [RequestGuards.containsPii, List.any_eq_false] at h
  have hfree {name : String} {r : Pattern} (hr : (name, r) ∈ u.piiPatterns) :
      r.search none text.toList = false := by
    simpa using h _ hr
  rw [redacted_guards, redact_piiPatterns, redact_take,
    Pattern.sub_eq_self _ (@hfree "EMAIL" u.email (by simp [Unicode.piiPatterns])),
    Pattern.sub_eq_self _ (@hfree "IBAN" u.iban (by simp [Unicode.piiPatterns])),
    Pattern.sub_eq_self _ (@hfree "PHONE" u.phone (by simp [Unicode.piiPatterns])),
    String.ofList_toList]

/-! ## What is sent -/

/-- The end of a line parts texts. -/
theorem Bounded.parts {r : Pattern} (h : Bounded u r) : r.Parts '\n' := by
  have hline : u.isWord '\n' = false := (Plain.classes (u := u) (.inr (.inr rfl))).2.2.2.2.2.1
  refine h.mono fun holds hholds c => ?_
  rcases hholds with rfl | htrue
  · simp [Unicode.boundary, hline]
  · simp [htrue]

/-- So do phone numbers, which are not looked for behind a line. -/
theorem phone_parts : u.phone.Parts '\n' := by
  have hline : u.isWord '\n' = false := (Plain.classes (u := u) (.inr (.inr rfl))).2.2.2.2.2.1
  exact ⟨fun c => by simp [Unicode.clear, hline], phoneNumber_bounded.parts⟩

/-- Lines have what one of them has. -/
theorem containsPii_lines (maxBinaryBytes maxBinaryParts : ℕ) (texts : List String) :
    (u.guards maxBinaryBytes maxBinaryParts).containsPii ("\n".intercalate texts) =
      texts.any (u.guards maxBinaryBytes maxBinaryParts).containsPii := by
  have hsearch {r : Pattern} (hr : Foreign r) (hrejects : r.Rejects '\n') (hparts : r.Parts '\n') :
      r.search none ("\n".intercalate texts).toList =
        texts.any fun text => r.search none text.toList := by
    obtain ⟨p, hneeds, -⟩ := hr.needs
    rw [String.toList_intercalate]
    refine (Pattern.search_intercalate hneeds hrejects hparts _).trans ?_
    rw [List.any_map]
    rfl
  have hline : Plain '\n' := .inr (.inr rfl)
  have hemail := hsearch email_foreign (email_rejects (u := u) hline) email_bounded.parts
  have hiban := hsearch iban_foreign (iban_rejects (u := u) hline) iban_bounded.parts
  have hphone := hsearch phone_foreign (phone_rejects (u := u) hline) phone_parts
  rw [Bool.eq_iff_iff, List.any_eq_true]
  simp only [RequestGuards.containsPii, Unicode.guards, Unicode.piiPatterns, List.any_cons,
    List.any_nil, Bool.or_false, hemail, hiban, hphone, Bool.or_eq_true, List.any_eq_true]
  constructor
  · rintro (⟨t, ht, h⟩ | ⟨t, ht, h⟩ | ⟨t, ht, h⟩)
    · exact ⟨t, ht, .inl h⟩
    · exact ⟨t, ht, .inr (.inl h)⟩
    · exact ⟨t, ht, .inr (.inr h)⟩
  · rintro ⟨t, ht, h | h | h⟩
    · exact .inl ⟨t, ht, h⟩
    · exact .inr (.inl ⟨t, ht, h⟩)
    · exact .inr (.inr ⟨t, ht, h⟩)

section

variable {guards : RequestGuards}

/-- A text that passes is sent redacted. -/
theorem text_eq_ok {text sent : String} {inspect : Bool} (h : guards.text text inspect = .ok sent) :
    sent = guards.redacted text := by
  rw [RequestGuards.text] at h
  split_ifs at h
  exact (Except.ok.inj h).symm

/-- A document that passes is sent as it is. -/
theorem document_eq_ok {policy : ChatPolicy} {allowed : Bool} {url : String} {sent sent' : SentPart}
    {charged charged' : Charged}
    (h : guards.document policy allowed url sent charged = .ok (sent', charged')) :
    sent' = sent := by
  rw [RequestGuards.document] at h
  split_ifs at h
  obtain ⟨_, -, h⟩ := bind_eq_ok.mp h
  cases h
  rfl

/-- The texts that are sent are those of the parts, redacted. -/
theorem texts_parts {policy : ChatPolicy} {inspect : Bool} {parts : List ContentPart}
    {charged charged' : Charged} {sent : List SentPart}
    (h : guards.parts policy inspect charged parts = .ok (sent, charged')) :
    SentPart.texts sent = (ContentPart.texts parts).map guards.redacted := by
  induction parts generalizing charged sent with
  | nil =>
    cases h
    rfl
  | cons p ps ih =>
    rw [RequestGuards.parts] at h
    obtain ⟨⟨sent₁, charged₁⟩, hp, h⟩ := bind_eq_ok.mp h
    obtain ⟨⟨rest, charged₂⟩, hps, h⟩ := bind_eq_ok.mp h
    cases h
    have hrest := ih hps
    cases p with
    | text t =>
      obtain ⟨t', ht, hp⟩ := bind_eq_ok.mp hp
      cases hp
      rw [text_eq_ok ht]
      exact congrArg (guards.redacted t :: ·) hrest
    | image url detail =>
      rw [document_eq_ok hp]
      exact hrest
    | file url =>
      rw [document_eq_ok hp]
      exact hrest

/-- A message that is sent has what one of its texts has. -/
theorem containsPii_sent (maxBinaryBytes maxBinaryParts : ℕ) (role : MessageRole)
    (sent : List SentPart) :
    (role.sent sent).texts.any (u.guards maxBinaryBytes maxBinaryParts).containsPii =
      (SentPart.texts sent).any (u.guards maxBinaryBytes maxBinaryParts).containsPii := by
  cases role with
  | user => rfl
  | system | assistant =>
    simp [MessageRole.sent, SentMessage.texts, containsPii_lines]

/-- So have the messages of a request. -/
theorem containsPii_messages {maxBinaryBytes maxBinaryParts : ℕ} {policy : ChatPolicy}
    {messages : List GatewayMessage} {charged charged' : Charged} {sent : List SentMessage}
    (h : (u.guards maxBinaryBytes maxBinaryParts).messages policy charged messages =
      .ok (sent, charged')) :
    (sent.flatMap SentMessage.texts).any (u.guards maxBinaryBytes maxBinaryParts).containsPii =
      (messages.flatMap fun m => ContentPart.texts m.content).any u.phonesTouch := by
  induction messages generalizing charged sent with
  | nil =>
    cases h
    rfl
  | cons m ms ih =>
    rw [RequestGuards.messages] at h
    obtain ⟨⟨sent₁, charged₁⟩, hm, h⟩ := bind_eq_ok.mp h
    obtain ⟨⟨rest, charged₂⟩, hms, h⟩ := bind_eq_ok.mp h
    cases h
    have hpii : (u.guards maxBinaryBytes maxBinaryParts).containsPii ∘
        (u.guards maxBinaryBytes maxBinaryParts).redacted = u.phonesTouch := by
      funext text
      rw [Function.comp_apply, containsPii_redact]
    rw [List.flatMap_cons, List.flatMap_cons, List.any_append, List.any_append, ih hms,
      containsPii_sent, texts_parts hm, List.any_map, hpii]

/-- And the inputs of an embedding. -/
theorem inputs_redacted {inputs sent : List String}
    (h : (inputs.mapM fun input => guards.text input true) = .ok sent) :
    sent = inputs.map guards.redacted := by
  induction inputs generalizing sent with
  | nil =>
    cases h
    rfl
  | cons input inputs ih =>
    rw [List.mapM_cons] at h
    obtain ⟨sent₁, hinput, h⟩ := bind_eq_ok.mp h
    obtain ⟨rest, hrest, h⟩ := bind_eq_ok.mp h
    cases h
    rw [text_eq_ok hinput, ih hrest, List.map_cons]

end

end

end RequestGuards

/-- Redaction is complete, and idempotent, just where no phone number is left by e-mail addresses
and IBANs that ends where another begins : for a text, and for what is sent in a chat or
embedded. -/
theorem redaction_complete_iff (u : Unicode) (maxBinaryBytes maxBinaryParts : ℕ) :
    (∀ text, (u.guards maxBinaryBytes maxBinaryParts).injected text = false →
      ((∃ sent, (u.guards maxBinaryBytes maxBinaryParts).text text true = .ok sent ∧
        (u.guards maxBinaryBytes maxBinaryParts).containsPii sent = false ∧
        (u.guards maxBinaryBytes maxBinaryParts).text sent true = .ok sent) ↔
          u.phonesTouch text = false)) ∧
    (∀ request policy schemaBytes chat,
      (u.guards maxBinaryBytes maxBinaryParts).chat request policy schemaBytes = .ok chat →
      ((∀ text ∈ chat.messages.flatMap SentMessage.texts,
        (u.guards maxBinaryBytes maxBinaryParts).containsPii text = false) ↔
          ∀ m ∈ request.messages, ∀ text ∈ ContentPart.texts m.content,
            u.phonesTouch text = false)) ∧
    ∀ request policy inputs,
      (u.guards maxBinaryBytes maxBinaryParts).embeddings request policy = .ok inputs →
      ((∀ text ∈ inputs, (u.guards maxBinaryBytes maxBinaryParts).containsPii text = false) ↔
        ∀ text ∈ request.inputs, u.phonesTouch text = false) := by
  refine ⟨fun text hinjected => ?_, fun request policy schemaBytes chat hchat => ?_,
    fun request policy inputs hinputs => ?_⟩
  · have hsent : (u.guards maxBinaryBytes maxBinaryParts).text text true =
        .ok ((u.guards maxBinaryBytes maxBinaryParts).redacted text) := by
      rw [RequestGuards.text, hinjected]
      rfl
    have hpii := RequestGuards.containsPii_redact maxBinaryBytes maxBinaryParts (u := u) text
    constructor
    · rintro ⟨sent, hok, hclear, -⟩
      rw [hsent] at hok
      rwa [← Except.ok.inj hok, hpii] at hclear
    · intro htouch
      rw [htouch] at hpii
      refine ⟨_, hsent, hpii, ?_⟩
      have hself := RequestGuards.redact_eq_self maxBinaryBytes maxBinaryParts hpii
      rw [RequestGuards.text, RequestGuards.injected_redact maxBinaryBytes maxBinaryParts hinjected]
      exact congrArg Except.ok hself
  · rw [RequestGuards.chat] at hchat
    obtain ⟨⟨sent, charged⟩, hmessages, h⟩ := bind_eq_ok.mp hchat
    have hpii := RequestGuards.containsPii_messages hmessages
    have hchat : chat.messages = sent := by
      dsimp only at h
      split_ifs at h
      · cases h
      · obtain ⟨_, -, h⟩ := bind_eq_ok.mp h
        cases h
        rfl
    rw [hchat]
    have hfalse := congrArg (· = false) hpii
    simp only [List.any_eq_false, List.mem_flatMap, eq_iff_iff] at hfalse
    constructor
    · intro hclear m hm text htext
      have := hfalse.mp (fun text htext => by simpa using hclear text (List.mem_flatMap.mpr htext))
        text ⟨m, hm, htext⟩
      simpa using this
    · intro hclear text htext
      have := hfalse.mpr (fun text ⟨m, hm, htext⟩ => by simpa using hclear m hm text htext) text
        (List.mem_flatMap.mp htext)
      simpa using this
  · rw [RequestGuards.embeddings] at hinputs
    obtain ⟨sent, hsent, h⟩ := bind_eq_ok.mp hinputs
    obtain ⟨_, -, h⟩ := bind_eq_ok.mp h
    cases h
    rw [RequestGuards.inputs_redacted hsent]
    simp only [List.mem_map, forall_exists_index, and_imp, forall_apply_eq_imp_iff₂]
    refine forall₂_congr fun text _ => ?_
    rw [← RequestGuards.containsPii_redact maxBinaryBytes maxBinaryParts text]

/-! ### Two numbers that touch -/

/-- The characters of ASCII, and the letters that fold to some of them. -/
def ascii : Unicode where
  isWord c := c.isAlphanum || c = '_' || c ∈ ['\u0130', '\u0131', '\u017f', '\u212a']
  isDecimal c := c.isDigit
  isWord_ascii c hc := by
    have hne : c ∉ ['\u0130', '\u0131', '\u017f', '\u212a'] := by
      intro hmem
      simp only [List.mem_cons, List.not_mem_nil, or_false] at hmem
      rcases hmem with rfl | rfl | rfl | rfl <;> exact absurd hc (by decide)
    simp [hne]
  isDecimal_ascii _ _ := rfl
  isWord_of_isDecimal c hc := by
    simp [Char.isAlphanum, hc]
  isWord_folded c hc := by
    simp [hc]

/-- The guards under the default limits. -/
def asciiGuards : RequestGuards :=
  ascii.guards 5000000 4

/-- Of two numbers that touch, the second is sent, and is redacted in what was sent. -/
theorem second_phone_sent :
    asciiGuards.injected "+12345678901+12345678901" = false ∧
      asciiGuards.redacted "+12345678901+12345678901" = "[REDACTED:PHONE]+12345678901" ∧
      asciiGuards.containsPii "[REDACTED:PHONE]+12345678901" = true ∧
      asciiGuards.redacted "[REDACTED:PHONE]+12345678901" =
        "[REDACTED:PHONE][REDACTED:PHONE]" := by
  decide +kernel

/-- What a sample chat is for. -/
def sampleContext : RequestContext where
  runId := 1
  traceId := "0123456789abcdef0123456789abcdef"
  promptVersion := ⟨"faq@v1", by decide⟩
  scenario := "public_faq"
  sensitivity := .public

/-- A chat of two lines of instructions and a question. -/
def sampleChatRequest : GatewayRequest where
  toRequestContext := sampleContext
  «alias» := .triageReasoner
  messages := [
    ⟨.system, [.text "Mail a@b.co", .text "or call"], by decide, by decide, by simp⟩,
    ⟨.user, [.text "+12345678901?"], by decide, by decide, by simp⟩]
  messages_pos := by simp
  messages_le := by simp
  maxOutputTokens_pos := by simp
  public_cache_only := by simp

/-- A text to embed. -/
def sampleEmbeddingRequest : EmbeddingRequest where
  toRequestContext := sampleContext
  inputs := ["Call +12345678901"]
  inputs_pos := by simp
  inputs_le := by simp
  validate_inputs := by decide +kernel

/-- A policy of half the default limits. -/
def samplePolicy : ChatPolicy where
  modelVersion := ⟨"m@1", by decide⟩
  inputTokenLimit := 16384
  outputTokenLimit := 2048
  totalTokenLimit := 18432
  input_pos := by decide
  output_pos := by decide
  validate_limits := by decide

/-- The chat as it is sent. -/
def sampleChat : GuardedChat where
  messages := [.system "Mail [REDACTED:EMAIL]\nor call", .user [.text "[REDACTED:PHONE]?"]]
  outputTokens := 2048

/-- The theorem applies to a text, a chat and an embedding without such numbers. -/
theorem redaction_complete_iff_sample :
    (∃ sent, asciiGuards.text "Mail a@b.co" true = .ok sent ∧
      asciiGuards.containsPii sent = false ∧ asciiGuards.text sent true = .ok sent) ∧
    (∀ text ∈ sampleChat.messages.flatMap SentMessage.texts,
      asciiGuards.containsPii text = false) ∧
    ∀ text ∈ ["Call [REDACTED:PHONE]"], asciiGuards.containsPii text = false := by
  obtain ⟨htext, hchat, hembed⟩ := redaction_complete_iff ascii 5000000 4
  refine ⟨(htext _ (by decide +kernel)).mpr (by decide +kernel),
    (hchat sampleChatRequest samplePolicy 100 sampleChat (by decide +kernel)).mpr
      (by decide +kernel),
    (hembed sampleEmbeddingRequest samplePolicy _ (by decide +kernel)).mpr (by decide +kernel)⟩

end InvoiceOps
