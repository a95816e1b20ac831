import Mathlib.Data.Int.Notation
import Mathlib.Tactic.Common

/-!
# Values and exceptions

The scalar types of the program, the JSON its evidence is kept in, and its exceptions : a
class, a detail and the exception it was raised from. `raise X from error` keeps `error`
as the cause, `raise X from None` drops it.
-/

namespace InvoiceOps

/-- A `uuid4` identifier, as the number it encodes. -/
abbrev Uuid := ℕ

/-- A UTC timestamp, in microseconds. -/
abbrev Instant := ℤ

/-- A text that Postgres does not take. -/
def hasNul (text : String) : Bool :=
  text.toList.contains '\x00'

/-! ## JSON -/

/-- A `JsonValue`. The numbers the modelled payloads hold are integers. -/
inductive Json where
  | null
  | bool (b : Bool)
  | num (n : ℤ)
  | str (s : String)
  | arr (items : List Json)
  | obj (fields : List (String × Json))
  deriving Repr

namespace Json

mutual

/-- Equality of JSON values is decided by structure. -/
def decEq : (a b : Json) → Decidable (a = b)
  | null, null => isTrue rfl
  | bool a, bool b => decidable_of_iff (a = b) (by simp)
  | num a, num b => decidable_of_iff (a = b) (by simp)
  | str a, str b => decidable_of_iff (a = b) (by simp)
  | arr a, arr b =>
    have := decEqItems a b
    decidable_of_iff (a = b) (by simp)
  | obj a, obj b =>
    have := decEqFields a b
    decidable_of_iff (a = b) (by simp)
  | null, bool _ | null, num _ | null, str _ | null, arr _ | null, obj _
  | bool _, null | bool _, num _ | bool _, str _ | bool _, arr _ | bool _, obj _
  | num _, null | num _, bool _ | num _, str _ | num _, arr _ | num _, obj _
  | str _, null | str _, bool _ | str _, num _ | str _, arr _ | str _, obj _
  | arr _, null | arr _, bool _ | arr _, num _ | arr _, str _ | arr _, obj _
  | obj _, null | obj _, bool _ | obj _, num _ | obj _, str _ | obj _, arr _ =>
    isFalse (by simp)

/-- Two lists are equal item by item. -/
def decEqItems : (a b : List Json) → Decidable (a = b)
  | [], [] => isTrue rfl
  | a :: as, b :: bs =>
    have := decEq a b
    have := decEqItems as bs
    decidable_of_iff (a = b ∧ as = bs) (by simp)
  | [], _ :: _ | _ :: _, [] => isFalse (by simp)

/-- Two lists of fields are equal field by field. -/
def decEqFields : (a b : List (String × Json)) → Decidable (a = b)
  | [], [] => isTrue rfl
  | (k, a) :: as, (l, b) :: bs =>
    have := decEq a b
    have := decEqFields as bs
    decidable_of_iff (k = l ∧ a = b ∧ as = bs) (by simp [and_assoc])
  | [], _ :: _ | _ :: _, [] => isFalse (by simp)

end

instance : DecidableEq Json := decEq

/-- `dict.get`. -/
def get? : Json → String → Option Json
  | obj fields, key => (fields.find? fun f => f.1 = key).map Prod.snd
  | _, _ => none

/-- `isinstance(value, dict)`. -/
def isObject : Json → Bool
  | obj _ => true
  | _ => false

/-- The text of an optional string field. -/
def ofOption : Option String → Json
  | none => null
  | some s => str s

end Json

/-! ## Text -/

/-- The whitespace of a `\s` in a schema's pattern. -/
def isPatternSpace (c : Char) : Bool :=
  c ∈ ['\t', '\n', '\x0b', '\x0c', '\r', ' ', '\u0085', '\u00a0', '\u1680', '\u2028', '\u2029',
    '\u202f', '\u205f', '\u3000'] || ('\u2000' ≤ c && c ≤ '\u200a')

/-- The whitespace of `str.strip`, `str.split` and `str.isspace`. -/
def isPythonSpace (c : Char) : Bool :=
  isPatternSpace c || ('\x1c' ≤ c && c ≤ '\x1f')

/-- `value.strip()`. -/
def pythonStrip (s : String) : String :=
  let left := s.toList.dropWhile isPythonSpace
  String.ofList (left.reverse.dropWhile isPythonSpace).reverse

/-- `not value.strip()`. -/
def isBlank (s : String) : Bool :=
  s.toList.all isPythonSpace

/-- `Version` : 1 to 128 characters, not all blank. -/
def isVersion (s : String) : Bool :=
  1 ≤ s.length && s.length ≤ 128 && s.toList.any fun c => !isPatternSpace c

/-- `^[0-9a-f]{32}$`. -/
def isTraceId (s : String) : Bool :=
  s.length = 32 && s.toList.all fun c => ('0' ≤ c && c ≤ '9') || ('a' ≤ c && c ≤ 'f')

/-- `[A-Z]{3}`. -/
def isCurrency (s : String) : Bool :=
  s.length = 3 && s.toList.all fun c => 'A' ≤ c && c ≤ 'Z'

/-! ### Hexadecimal digits -/

/-- The digit of a number below sixteen. -/
def hexDigit (n : ℕ) : Char :=
  if n < 10 then Char.ofNat (48 + n) else Char.ofNat (87 + n)

/-- The last `n` hexadecimal digits. -/
def hexDigits : ℕ → ℕ → List Char
  | _, 0 => []
  | c, n + 1 => hexDigits (c / 16) n ++ [hexDigit (c % 16)]

theorem length_hexDigits : ∀ n c : ℕ, (hexDigits c n).length = n
  | 0, _ => rfl
  | n + 1, c => by rw [hexDigits, List.length_append, length_hexDigits n, List.length_singleton]

theorem mem_hexDigits : ∀ {n c : ℕ} {x : Char}, x ∈ hexDigits c n → ∃ k < 16, x = hexDigit k
  | 0, _, _, h => absurd h List.not_mem_nil
  | n + 1, c, x, h => by
    rcases List.mem_append.mp h with h | h
    · exact mem_hexDigits h
    · exact ⟨c % 16, Nat.mod_lt c (by decide), List.mem_singleton.mp h⟩

/-! ## Documents -/

/-- The types of documents that are taken. -/
inductive DocumentType where
  | pdf | png | jpeg
  deriving DecidableEq, Repr

/-- The media type of a document. -/
def DocumentType.text : DocumentType → String
  | pdf => "application/pdf"
  | png => "image/png"
  | jpeg => "image/jpeg"

/-- How a document came. -/
inductive IngestionSource where
  | upload | email
  deriving DecidableEq, Repr

/-! ## Exceptions -/

theorem bind_eq_ok {ε α β : Type} {x : Except ε α} {f : α → Except ε β} {b : β} :
    x >>= f = .ok b ↔ ∃ a, x = .ok a ∧ f a = .ok b := by
  cases x <;> simp [bind, Except.bind]

/-- The exception classes the modelled code raises or looks for. -/
inductive ExnClass where
  | baseException
  | cancelledError
  | exception
  | valueError
  | validationError
  | osError
  | timeoutError
  | connectionError
  -- psycopg
  | psycopgError
  | interfaceError
  | databaseError
  | operationalError
  | deadlockDetected
  | serializationFailure
  | integrityError
  | internalError
  -- ledger
  | ledgerError
  | ledgerTransactionRequired
  | ledgerIdentityMismatch
  | ledgerRunNotFound
  | ledgerConflict
  | ledgerStorageError
  | ledgerCursorMismatch
  -- graph
  | graphError
  | runConflict
  | runNotFound
  | runInProgress
  | graphExecutionError
  | graphTimeout
  | checkpointUnavailable
  | invalidCheckpoint
  | replayEvidenceError
  -- workers
  | workerError
  | runInDeadLetter
  | invalidRedrive
  | reviewWorkerError
  -- gateway and documents
  | gatewayError
  | gatewayUnavailable
  | gatewayDeadlineExceeded
  | gatewayRequestRejected
  | gatewayConfigurationError
  | documentError
  | documentUnavailable
  -- agents and tools
  | extractionError
  | extractionConfigurationError
  | extractionAuditFailed
  | similarityRepositoryError
  | invoiceNotFound
  | embeddingContractError
  | erpDataIntegrityError
  -- ingestion and decisions
  | ingestionError
  | idempotencyConflict
  | webhookNonceReuse
  | ingestionUnavailable
  | decisionError
  | decisionNotFound
  | decisionConflict
  | decisionUnavailable
  -- any other class that derives from `Exception` alone
  | other (name : String)
  deriving DecidableEq, Repr

namespace ExnClass

/-- The class a class derives from. -/
def base : ExnClass → Option ExnClass
  | baseException => none
  | cancelledError | exception => some baseException
  | valueError | osError | psycopgError | ledgerError | graphError | replayEvidenceError
  | workerError | reviewWorkerError | gatewayError | documentError | extractionError
  | similarityRepositoryError | embeddingContractError | erpDataIntegrityError
  | ingestionError | decisionError | other _ => some exception
  | validationError => some valueError
  | timeoutError | connectionError => some osError
  | interfaceError | databaseError => some psycopgError
  | operationalError | integrityError | internalError => some databaseError
  | deadlockDetected | serializationFailure => some operationalError
  | ledgerTransactionRequired | ledgerIdentityMismatch | ledgerRunNotFound | ledgerConflict
  | ledgerStorageError | ledgerCursorMismatch => some ledgerError
  | runConflict | runNotFound | runInProgress | graphExecutionError | graphTimeout
  | checkpointUnavailable | invalidCheckpoint => some graphError
  | runInDeadLetter | invalidRedrive => some workerError
  | gatewayUnavailable | gatewayRequestRejected | gatewayConfigurationError => some gatewayError
  | gatewayDeadlineExceeded => some gatewayUnavailable
  | documentUnavailable => some documentError
  | extractionConfigurationError | extractionAuditFailed => some extractionError
  | invoiceNotFound => some similarityRepositoryError
  | idempotencyConflict | webhookNonceReuse | ingestionUnavailable => some ingestionError
  | decisionNotFound | decisionConflict | decisionUnavailable => some decisionError

/-- `__name__`. -/
def name : ExnClass → String
  | baseException => "BaseException"
  | cancelledError => "CancelledError"
  | exception => "Exception"
  | valueError => "ValueError"
  | validationError => "ValidationError"
  | osError => "OSError"
  | timeoutError => "TimeoutError"
  | connectionError => "ConnectionError"
  | psycopgError => "Error"
  | interfaceError => "InterfaceError"
  | databaseError => "DatabaseError"
  | operationalError => "OperationalError"
  | deadlockDetected => "DeadlockDetected"
  | serializationFailure => "SerializationFailure"
  | integrityError => "IntegrityError"
  | internalError => "InternalError"
  | ledgerError => "LedgerError"
  | ledgerTransactionRequired => "LedgerTransactionRequired"
  | ledgerIdentityMismatch => "LedgerIdentityMismatch"
  | ledgerRunNotFound => "LedgerRunNotFound"
  | ledgerConflict => "LedgerConflict"
  | ledgerStorageError => "LedgerStorageError"
  | ledgerCursorMismatch => "LedgerCursorMismatch"
  | graphError => "GraphError"
  | runConflict => "RunConflict"
  | runNotFound => "RunNotFound"
  | runInProgress => "RunInProgress"
  | graphExecutionError => "GraphExecutionError"
  | graphTimeout => "GraphTimeout"
  | checkpointUnavailable => "CheckpointUnavailable"
  | invalidCheckpoint => "InvalidCheckpoint"
  | replayEvidenceError => "ReplayEvidenceError"
  | workerError => "WorkerError"
  | runInDeadLetter => "RunInDeadLetter"
  | invalidRedrive => "InvalidRedrive"
  | reviewWorkerError => "ReviewWorkerError"
  | gatewayError => "GatewayError"
  | gatewayUnavailable => "GatewayUnavailable"
  | gatewayDeadlineExceeded => "GatewayDeadlineExceeded"
  | gatewayRequestRejected => "GatewayRequestRejected"
  | gatewayConfigurationError => "GatewayConfigurationError"
  | documentError => "DocumentError"
  | documentUnavailable => "DocumentUnavailable"
  | extractionError => "ExtractionError"
  | extractionConfigurationError => "ExtractionConfigurationError"
  | extractionAuditFailed => "ExtractionAuditFailed"
  | similarityRepositoryError => "SimilarityRepositoryError"
  | invoiceNotFound => "InvoiceNotFound"
  | embeddingContractError => "EmbeddingContractError"
  | erpDataIntegrityError => "ERPDataIntegrityError"
  | ingestionError => "IngestionError"
  | idempotencyConflict => "IdempotencyConflict"
  | webhookNonceReuse => "WebhookNonceReuse"
  | ingestionUnavailable => "IngestionUnavailable"
  | decisionError => "DecisionError"
  | decisionNotFound => "DecisionNotFound"
  | decisionConflict => "DecisionConflict"
  | decisionUnavailable => "DecisionUnavailable"
  | other name => name

/-- The class with all it derives from ; no class is more than five steps from the root. -/
def mro (c : ExnClass) : List ExnClass :=
  let up (c : Option ExnClass) := c.bind base
  [some c, base c, up (base c), up (up (base c)), up (up (up (base c))),
    up (up (up (up (base c))))].filterMap id

/-- `issubclass`. -/
def isSubclass (c d : ExnClass) : Bool :=
  d ∈ c.mro

end ExnClass

/-- An exception : its class, its detail, and what it was raised from. -/
inductive Exn where
  | new (cls : ExnClass) (detail : String)
  | chained (cls : ExnClass) (detail : String) (cause : Exn)
  deriving DecidableEq, Repr

namespace Exn

/-- The class of an exception. -/
def cls : Exn → ExnClass
  | new c _ => c
  | chained c _ _ => c

/-- `isinstance`. -/
def isInstance (e : Exn) (c : ExnClass) : Bool :=
  e.cls.isSubclass c

end Exn

end InvoiceOps
