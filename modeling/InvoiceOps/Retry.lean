import InvoiceOps.Values

/-!
# Retry classification

`RetryConfig` and the classification of a failure by the exception it started from :
`root_error` follows the causes, `is_infrastructure_error` looks at the class it ends with.
-/

namespace InvoiceOps

/-- `RetryConfig` : how many attempts a cycle has, and how long a claim is respected. -/
structure RetryConfig where
  maxAttempts : ℕ
  runningLeaseSeconds : ℕ
  one_le_maxAttempts : 1 ≤ maxAttempts
  maxAttempts_le : maxAttempts ≤ 10
  one_le_lease : 1 ≤ runningLeaseSeconds
  lease_le : runningLeaseSeconds ≤ 3600

namespace RetryConfig

/-- The `RetryConfig` that is built without arguments. -/
def default : RetryConfig where
  maxAttempts := 3
  runningLeaseSeconds := 480
  one_le_maxAttempts := by decide
  maxAttempts_le := by decide
  one_le_lease := by decide
  lease_le := by decide

/-- The lease, in the microseconds of an `Instant`. -/
def lease (config : RetryConfig) : ℤ :=
  config.runningLeaseSeconds * 1000000

end RetryConfig

/-- `_INFRASTRUCTURE`. -/
def infrastructure : List ExnClass :=
  [.graphTimeout, .checkpointUnavailable, .ledgerStorageError, .gatewayUnavailable,
    .documentUnavailable, .operationalError, .interfaceError, .deadlockDetected,
    .serializationFailure, .timeoutError, .connectionError, .osError]

/-- `root_error`. Causes form a chain, so the walk never meets an error twice. -/
def rootError : Exn → Exn
  | .new cls detail => .new cls detail
  | .chained _ _ cause => rootError cause

/-- `is_infrastructure_error`. -/
def isInfrastructureError (error : Exn) : Bool :=
  infrastructure.any fun cls => (rootError error).isInstance cls

end InvoiceOps
