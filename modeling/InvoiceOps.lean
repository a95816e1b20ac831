import InvoiceOps.Program
import InvoiceOps.ReadCommitted
import InvoiceOps.Exclusive
import InvoiceOps.Trace
import InvoiceOps.Loop
import InvoiceOps.Recency
import InvoiceOps.Patterns
import InvoiceOps.Substitution
import InvoiceOps.Values
import InvoiceOps.Tables
import InvoiceOps.State
import InvoiceOps.Ledger
import InvoiceOps.Retry
import InvoiceOps.AttemptStore
import InvoiceOps.Attempts
import InvoiceOps.Fencing
import InvoiceOps.DeadLetters
import InvoiceOps.RunLock
import InvoiceOps.RetryWorker
import InvoiceOps.Failures
import InvoiceOps.InvoiceNodes
import InvoiceOps.Workflows
import InvoiceOps.Adk
import InvoiceOps.Receipts
import InvoiceOps.Provenance
import InvoiceOps.LedgerReader
import InvoiceOps.Erp
import InvoiceOps.ErpTables
import InvoiceOps.ErpSeed
import InvoiceOps.Decimal
import InvoiceOps.DecimalText
import InvoiceOps.ExactArithmetic
import InvoiceOps.DecimalRound
import InvoiceOps.DecimalAmbient
import InvoiceOps.Codec
import InvoiceOps.Host
import InvoiceOps.Extraction
import InvoiceOps.Validation
import InvoiceOps.Matching
import InvoiceOps.Policy
import InvoiceOps.Taxonomy
import InvoiceOps.ValidationExact
import InvoiceOps.MatchingExact
import InvoiceOps.PolicyExact
import InvoiceOps.TaxonomyExact
import InvoiceOps.Triage
import InvoiceOps.TriageEvidence
import InvoiceOps.Gate
import InvoiceOps.GateExact
import InvoiceOps.GateFloor
import InvoiceOps.GateContexts
import InvoiceOps.AutoApproval
import InvoiceOps.ReplayedEvidence
import InvoiceOps.Csv
import InvoiceOps.Ocr
import InvoiceOps.OcrGrammar
import InvoiceOps.OcrRead
import InvoiceOps.Scoring
import InvoiceOps.Lockout
import InvoiceOps.AuthStore
import InvoiceOps.LoginLockout
import InvoiceOps.Passwords
import InvoiceOps.AuthSeed
import InvoiceOps.Keyset
import InvoiceOps.Base64
import InvoiceOps.Documents
import InvoiceOps.DateTimes
import InvoiceOps.InvoiceCursors
import InvoiceOps.InvoiceReader
import InvoiceOps.GatewaySettings
import InvoiceOps.Budgets
import InvoiceOps.GatewayClient
import InvoiceOps.Guards
import InvoiceOps.GatewayDiscipline
import InvoiceOps.GatewayFallback
import InvoiceOps.GatewayAudit
import InvoiceOps.GatewayCosts
import InvoiceOps.Calls
import InvoiceOps.Decisions
import InvoiceOps.Reviews
import InvoiceOps.Ingestion
import InvoiceOps.Idempotency
import InvoiceOps.Webhooks
import InvoiceOps.Similarity
import InvoiceOps.NearDuplicates
