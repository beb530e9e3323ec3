import StellarAgent.Agent.Budget
import StellarAgent.Agent.Errors
import StellarAgent.Agent.Invocation
import StellarAgent.Agent.Settlement
import StellarAgent.AgentWalletFactory.Contract
import StellarAgent.AgentWalletFactory.Registry
import StellarAgent.AmmSwap.Contract
import StellarAgent.AmmSwap.Payments
import StellarAgent.BugBountyOracle.Conservation
import StellarAgent.BugBountyOracle.Contract
import StellarAgent.BugBountyOracle.Effects
import StellarAgent.CircuitBreaker.Consent
import StellarAgent.CircuitBreaker.Contract
import StellarAgent.CircuitBreaker.Quorum
import StellarAgent.EmergencyStop
import StellarAgent.Escrow.Conservation
import StellarAgent.Escrow.Contract
import StellarAgent.Escrow.Delivery
import StellarAgent.Escrow.Effects
import StellarAgent.Fleet.Capacity
import StellarAgent.Fleet.ChannelPool
import StellarAgent.Fleet.Convergence
import StellarAgent.Fleet.Exclusivity
import StellarAgent.Fleet.FeeStrategy
import StellarAgent.Fleet.Moves
import StellarAgent.Fleet.QueueDiscipline
import StellarAgent.Fleet.SubmissionOutcome
import StellarAgent.Fleet.SubmissionQueue
import StellarAgent.Fleet.Wakeups
import StellarAgent.Governance.Approvals
import StellarAgent.Governance.Cancellation
import StellarAgent.Governance.Contract
import StellarAgent.Governance.Effects
import StellarAgent.Governance.Expiry
import StellarAgent.Governance.Proposals
import StellarAgent.Governance.Timelock
import StellarAgent.Indexer.Completeness
import StellarAgent.Indexer.Decoder
import StellarAgent.Indexer.Delivery
import StellarAgent.Indexer.DeliveryProtocol
import StellarAgent.Indexer.Events
import StellarAgent.Indexer.Export
import StellarAgent.Indexer.FaithfulLedger
import StellarAgent.Indexer.JobStatuses
import StellarAgent.Indexer.Ledger
import StellarAgent.Indexer.MemoryStore
import StellarAgent.Indexer.Normalization
import StellarAgent.Indexer.Polling
import StellarAgent.Indexer.Reconciliation
import StellarAgent.Indexer.Reporting
import StellarAgent.Indexer.Schedules
import StellarAgent.Indexer.Statements
import StellarAgent.Indexer.Store
import StellarAgent.Indexer.StoreEffects
import StellarAgent.Integrations.Policy
import StellarAgent.Integrations.SessionBudget
import StellarAgent.Lib.Accumulators
import StellarAgent.Lib.BestPerKey
import StellarAgent.Lib.BigEndian
import StellarAgent.Lib.BucketRing
import StellarAgent.Lib.Calendar
import StellarAgent.Lib.CodeUnits
import StellarAgent.Lib.Csv
import StellarAgent.Lib.DecimalFloats
import StellarAgent.Lib.DecimalText
import StellarAgent.Lib.Escapes
import StellarAgent.Lib.FinMap
import StellarAgent.Lib.Json
import StellarAgent.Lib.Lines
import StellarAgent.Lib.Monitors
import StellarAgent.Lib.PeriodLimiter
import StellarAgent.Lib.Programs
import StellarAgent.Lib.Quorum
import StellarAgent.Lib.RestartingWindows
import StellarAgent.Lib.Results
import StellarAgent.Lib.RunningGroups
import StellarAgent.Lib.Runs
import StellarAgent.Lib.StableSort
import StellarAgent.Lib.StableTies
import StellarAgent.Lib.Tables
import StellarAgent.Lib.Truncation
import StellarAgent.Lib.Utf8
import StellarAgent.Lib.Worlds
import StellarAgent.Math.Attestation
import StellarAgent.Math.Bid
import StellarAgent.Math.BidAgreement
import StellarAgent.Math.BidFairness
import StellarAgent.Math.Decimal
import StellarAgent.Math.FixedPoint
import StellarAgent.Math.Grammar
import StellarAgent.Math.LedgerTime
import StellarAgent.Math.Literal
import StellarAgent.Math.PythonDecimal
import StellarAgent.Math.Timestamps
import StellarAgent.MultiSig
import StellarAgent.PaymentChannel.Accounting
import StellarAgent.PaymentChannel.Admin
import StellarAgent.PaymentChannel.AdminEffects
import StellarAgent.PaymentChannel.AdminSlots
import StellarAgent.PaymentChannel.Authenticity
import StellarAgent.PaymentChannel.Book
import StellarAgent.PaymentChannel.ChallengeWindow
import StellarAgent.PaymentChannel.Controls
import StellarAgent.PaymentChannel.DisputeOutcome
import StellarAgent.PaymentChannel.Effects
import StellarAgent.PaymentChannel.Networks
import StellarAgent.PaymentChannel.Payments
import StellarAgent.PaymentChannel.Payout
import StellarAgent.PaymentChannel.QuorumBinding
import StellarAgent.PaymentChannel.Refinement
import StellarAgent.PaymentChannel.Reservation
import StellarAgent.PaymentChannel.Scenario
import StellarAgent.PaymentChannel.SlippageFloor
import StellarAgent.PaymentChannel.Solvency
import StellarAgent.PaymentChannel.SpendHistory
import StellarAgent.PaymentChannel.SpendRate
import StellarAgent.PaymentChannel.Storage
import StellarAgent.PaymentChannel.System
import StellarAgent.PaymentChannel.Voucher
import StellarAgent.PaymentChannel.Vouchers
import StellarAgent.Prediction.Agreement
import StellarAgent.Prediction.Checks
import StellarAgent.Prediction.Decoding
import StellarAgent.Prediction.EndToEnd
import StellarAgent.Prediction.Ports
import StellarAgent.Prediction.Predict
import StellarAgent.Prediction.Rings
import StellarAgent.PriceOracle.Contract
import StellarAgent.PriceOracle.History
import StellarAgent.RateLimiter.Buckets
import StellarAgent.RateLimiter.Contract
import StellarAgent.RateLimiter.Effects
import StellarAgent.RateLimiter.Ownership
import StellarAgent.RateLimiter.Windows
import StellarAgent.ReputationRegistry.Contract
import StellarAgent.ReputationRegistry.History
import StellarAgent.Routing.DiscoverRoutes
import StellarAgent.Routing.Discovery
import StellarAgent.Routing.Planner
import StellarAgent.Routing.Providers
import StellarAgent.Routing.Ranking
import StellarAgent.Routing.RouteIds
import StellarAgent.Routing.Types
import StellarAgent.Routing.Utf8Order
import StellarAgent.Sdk.Amounts
import StellarAgent.Sdk.Client
import StellarAgent.Sdk.Error
import StellarAgent.Sdk.Retries
import StellarAgent.Sdk.Rpc
import StellarAgent.Signer.Arguments
import StellarAgent.Signer.Audit
import StellarAgent.Signer.AuditChain
import StellarAgent.Signer.AuditCompleteness
import StellarAgent.Signer.Auth
import StellarAgent.Signer.Canonical
import StellarAgent.Signer.Caps
import StellarAgent.Signer.Concurrency
import StellarAgent.Signer.Coverage
import StellarAgent.Signer.Error
import StellarAgent.Signer.FileLog
import StellarAgent.Signer.Http
import StellarAgent.Signer.Inspect
import StellarAgent.Signer.Policy
import StellarAgent.Signer.Ratchet
import StellarAgent.Signer.RateBound
import StellarAgent.Signer.Service
import StellarAgent.Signer.SigningPath
import StellarAgent.Signer.State
import StellarAgent.Signer.Xdr
import StellarAgent.Soroban.Host
import StellarAgent.Soroban.Money
import StellarAgent.Soroban.Proposals
import StellarAgent.Soroban.Transactions
import StellarAgent.Subscription.Cancellation
import StellarAgent.Subscription.Contract
import StellarAgent.Subscription.Draws
import StellarAgent.Subscription.Trust
import StellarAgent.Zk.Acceptance
import StellarAgent.Zk.Circuit
import StellarAgent.Zk.PointEncoding
import StellarAgent.Zk.Prover
import StellarAgent.Zk.Solvency
