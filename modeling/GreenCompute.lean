import GreenCompute.Foundations.Interleaving
import GreenCompute.Foundations.Watching
import GreenCompute.Foundations.Simulation
import GreenCompute.Foundations.Interruption
import GreenCompute.Foundations.Journal
import GreenCompute.Foundations.Rounding
import GreenCompute.Foundations.Selection
import GreenCompute.Foundations.Steps
import GreenCompute.Foundations.Table
import GreenCompute.Foundations.Counting
import GreenCompute.Foundations.Text
import GreenCompute.Billing.Reference
import GreenCompute.Billing.Tables
import GreenCompute.Billing.Repository
import GreenCompute.Billing.Ledger
import GreenCompute.Billing.Service
import GreenCompute.Billing.Effects
import GreenCompute.Billing.Transfers
import GreenCompute.Billing.Deposits
import GreenCompute.Billing.Invoices
import GreenCompute.Billing.Profiles
import GreenCompute.ControlPlane.Tables
import GreenCompute.ControlPlane.Registration
import GreenCompute.ControlPlane.Repository
import GreenCompute.ControlPlane.Scheduler
import GreenCompute.ControlPlane.Service
import GreenCompute.ControlPlane.Sweeps
import GreenCompute.ControlPlane.Calls
import GreenCompute.ControlPlane.Effects
import GreenCompute.ControlPlane.Unmetered
import GreenCompute.ControlPlane.Keeping
import GreenCompute.ControlPlane.Termination
import GreenCompute.ControlPlane.Stands
import GreenCompute.ControlPlane.Cycles
import GreenCompute.ControlPlane.Shifts
import GreenCompute.ControlPlane.Reservations
import GreenCompute.ControlPlane.Disclosure
import GreenCompute.ControlPlane.Edits
import GreenCompute.ControlPlane.Metering
import GreenCompute.ControlPlane.Conservation
import GreenCompute.ControlPlane.Quotes
import GreenCompute.ControlPlane.Suspensions
import GreenCompute.ControlPlane.StorageCharges
import GreenCompute.ControlPlane.RuntimeCaps
import GreenCompute.ControlPlane.Leases
import GreenCompute.ControlPlane.Lifecycle
import GreenCompute.ControlPlane.Resuming
import GreenCompute.ControlPlane.Outages
import GreenCompute.ControlPlane.Reports
import GreenCompute.ControlPlane.Freshness
import GreenCompute.Validator.Catalog
import GreenCompute.Validator.CertificateReader
import GreenCompute.Foundations.Regex
import GreenCompute.Validator.SpecCheck
import GreenCompute.Watcher.AlphaDeposits
import GreenCompute.Billing.Amounts
import GreenCompute.Billing.Stripe
import GreenCompute.Billing.Captures
import GreenCompute.Billing.Refunds
import GreenCompute.Validator.ManagedWallets
import GreenCompute.Validator.Registrations
import GreenCompute.Validator.Recovery
import GreenCompute.Validator.Payouts
import GreenCompute.Persistence.SubjectBus
import GreenCompute.Persistence.Deliveries
import GreenCompute.Persistence.NatsBus
import GreenCompute.Persistence.Transport
import GreenCompute.Validator.Flux
import GreenCompute.Validator.Replicas
import GreenCompute.Gateway.ApiKeys
import GreenCompute.Gateway.Minting
import GreenCompute.Gateway.Routing
import GreenCompute.Gateway.Visibility
import GreenCompute.Validator.Audit
import GreenCompute.Persistence.KeyLimits
import GreenCompute.Gateway.RentalLimits
import GreenCompute.Gateway.Inference
import GreenCompute.Gateway.Invocations
import GreenCompute.Gateway.Holds
import GreenCompute.Gateway.Fleets
import GreenCompute.Gateway.Members
import GreenCompute.Gateway.Filling
import GreenCompute.Gateway.Failures
import GreenCompute.Gateway.Idempotency
import GreenCompute.Builder.Repository
import GreenCompute.Builder.Service
import GreenCompute.Builder.Finality
import GreenCompute.Foundations.Grouping
import GreenCompute.Billing.Statements
import GreenCompute.Billing.Reconciliation
import GreenCompute.Foundations.Paging
import GreenCompute.Persistence.AccountEvents
import GreenCompute.Gateway.StoppedAlerts
import GreenCompute.Gateway.Webhooks
import GreenCompute.Gateway.Following
import GreenCompute.Gateway.Credit
import GreenCompute.Gateway.CreditWarnings
import GreenCompute.Gateway.Solvency
import GreenCompute.Foundations.Embedding
import GreenCompute.Validator.Applications
import GreenCompute.Validator.Provisioning
import GreenCompute.Validator.Onboarding
import GreenCompute.Billing.Revenue
import GreenCompute.Foundations.Totals
import GreenCompute.Billing.Recognition
import GreenCompute.Foundations.Words
import GreenCompute.Validator.Reviews
import GreenCompute.Validator.Approvals
import GreenCompute.Validator.Registries
import GreenCompute.Gateway.Outbound
import GreenCompute.Gateway.Connections
import GreenCompute.Validator.Scoring
import GreenCompute.Validator.Dashboard
import GreenCompute.Validator.Evidence
import GreenCompute.Validator.ProbeRaces
import GreenCompute.Billing.Monitor
import GreenCompute.Billing.Notices
import GreenCompute.Gateway.Lineage
import GreenCompute.Foundations.Packing
import GreenCompute.ControlPlane.Advertised
import GreenCompute.ControlPlane.Registered
import GreenCompute.ControlPlane.Placing
import GreenCompute.Gateway.CapacityAlerts
import GreenCompute.Gateway.AlertStates
import GreenCompute.Gateway.Rentable
import GreenCompute.Foundations.Classes
import GreenCompute.Validator.MultiNode
import GreenCompute.Validator.Assigned
import GreenCompute.Validator.Rebalancing
import GreenCompute.Validator.Requotes
import GreenCompute.Gateway.Overcommitment
import GreenCompute.ControlPlane.Refusals
import GreenCompute.ControlPlane.Reassigning
import GreenCompute.ControlPlane.Deadlines
import GreenCompute.Validator.Chain
import GreenCompute.Billing.Retries
import GreenCompute.Validator.Targets
import GreenCompute.Validator.Incentives
import GreenCompute.Validator.Addresses
import GreenCompute.Gateway.Streaming
import GreenCompute.ControlPlane.Idling
import GreenCompute.Foundations.Pattern
import GreenCompute.Billing.RateTexts
import GreenCompute.Gateway.Workloads
import GreenCompute.Gateway.Secrets
import GreenCompute.Gateway.FleetCalls
import GreenCompute.Gateway.Orphans
import GreenCompute.Validator.ReviewOrder
