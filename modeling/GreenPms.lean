import GreenPms.Assistant.Failover
import GreenPms.Assistant.Lifetime
import GreenPms.Assistant.Providers
import GreenPms.Assistant.Stream
import GreenPms.Catalog.Actions
import GreenPms.Catalog.Changes
import GreenPms.Catalog.Guarantees
import GreenPms.Catalog.Heads
import GreenPms.Catalog.Machine
import GreenPms.Catalog.Placement
import GreenPms.Catalog.Prices
import GreenPms.Catalog.Rates
import GreenPms.Catalog.Rooms
import GreenPms.Catalog.Soundness
import GreenPms.Catalog.Trial
import GreenPms.Catalog.Versions
import GreenPms.Channel.Conservation
import GreenPms.Channel.Order
import GreenPms.Channel.Recognition
import GreenPms.Channel.Reversal
import GreenPms.Command.Confirm
import GreenPms.Command.Invariant
import GreenPms.Command.Machine
import GreenPms.Command.Outcome
import GreenPms.Command.Protocol
import GreenPms.Command.Step
import GreenPms.Command.Types
import GreenPms.Community.Continuity
import GreenPms.Community.Identities
import GreenPms.Community.IdentityGroups
import GreenPms.Community.LongStay
import GreenPms.Community.Matching
import GreenPms.Community.Metrics
import GreenPms.Community.Reordering
import GreenPms.Community.Residence
import GreenPms.Community.Residents
import GreenPms.Community.Stays
import GreenPms.Contracts.Sse
import GreenPms.Contracts.SseFrames
import GreenPms.Dashboard.Capacity
import GreenPms.Dashboard.Occupancy
import GreenPms.Delivery.Fencing
import GreenPms.Delivery.Guarantees
import GreenPms.Delivery.Machine
import GreenPms.Delivery.Tables
import GreenPms.Entitlement.Allocation
import GreenPms.Entitlement.Balance
import GreenPms.Entitlement.Budgets
import GreenPms.Entitlement.Draws
import GreenPms.Entitlement.Ledger
import GreenPms.Entitlement.Operations
import GreenPms.Entitlement.Tables
import GreenPms.Foundation.CanonicalHash
import GreenPms.Foundation.Dates
import GreenPms.Foundation.Json
import GreenPms.Funds.Arrears
import GreenPms.Funds.Attention
import GreenPms.Funds.Commands
import GreenPms.Funds.Conservation
import GreenPms.Funds.Handoff
import GreenPms.Funds.Ledger
import GreenPms.Funds.Replay
import GreenPms.Integration.Feed
import GreenPms.Integration.Machine
import GreenPms.Integration.Numbering
import GreenPms.Integration.Outbox
import GreenPms.Inventory.Agreement
import GreenPms.Inventory.Availability
import GreenPms.Inventory.Exclusive
import GreenPms.Inventory.Programs
import GreenPms.Inventory.Reachable
import GreenPms.Inventory.StayChange
import GreenPms.Inventory.Tables
import GreenPms.Library.Balances
import GreenPms.Library.Base64Url
import GreenPms.Library.Folds
import GreenPms.Library.Indexes
import GreenPms.Library.Intervals
import GreenPms.Library.Keyed
import GreenPms.Library.LockedStore
import GreenPms.Library.Rounding
import GreenPms.Library.SequencedFeed
import GreenPms.Library.Totals
import GreenPms.Library.Transition
import GreenPms.Library.Versions
import GreenPms.Order.Amendments
import GreenPms.Order.DateChange
import GreenPms.Order.Timeline
import GreenPms.Payments.Allocations
import GreenPms.Payments.Feeds
import GreenPms.Payments.Linking
import GreenPms.Payments.Partition
import GreenPms.Payments.Reconciliation
import GreenPms.Payments.RefundBatch
import GreenPms.Payments.RefundReserve
import GreenPms.Payments.Reordering
import GreenPms.Payments.Rereads
import GreenPms.Payments.Sync
import GreenPms.Payments.SyncCoverage
import GreenPms.Payments.SyncRuns
import GreenPms.Pricing.Agreement
import GreenPms.Pricing.BandTotal
import GreenPms.Pricing.Calculation
import GreenPms.Pricing.CashLines
import GreenPms.Pricing.Coverage
import GreenPms.Pricing.Decision
import GreenPms.Pricing.Policy
import GreenPms.Pricing.Prices
import GreenPms.Sales.Aggregate
import GreenPms.Sales.Completeness
import GreenPms.Sales.Conservation
import GreenPms.Sales.Recognition
import GreenPms.Stay.Balances
import GreenPms.Stay.Commands
import GreenPms.Stay.Coverage
import GreenPms.Stay.Create
import GreenPms.Stay.DateChange
import GreenPms.Stay.Funding
import GreenPms.Stay.Hotel
import GreenPms.Stay.Lifecycle
import GreenPms.Stay.Membership
import GreenPms.Stay.Move
import GreenPms.Stay.Orders
import GreenPms.Stay.Pricing
import GreenPms.Stay.Reachable
import GreenPms.Stay.RevisionChain
import GreenPms.Stay.Revisions
import GreenPms.Stay.Shorten
import GreenPms.Tokens.Authorization
import GreenPms.Tokens.Escalation
import GreenPms.Tokens.Lifecycle
import GreenPms.Integration.Guarantees
import GreenPms.Library.Choices
import GreenPms.Community.Agreement
