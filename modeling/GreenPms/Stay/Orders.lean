import GreenPms.Entitlement.Allocation
import GreenPms.Order.Amendments
import GreenPms.Pricing.Decision

/-! # Orders of a property

What the commands on a stay read and write: the catalogue of units, the published pricing policies,
the entitlement tables, and the orders with their amendments and pricing revisions.
-/

namespace GreenPms

open Checked

structure UnitDetails where
  roomTypeCode : Option Nat
  pricingProductCode : Option Nat
  occupancyCapacity : Nat
  deriving DecidableEq, Repr

structure InventoryUnit where
  id : Nat
  kind : InventoryUnitKind
  details : UnitDetails
  deriving DecidableEq, Repr

structure PublishedPolicy where
  policy : PricingPolicy
  managedRoomPrices : Bool

structure StayInterval where
  arrivalDate : Nat
  departureDate : Nat
  stayTimeline : List StayTimelineItem
  deriving DecidableEq, Repr

structure EntitlementSummary where
  currentConsumedCoverageDates : List Nat
  retainedHistoricalConsumedCoverageDates : List Nat
  restoredFutureCoverageDates : List Nat
  deriving DecidableEq, Repr

structure Shortening where
  before : StayInterval
  entitlementSummary : EntitlementSummary
  deriving DecidableEq, Repr

structure StayAmendment extends Amendment where
  shortening : Option Shortening
  checkoutSequence : Option Nat
  deriving DecidableEq, Repr

/-- A revision with the arrangement of the amendment that it was written with. -/
structure PricingRevision where
  revisionNo : Nat
  amendmentSequence : Nat
  policyVersionId : Nat
  stay : StayInterval
  pricing : PricingSnapshot
  deriving DecidableEq, Repr

structure MembershipConversion where
  contractId : Nat
  entitlementLotId : Nat
  entitlementUnitKind : EntitlementUnitKind
  allowedInventoryKind : InventoryUnitKind
  allowedRoomTypeCode : Nat
  crossRoomUpgrade : Bool
  deriving DecidableEq, Repr

/-- The nights of `stay` are those of the active claims while the order is reserved or checked in,
and those of the last arrangement afterwards. -/
structure StayOrder where
  status : OrderStatus
  identity : OrderIdentity
  stay : StayInterval
  pricingPolicyVersionId : Nat
  version : Nat
  amendments : List StayAmendment
  revisions : List PricingRevision
  conversion : Option MembershipConversion
  temporaryOtherRoom : Option TemporaryOtherRoomArrangement
  occupantCount : Nat
  deriving DecidableEq, Repr

structure Hotel where
  today : Nat
  units : Nat → Option UnitDetails
  policies : Nat → Option PublishedPolicy
  entitlement : EntitlementTables
  orders : Nat → Option StayOrder

def notFound (message : String) : Thrown := .domain (domainError .notFound message)
def invalidState (message : String) : Thrown := .domain (domainError .invalidOrderState message)
def invalid (message : String) : Thrown := .domain (invalidInput message)

namespace StayOrder

variable (order : StayOrder)

def memberStay : Bool := order.identity.memberStay

def dates : List Nat := order.stay.stayTimeline.map StayTimelineItem.serviceDate

def owner (orderId : Nat) : CoverageOwner := ⟨orderId, order.identity.memberContractId, order.identity.memberId⟩

def isMutable : Bool := order.status = .reserved || order.status = .checkedIn

def amend (type : CommandType) (commandId : Nat) (shortening : Option Shortening) (checkoutSequence : Option Nat) :
    StayOrder :=
  { order with
    amendments := order.amendments ++ [⟨⟨order.version + 1, type, commandId⟩, shortening, checkoutSequence⟩]
    version := order.version + 1 }

def insertRevision (stay : StayInterval) (pricing : PricingSnapshot) : Except Thrown StayOrder := do
  require (∀ amount ∈ [pricing.policyBaseAmountMinor, pricing.currentContractAmountMinor, pricing.manualAdjustmentMinor],
    postgresIntegerMinimum ≤ amount ∧ amount ≤ postgresIntegerMaximum) .failure
  return { order with
    revisions := order.revisions ++
      [⟨order.revisions.length + 1, order.version, order.pricingPolicyVersionId, stay, pricing⟩] }

def currentRevision : Option PricingRevision := order.revisions.getLast?

end StayOrder

namespace Hotel

variable (hotel : Hotel)

def loadOrder (orderId : Nat) : Except Thrown StayOrder :=
  expect (notFound "Order not found") (hotel.orders orderId)

def setOrder (orderId : Nat) (order : StayOrder) : Hotel :=
  { hotel with orders := Function.update hotel.orders orderId (some order) }

def loadInventoryUnit (cat : UnitCatalog) (unitId : Nat) : Except Thrown InventoryUnit := do
  let details ← expect (notFound "Inventory unit not found") (hotel.units unitId)
  return ⟨unitId, cat.kind unitId, details⟩

def loadPricingPolicy (policyVersionId : Nat) (lockedForOrder : Bool) : Except Thrown PricingPolicy := do
  let published ← expect (.domain (domainError .policyVersionNotFound "Pricing policy version not found"))
    (hotel.policies policyVersionId)
  if lockedForOrder = true ∧ published.managedRoomPrices = true then
    return { published.policy with effectiveFrom := some 0, effectiveUntil := none }
  else return published.policy

end Hotel

/-- The last unit of a stay from the night that it begins there without a break. -/
def trailingTimelineRun (timeline : List StayTimelineItem) : Option TimelineRun := (timelineRuns timeline).getLast?

end GreenPms
