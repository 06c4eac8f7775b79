import GreenPms.Pricing.Calculation
import GreenPms.Stay.Orders

/-! # Pricing of a stay

The price of an arrangement from the coverage that its order has or may draw, and the locked policy
of the order; every caller prices without a manual adjustment.
-/

namespace GreenPms

open Checked

structure TimelineUnit where
  serviceDate : Nat
  unit : InventoryUnit
  deriving DecidableEq, Repr

def TimelineUnit.priced (item : TimelineUnit) : PricingTimelineItem :=
  ⟨item.serviceDate, item.unit.id, item.unit.kind, item.unit.details.pricingProductCode⟩

structure StayPricingRequest where
  orderId : Nat
  identity : OrderIdentity
  stay : StayInterval
  policyVersionId : Nat
  coverageAllocationDates : Option (List Nat)
  reallocatableHeld : List CoverageCandidate
  preservedCoverageOnly : Bool

def StayPricingRequest.input (request : StayPricingRequest) (policy : PricingPolicy)
    (candidates : List CoverageCandidate) (arrivalDate departureDate : Nat) : PricingInput :=
  ⟨arrivalDate, departureDate, request.identity.stayType, policy, request.identity.memberStay, candidates, 0⟩

def unsupportedTotal : Thrown := invalid "Calculated amount exceeds the supported integer range"

def joinPieces (currency : CurrencyCode) (pieces : List PricingResult) : Except Thrown PricingResult := do
  let cashRemainderMinor := (pieces.map fun piece => piece.cashRemainder.minorUnits).sum
  require (cashRemainderMinor ≤ postgresIntegerMaximum) unsupportedTotal
  return {
    coverageSet := pieces.flatMap PricingResult.coverageSet
    cashLines := pieces.flatMap PricingResult.cashLines
    cashRemainder := ⟨currency, cashRemainderMinor⟩
    currentContractAmount := ⟨currency, cashRemainderMinor⟩ }

namespace Hotel

variable (cat : UnitCatalog) (hotel : Hotel)

def loadTimeline (timeline : List StayTimelineItem) : Except Thrown (List TimelineUnit) :=
  timeline.mapM fun item => do
    let unit ← hotel.loadInventoryUnit cat item.inventoryUnitId
    return ⟨item.serviceDate, unit⟩

/-- Member rights are for units of one kind and, where the member is known, of one room type. -/
def assertMemberUnits (identity : OrderIdentity) (first : InventoryUnit) (timeline : List TimelineUnit) :
    Except Thrown Unit := do
  require (identity.memberStay = true → ∀ item ∈ timeline, item.unit.kind = first.kind)
    (entitlementConflict "Member coverage cannot span room and bed inventory without an approved business case")
  require (identity.memberId.isSome = true → ∀ item ∈ timeline,
      item.unit.kind = first.kind ∧ item.unit.details.roomTypeCode = first.details.roomTypeCode)
    (entitlementConflict "会员住宿不能跨越不同会员产品对应的房型")

def freeMemberStay : Thrown :=
  .domain (unconfigured "Free stays cannot use member entitlement coverage")

def allocateCoverage (identity : OrderIdentity) (request : CoverageRequest) :
    Except Thrown (List CoverageCandidate) :=
  match identity.memberId with
  | some memberId => Prod.snd <$> hotel.entitlement.resolveMemberCoverage memberId request
  | none => hotel.entitlement.allocateCoverageCandidates identity.memberContractId
      { request with preserved := request.kept }

def allocateUnlessPreserved (request : StayPricingRequest) (allocation : CoverageRequest) :
    Except Thrown (List CoverageCandidate) :=
  if request.preservedCoverageOnly = true then .ok allocation.preserved
  else hotel.allocateCoverage request.identity allocation

def stayCandidates (request : StayPricingRequest) (first : InventoryUnit) (expectedDates : List Nat) :
    Except Thrown (List CoverageCandidate) := do
  let preserved := hotel.entitlement.candidatesOn request.orderId expectedDates
  let allocationDates := request.coverageAllocationDates.getD expectedDates
  let allocation : CoverageRequest :=
    ⟨hotel.today, first.kind, first.details.roomTypeCode, allocationDates, preserved, request.reallocatableHeld⟩
  let allocated ← hotel.allocateUnlessPreserved request allocation
  return sortCandidates
    ((preserved.filter fun candidate => !allocationDates.contains candidate.serviceDate) ++ allocated)

def priceRun (request : StayPricingRequest) (policy : PricingPolicy) (candidates : List CoverageCandidate)
    (run : TimelineRun) : Except Thrown PricingResult := do
  let unit ← hotel.loadInventoryUnit cat run.inventoryUnitId
  let own := candidates.filter fun candidate =>
    run.arrivalDate ≤ candidate.serviceDate && candidate.serviceDate < run.departureDate
  (calculatePricing (request.input policy own run.arrivalDate run.departureDate)
    ⟨unit.id, unit.kind, unit.details.pricingProductCode⟩).mapError .domain

def priceStayTimeline (request : StayPricingRequest) : Except Thrown PricingResult := do
  require (request.identity.stayType = .free → request.identity.memberStay = false) freeMemberStay
  let stay := request.stay
  let expectedDates ← (enumerateServiceDates stay.arrivalDate stay.departureDate).mapError .domain
  require (stay.stayTimeline.map StayTimelineItem.serviceDate = expectedDates)
    (internalFailure "Stay pricing timeline does not cover the order interval")
  let timeline ← hotel.loadTimeline cat stay.stayTimeline
  let first ← expect .failure timeline.head?
  assertMemberUnits request.identity first.unit timeline
  let candidates ← hotel.stayCandidates request first.unit expectedDates
  let policy ← hotel.loadPricingPolicy request.policyVersionId true
  if policy.calculationKind = .durationBandTotal then
    (calculateDurationTimelinePricing (request.input policy candidates stay.arrivalDate stay.departureDate)
      (timeline.map TimelineUnit.priced)).mapError .domain
  else do
    let pieces ← (timelineRuns stay.stayTimeline).mapM (hotel.priceRun cat request policy candidates)
    joinPieces policy.currency pieces

end Hotel

end GreenPms
