import Mathlib.Algebra.GroupWithZero.Nat
import Mathlib.Algebra.Ring.Int.Defs
import GreenPms.Pricing.Policy

/-! # Calculation of a price

`calculateDurationTimelinePricing` prices a stay as one line from the segments of its timeline, or,
for a member, the uncovered nights one by one; `calculatePricing` prices the nights of one unit.
-/

namespace GreenPms

open Checked

structure PricingTimelineItem where
  serviceDate : Nat
  inventoryUnitId : Nat
  inventoryUnitKind : InventoryUnitKind
  inventoryProductCode : Option Nat
  deriving DecidableEq, Repr

def PricingTimelineItem.stay (item : PricingTimelineItem) : StayTimelineItem :=
  ⟨item.serviceDate, item.inventoryUnitId⟩

structure PricingInput where
  arrivalDate : Nat
  departureDate : Nat
  stayType : StayType
  policy : PricingPolicy
  memberCoverage : Bool
  coverageCandidates : List CoverageCandidate
  manualAdjustmentMinor : Int

structure PricedUnit where
  inventoryUnitId : Nat
  inventoryUnitKind : InventoryUnitKind
  inventoryProductCode : Option Nat
  deriving DecidableEq, Repr

def lineTotalMinor (lines : List CashLine) : Int := (lines.map fun line => line.amount.minorUnits).sum

def coverTimeline (candidates : List CoverageCandidate) :
    List PricingTimelineItem → Except DomainError (List CoveredNight)
  | [] => .ok []
  | item :: rest =>
      match candidateOn candidates item.serviceDate with
      | none => coverTimeline candidates rest
      | some candidate => do
          let night ← coveredNight item.serviceDate item.inventoryUnitId
            (entitlementKindFor item.inventoryUnitKind) candidate
          let more ← coverTimeline candidates rest
          return night :: more

def memberCashLine (policy : PricingPolicy) (item : PricingTimelineItem) : Except DomainError CashLine := do
  let anchors ← requireDurationAnchors policy item.inventoryProductCode
  require (anchors.minor .one % 100 = 0)
    (unconfigured "Member P1 cash lines require a confirmed whole-yuan anchor")
  return .night item.serviceDate item.inventoryUnitId
    "Member cash remainder at locked one-night transient price" ⟨policy.currency, anchors.minor .one⟩

def uncovered (candidates : List CoverageCandidate) (item : PricingTimelineItem) : Bool :=
  (candidateOn candidates item.serviceDate).isNone

/-- A night is added to the last segment, which comes first, or opens a segment. -/
def addNight (policy : PricingPolicy) (band : DurationBandAnchorNights) (segments : List CalculationSegment)
    (item : PricingTimelineItem) : Except DomainError (List CalculationSegment) := do
  let productCode ← expect (unconfigured "Inventory unit has no pricing product") item.inventoryProductCode
  match segments.head? with
  | some current =>
      if current.inventoryUnitId = item.inventoryUnitId ∧ current.pricingProductCode = productCode ∧
          current.departureDate = item.serviceDate then
        return { current with
          departureDate := item.serviceDate + 1
          nights := current.nights + 1
          numeratorMinor := current.numeratorMinor + current.anchorAmountMinor } :: segments.tail
      else openSegment productCode
  | none => openSegment productCode
where
  openSegment (productCode : Nat) : Except DomainError (List CalculationSegment) := do
    let anchors ← requireDurationAnchors policy item.inventoryProductCode
    return {
      inventoryUnitId := item.inventoryUnitId
      pricingProductCode := productCode
      arrivalDate := item.serviceDate
      departureDate := item.serviceDate + 1
      nights := 1
      anchorAmountMinor := anchors.minor band
      numeratorMinor := anchors.minor band
      denominator := band } :: segments

def calculationSegments (policy : PricingPolicy) (band : DurationBandAnchorNights)
    (timeline : List PricingTimelineItem) : Except DomainError (List CalculationSegment) := do
  let segments ← timeline.foldlM (addNight policy band) []
  return segments.reverse

def unsupportedAmount : DomainError := invalidInput "Pricing amount exceeds the supported integer range"

def roundedMinor (numeratorMinor denominator : Nat) : Nat :=
  roundPositiveRationalHalfUp numeratorMinor (denominator * 100) * 100

/-- The lines add up as the doubles of the source do while their sum is a safe integer, and so nightly. -/
def memberPricing (input : PricingInput) (timeline : List PricingTimelineItem) (coverageSet : List CoveredNight)
    (manualAdjustment : Int) : Except DomainError PricingResult := do
  let cashLines ← (timeline.filter (uncovered input.coverageCandidates)).mapM (memberCashLine input.policy)
  let cashSubtotal : Int := roundedMinor (lineTotalMinor cashLines).toNat 1
  let target ← applyManualAdjustment cashSubtotal manualAdjustment true
  return ⟨coverageSet, cashLines, ⟨input.policy.currency, cashSubtotal⟩, ⟨input.policy.currency, target⟩⟩

def bandPricing (input : PricingInput) (timeline : List PricingTimelineItem) (nights : Nat)
    (coverageSet : List CoveredNight) (manualAdjustment : Int) : Except DomainError PricingResult := do
  let band := durationBandAnchorNights nights
  let segments ← calculationSegments input.policy band timeline
  let numeratorMinor := (segments.map CalculationSegment.numeratorMinor).sum
  require (numeratorMinor ≤ maxSafeInteger) unsupportedAmount
  let total := roundedMinor numeratorMinor band.nights
  require (total ≤ maxSafeInteger) unsupportedAmount
  let target ← applyManualAdjustment total manualAdjustment false
  let first ← expect unsupportedAmount timeline.head?
  let line := CashLine.stayTotal input.arrivalDate input.departureDate first.inventoryUnitId
    "Accommodation total from locked duration band" band segments ⟨input.policy.currency, total⟩
  return ⟨coverageSet, [line], ⟨input.policy.currency, total⟩, ⟨input.policy.currency, target⟩⟩

def assertPolicyEffective (policy : PricingPolicy) (arrivalDate : Nat) : Except DomainError Unit :=
  require ((∃ start ∈ policy.effectiveFrom, start ≤ arrivalDate) ∧ ∀ stop ∈ policy.effectiveUntil, arrivalDate < stop)
    (unconfigured "Pricing policy is not effective for the stay arrival date")

def calculateDurationTimelinePricing (input : PricingInput) (timeline : List PricingTimelineItem) :
    Except DomainError PricingResult := do
  require (input.stayType ≠ .free ∧ input.policy.calculationKind = .durationBandTotal ∧ input.policy.stayType = none)
    (unconfigured "Duration-band policy applies only to paid stays")
  assertPolicyEffective input.policy input.arrivalDate
  require (input.policy.roundsFinalTotal = true) missingRounding
  let manualAdjustment ← validateManualAdjustment input.policy input.manualAdjustmentMinor
  let dates ← enumerateServiceDates input.arrivalDate input.departureDate
  require (timeline.map PricingTimelineItem.serviceDate = dates)
    (domainError .internalError "Pricing timeline must cover the complete stay in date order")
  assertCandidates input.coverageCandidates dates
  let coverageSet ← coverTimeline input.coverageCandidates timeline
  if input.memberCoverage = true ∨ coverageSet ≠ [] then memberPricing input timeline coverageSet manualAdjustment
  else bandPricing input timeline dates.length coverageSet manualAdjustment

/-! ## One unit -/

def unitTimeline (unit : PricedUnit) (dates : List Nat) : List PricingTimelineItem :=
  dates.map fun date => ⟨date, unit.inventoryUnitId, unit.inventoryUnitKind, unit.inventoryProductCode⟩

def approvedPolicyShape (stayType : StayType) (policy : PricingPolicy) : Bool :=
  (stayType = .transient && policy.calculationKind = .flatNightly && policy.stayType = some .transient) ||
  (stayType = .free && policy.calculationKind = .free && policy.stayType = some .free) ||
  (stayType ≠ .free && policy.calculationKind = .durationBandTotal && policy.stayType = none)

def yearMonth (day : Nat) : List Char := (isoDate day).toList.take 7

def nightlyCashLine (policy : PricingPolicy) (unitId : Nat) (nightlyRateMinor : Int) (serviceDate : Nat) : CashLine :=
  if policy.calculationKind = .free then
    .night serviceDate unitId "Free accommodation" ⟨policy.currency, 0⟩
  else .night serviceDate unitId "Nightly accommodation" ⟨policy.currency, nightlyRateMinor⟩

def nightlyPricing (input : PricingInput) (unit : PricedUnit) : Except DomainError PricingResult := do
  let dates ← enumerateServiceDates input.arrivalDate input.departureDate
  require (input.policy.calculationKind = .flatNightly → yearMonth input.arrivalDate = yearMonth input.departureDate)
    (unconfigured "Cross-month pricing requires the approved 2026 duration-band policy")
  assertCandidates input.coverageCandidates dates
  let manualAdjustment ← validateManualAdjustment input.policy input.manualAdjustmentMinor
  require (input.policy.calculationKind = .free → input.memberCoverage = false ∧ input.coverageCandidates = [])
    (coverageConflict "Free stays must not hold or consume member entitlement")
  let rate ← expect (invalidInput "Policy nightly rate must be a non-negative integer") input.policy.nightlyRateMinor
  require (0 ≤ rate) (invalidInput "Policy nightly rate must be a non-negative integer")
  require (input.policy.calculationKind = .free → rate = 0)
    (invalidInput "A free policy must have a zero nightly rate")
  let timeline := unitTimeline unit dates
  let coverageSet ← coverTimeline input.coverageCandidates timeline
  let cashLines := (timeline.filter (uncovered input.coverageCandidates)).map fun item =>
    nightlyCashLine input.policy unit.inventoryUnitId rate item.serviceDate
  let target ← applyManualAdjustment (lineTotalMinor cashLines) manualAdjustment false
  return ⟨coverageSet, cashLines, ⟨input.policy.currency, lineTotalMinor cashLines⟩, ⟨input.policy.currency, target⟩⟩

def calculatePricing (input : PricingInput) (unit : PricedUnit) : Except DomainError PricingResult := do
  require (approvedPolicyShape input.stayType input.policy = true)
    (unconfigured (input.stayType.text ++ " pricing requires an approved finite policy"))
  if input.policy.calculationKind = .durationBandTotal then do
    let dates ← enumerateServiceDates input.arrivalDate input.departureDate
    calculateDurationTimelinePricing input (unitTimeline unit dates)
  else nightlyPricing input unit

end GreenPms
