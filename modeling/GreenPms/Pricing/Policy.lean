import GreenPms.Entitlement.Tables

/-! # Pricing policies and cash lines

A policy prices a stay by the night, by the band of its length, or not at all. A price consists of
the nights that member rights cover and of the cash lines for the other nights.
-/

namespace GreenPms

open Checked

inductive StayType where
  | transient | weekly | monthly | custom | fixedTerm | rolling | free
  deriving DecidableEq, Repr

def StayType.text : StayType → String
  | .transient => "TRANSIENT"
  | .weekly => "WEEKLY"
  | .monthly => "MONTHLY"
  | .custom => "CUSTOM"
  | .fixedTerm => "FIXED_TERM"
  | .rolling => "ROLLING"
  | .free => "FREE"

inductive CalculationKind where
  | flatNightly | durationBandTotal | free
  deriving DecidableEq, Repr

inductive DurationBandAnchorNights where
  | one | seven | fourteen | thirty
  deriving DecidableEq, Repr

def DurationBandAnchorNights.nights : DurationBandAnchorNights → Nat
  | .one => 1
  | .seven => 7
  | .fourteen => 14
  | .thirty => 30

def anchorBands : List DurationBandAnchorNights := [.one, .seven, .fourteen, .thirty]

def maxSafeInteger : Nat := 9007199254740991
def postgresIntegerMaximum : Int := 2147483647
def postgresIntegerMinimum : Int := -2147483648

/-- A published rate is at most 20,000,000 for one bed, and a product has at most 100 beds. -/
def maxAnchorMinor : Nat := 20000000 * 100

structure DurationBandAnchors where
  minor : DurationBandAnchorNights → Nat

def currencyCode (text : String) : Bool := text.length = 3 && text.toList.all Char.isUpper

structure CurrencyCode where
  text : String
  valid : currencyCode text = true
  deriving DecidableEq, Repr

theorem currencyCode_cny : currencyCode "CNY" = true := by decide

structure Money where
  currency : CurrencyCode
  minorUnits : Int
  deriving DecidableEq, Repr

structure PricingPolicy where
  id : Nat
  stayType : Option StayType
  calculationKind : CalculationKind
  nightlyRateMinor : Option Int
  productAnchorRatesMinor : Nat → Option DurationBandAnchors
  effectiveFrom : Option Nat
  effectiveUntil : Option Nat
  roundsFinalTotal : Bool
  currency : CurrencyCode

def PricingPolicy.Published (policy : PricingPolicy) : Prop :=
  ∀ productCode, ∀ anchors ∈ policy.productAnchorRatesMinor productCode, ∀ band, anchors.minor band ≤ maxAnchorMinor

/-- What an order has of an entitlement for a night, or, without a status, what it may take. -/
structure CoverageCandidate where
  serviceDate : Nat
  entitlementLotId : Nat
  status : Option CoverageStatus
  inventoryUnitId : Option Nat
  unitKind : Option EntitlementUnitKind
  deriving DecidableEq, Repr

structure CalculationSegment where
  inventoryUnitId : Nat
  pricingProductCode : Nat
  arrivalDate : Nat
  departureDate : Nat
  nights : Nat
  anchorAmountMinor : Nat
  numeratorMinor : Nat
  denominator : DurationBandAnchorNights
  deriving DecidableEq, Repr

inductive CashLine where
  | night (serviceDate inventoryUnitId : Nat) (description : String) (amount : Money)
  | stayTotal (arrivalDate departureDate inventoryUnitId : Nat) (description : String)
      (pricingBandAnchorNights : DurationBandAnchorNights) (calculationSegments : List CalculationSegment)
      (amount : Money)
  deriving DecidableEq, Repr

def CashLine.amount : CashLine → Money
  | .night _ _ _ amount | .stayTotal _ _ _ _ _ _ amount => amount

structure PricingResult where
  coverageSet : List CoveredNight
  cashLines : List CashLine
  cashRemainder : Money
  currentContractAmount : Money
  deriving DecidableEq, Repr

def unconfigured (message : String) : DomainError := domainError .pricingPolicyUnconfigured message
def invalidInput (message : String) : DomainError := domainError .validationError message
def coverageConflict (message : String) : DomainError := domainError .entitlementConflict message

/-- The band of a stay of at least one night. -/
def durationBandAnchorNights (nights : Nat) : DurationBandAnchorNights :=
  if nights < 7 then .one
  else if nights < 14 then .seven
  else if nights < 30 then .fourteen
  else .thirty

def roundPositiveRationalHalfUp (numerator denominator : Nat) : Nat :=
  (numerator * 2 + denominator) / (denominator * 2)

def missingAnchors (productCode : Option Nat) : DomainError :=
  unconfigured ("Duration-band policy anchors are incomplete for " ++
    (productCode.map toString).getD "an unmapped inventory product")

def missingRounding : DomainError := unconfigured "Duration-band final-total rounding is not configured"

def requireDurationAnchors (policy : PricingPolicy) (productCode : Option Nat) :
    Except DomainError DurationBandAnchors := do
  let anchors ← expect (missingAnchors productCode) (productCode.bind policy.productAnchorRatesMinor)
  require (∀ band ∈ anchorBands, 0 < anchors.minor band ∧ anchors.minor band ≤ maxSafeInteger)
    (missingAnchors productCode)
  require (policy.roundsFinalTotal = true) missingRounding
  return anchors

def validateManualAdjustment (policy : PricingPolicy) (manualAdjustment : Int) : Except DomainError Int := do
  require (policy.calculationKind = .free → manualAdjustment = 0)
    (invalidInput "Free stays cannot have a manual price adjustment")
  return manualAdjustment

def applyManualAdjustment (policyBaseMinor manualAdjustmentMinor : Int) (requireWholeYuan : Bool) :
    Except DomainError Int := do
  let targetMinor := policyBaseMinor + manualAdjustmentMinor
  require (0 ≤ targetMinor ∧ targetMinor ≤ maxSafeInteger)
    (invalidInput "The final current contract amount must be a non-negative safe integer")
  require (requireWholeYuan = true → targetMinor % 100 = 0)
    (invalidInput "The final current contract amount must be a whole-yuan CNY amount")
  return targetMinor

/-- The nights with their candidates: a night that was consumed keeps its unit. -/
def coveredNight (serviceDate unitId : Nat) (unitKind : EntitlementUnitKind) (candidate : CoverageCandidate) :
    Except DomainError CoveredNight := do
  let consumed := candidate.status = some .consumed
  require (consumed → ∀ kind ∈ candidate.unitKind, kind = unitKind)
    (coverageConflict "Consumed coverage cannot move across entitlement unit kinds")
  return {
    serviceDate := serviceDate
    inventoryUnitId := if consumed then candidate.inventoryUnitId.getD unitId else unitId
    unitKind := if consumed then candidate.unitKind.getD unitKind else unitKind
    entitlementLotId := candidate.entitlementLotId }

def candidateOn (candidates : List CoverageCandidate) (serviceDate : Nat) : Option CoverageCandidate :=
  candidates.find? fun candidate => candidate.serviceDate = serviceDate

def assertCandidates (candidates : List CoverageCandidate) (dates : List Nat) : Except DomainError Unit :=
  require ((candidates.map CoverageCandidate.serviceDate).Nodup ∧
      ∀ candidate ∈ candidates, candidate.serviceDate ∈ dates)
    (coverageConflict "Coverage dates must be unique and inside the stay")

theorem mem_anchorBands (band : DurationBandAnchorNights) : band ∈ anchorBands := by
  cases band <;> decide

theorem requireDurationAnchors_eq_ok {policy : PricingPolicy} {productCode : Option Nat} {anchors : DurationBandAnchors} :
    requireDurationAnchors policy productCode = .ok anchors ↔
      productCode.bind policy.productAnchorRatesMinor = some anchors ∧
        (∀ band, 0 < anchors.minor band ∧ anchors.minor band ≤ maxSafeInteger) ∧ policy.roundsFinalTotal = true := by
  simp only [requireDurationAnchors, bind_eq_ok, expect_eq_ok, require_eq_ok, pure_eq_ok]
  constructor
  · rintro ⟨_, hAnchors, _, hBounds, _, hRounds, rfl⟩
    exact ⟨hAnchors, fun band => hBounds band (mem_anchorBands band), hRounds⟩
  · rintro ⟨hAnchors, hBounds, hRounds⟩
    exact ⟨anchors, hAnchors, (), fun band _ => hBounds band, (), hRounds, rfl⟩

theorem anchor_pos {policy : PricingPolicy} {productCode : Option Nat} {anchors : DurationBandAnchors}
    (h : requireDurationAnchors policy productCode = .ok anchors) (band : DurationBandAnchorNights) :
    0 < anchors.minor band :=
  ((requireDurationAnchors_eq_ok.mp h).2.1 band).1

theorem band_pos (band : DurationBandAnchorNights) : 0 < band.nights := by
  cases band <;> decide

@[simp] theorem applyManualAdjustment_eq_ok {base adjustment target : Int} {wholeYuan : Bool} :
    applyManualAdjustment base adjustment wholeYuan = .ok target ↔
      target = base + adjustment ∧ 0 ≤ target ∧ target ≤ maxSafeInteger ∧ (wholeYuan = true → target % 100 = 0) := by
  simp only [applyManualAdjustment, bind_eq_ok, require_eq_ok, pure_eq_ok]
  constructor
  · rintro ⟨_, hBound, _, hYuan, rfl⟩
    exact ⟨rfl, hBound.1, hBound.2, hYuan⟩
  · rintro ⟨rfl, hLow, hHigh, hYuan⟩
    exact ⟨(), ⟨hLow, hHigh⟩, (), hYuan, rfl⟩

@[simp] theorem validateManualAdjustment_eq_ok {policy : PricingPolicy} {adjustment value : Int} :
    validateManualAdjustment policy adjustment = .ok value ↔
      (policy.calculationKind = .free → adjustment = 0) ∧ value = adjustment := by
  simp only [validateManualAdjustment, bind_eq_ok, require_eq_ok, pure_eq_ok]
  constructor
  · rintro ⟨_, hFree, rfl⟩
    exact ⟨hFree, rfl⟩
  · rintro ⟨hFree, rfl⟩
    exact ⟨(), hFree, rfl⟩

end GreenPms
