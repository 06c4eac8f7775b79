import GreenPms.Stay.Shorten

/-! # MOVE_UNIT, REPRICE_ORDER and REFRESH_MEMBER_COVERAGE

A move takes the nights from a date on to another unit. The preview of a move says how many entries
the entitlement ledger gets, and its application compares the two.
-/

namespace GreenPms

open Checked

structure MoveRequest where
  newInventoryUnitId : Nat
  effectiveDate : Nat
  pricing : PricingRequest

structure MoveEntitlementSummary where
  preservedCoverageDates : List Nat
  migratedHeldCoverageDates : List Nat
  consumedCoverageDates : List Nat
  convertedMembershipCoveragePreserved : Bool
  ledgerWriteCount : Nat
  deriving DecidableEq, Repr

structure MoveEffect where
  toUnit : InventoryUnit
  effectiveDate : Nat
  before : StayInterval
  after : StayInterval
  decided : DecidedPricing
  preservedClaims : List StayTimelineItem
  releasedClaims : List StayTimelineItem
  addedClaims : List StayTimelineItem
  entitlementSummary : MoveEntitlementSummary

def movedTimeline (timeline : List StayTimelineItem) (newUnitId effectiveDate : Nat) : List StayTimelineItem :=
  timeline.map fun item => if item.serviceDate < effectiveDate then item else { item with inventoryUnitId := newUnitId }

/-- The nights of two arrangements of the same dates, side by side. -/
def sideBySide (p : StayTimelineItem → StayTimelineItem → Bool) (own other : List StayTimelineItem) :
    List StayTimelineItem :=
  ((own.zip other).filter fun pair => p pair.1 pair.2).map Prod.fst

def sameUnit (a b : StayTimelineItem) : Bool := a.inventoryUnitId = b.inventoryUnitId

def CoverageItem.sameNight (c : CoverageItem) (night : CoveredNight) : Bool :=
  c.inventoryUnitId = night.inventoryUnitId && c.unitKind = night.unitKind && c.lotId = night.entitlementLotId

def desiredOn (coverageSet : List CoveredNight) (serviceDate : Nat) : Option CoveredNight :=
  coverageSet.find? fun night => night.serviceDate = serviceDate

def moveSummary (rows : List CoverageItem) (coverageSet : List CoveredNight) (converted : Bool) :
    MoveEntitlementSummary :=
  let held := rows.filter fun c => c.status ≠ .consumed
  let migrated := held.filter fun c => (desiredOn coverageSet c.serviceDate).any fun night => !c.sameNight night
  { preservedCoverageDates :=
      (held.filter fun c => (desiredOn coverageSet c.serviceDate).any c.sameNight).map CoverageItem.serviceDate
    migratedHeldCoverageDates := migrated.map CoverageItem.serviceDate
    consumedCoverageDates := (rows.filter fun c => c.status = .consumed).map CoverageItem.serviceDate
    convertedMembershipCoveragePreserved := converted
    ledgerWriteCount := if converted = true then 0 else migrated.length * 2 }

/-- The price of a converted order covers each night as it is consumed. -/
def pricedAsConsumed (rows : List CoverageItem) (coverageSet : List CoveredNight) : Bool :=
  coverageSet.length = rows.length && rows.all fun c => (desiredOn coverageSet c.serviceDate).any c.sameNight

def convertedMoveConflict : Thrown := entitlementConflict "升级会员后的已核销权益与换房计划不一致，不能安全换房"

/-- What a command finds of the inventory: the claims of the order by night, and the nights that the
unit of a move is taken on. -/
structure ClaimView where
  timeline : List StayTimelineItem
  blocked : Nat → List Nat → Bool

namespace Hotel

variable (cat : UnitCatalog) (hotel : Hotel)

def assertMoveDates (order : StayOrder) (effectiveDate : Nat) : Except Thrown Unit := do
  require (order.isMutable = true) (invalidState "只有已预订或在住订单可以换房")
  require (order.status = .reserved → hotel.today ≤ order.stay.arrivalDate)
    (invalidState "逾期未到订单暂不能换房，请先处理到店日期")
  require (order.status = .checkedIn → hotel.today < order.stay.departureDate)
    (invalidState "已到或超过计划退房日，请先办理续住或退房")
  require (order.stay.arrivalDate ≤ effectiveDate ∧ effectiveDate < order.stay.departureDate)
    (invalid "effectiveDate must be within the stay")
  require (order.status = .checkedIn → hotel.today ≤ effectiveDate) (invalid "换房生效日期不能早于当前营业日期")

def assertMoveCoverage (order : StayOrder) (rows : List CoverageItem) (newUnit : InventoryUnit) :
    Except Thrown Unit := do
  require (order.status = .reserved → ∀ c ∈ rows, c.status ≠ .consumed)
    (entitlementConflict "未入住订单存在已核销会员权益，当前数据状态异常，不能换房")
  require (order.status = .checkedIn → ∀ c ∈ rows, c.status ≠ .held)
    (entitlementConflict "在住订单仍有未核销的原住宿权益，当前数据状态异常，不能换房")
  require (∀ conversion ∈ order.conversion, order.status = .checkedIn ∧
      newUnit.kind = conversion.allowedInventoryKind ∧
      newUnit.details.roomTypeCode = some conversion.allowedRoomTypeCode)
    (entitlementConflict "升级会员后的住宿只能更换到会员产品适用的房型")

def assertMemberMove (order : StayOrder) (current : List TimelineUnit) (newUnit : InventoryUnit) :
    Except Thrown Unit :=
  require (order.memberStay = true → ∀ item ∈ current, item.unit.kind = newUnit.kind ∧
      item.unit.details.roomTypeCode = newUnit.details.roomTypeCode)
    (entitlementConflict "会员住宿只能更换到同一会员产品适用的房型")

def stayPricing (orderId : Nat) (order : StayOrder) (stay : StayInterval) : Except Thrown PricingResult :=
  hotel.priceStayTimeline cat {
    orderId := orderId
    identity := order.identity
    stay := stay
    policyVersionId := order.pricingPolicyVersionId
    coverageAllocationDates := none
    reallocatableHeld := []
    preservedCoverageOnly := false }

def buildMove (view : ClaimView) (orderId : Nat) (order : StayOrder) (request : MoveRequest) :
    Except Thrown MoveEffect := do
  assertCommandOpen order .moveUnit
  hotel.assertMoveDates order request.effectiveDate
  let newUnit ← hotel.loadInventoryUnit cat request.newInventoryUnitId
  let before : StayInterval := { order.stay with stayTimeline := view.timeline }
  let after : StayInterval :=
    { before with stayTimeline := movedTimeline view.timeline newUnit.id request.effectiveDate }
  require (after.stayTimeline ≠ before.stayTimeline) (invalid "换房后的住宿安排必须发生变化")
  require (1 ≤ order.occupantCount) (internalFailure "Order has no valid frozen occupant list")
  require (order.occupantCount ≤ newUnit.details.occupancyCapacity)
    (invalid "当前订单的住宿人数超过房源可登记人数")
  let current ← hotel.loadTimeline cat view.timeline
  assertMemberMove order current newUnit
  let rows := hotel.entitlement.activeCoverage orderId
  assertMoveCoverage order rows newUnit
  require (view.blocked newUnit.id (serviceDates request.effectiveDate order.stay.departureDate) = false)
    (.domain (domainError .inventoryConflict "目标房源在所选换房日期内已有占用，请选择其他房源。"))
  let policyPricing ← hotel.stayPricing cat orderId order after
  let decided ← decideStayChange .moveUnit order policyPricing request.pricing
  let dates := before.stayTimeline.map StayTimelineItem.serviceDate
  require (∀ conversion ∈ order.conversion, exactConvertedCoverageGraph rows dates conversion = true ∧
      pricedAsConsumed rows policyPricing.coverageSet = true ∧ policyPricing.cashRemainder.minorUnits = 0 ∧
      policyPricing.currentContractAmount.minorUnits = 0) convertedMoveConflict
  require (order.status = .checkedIn → hotel.today ∈ dates) (internalFailure "在住订单的当前营业日不在有效住宿安排内")
  return {
    toUnit := newUnit
    effectiveDate := request.effectiveDate
    before := before
    after := after
    decided := decided
    preservedClaims := sideBySide sameUnit before.stayTimeline after.stayTimeline
    releasedClaims := sideBySide (fun a b => !sameUnit a b) before.stayTimeline after.stayTimeline
    addedClaims := sideBySide (fun a b => !sameUnit a b) after.stayTimeline before.stayTimeline
    entitlementSummary := moveSummary rows decided.pricing.coverageSet order.conversion.isSome }

def invalidMoveTimeline : Thrown := internalFailure "Move unit effect has an invalid resulting timeline"

def assertMoveTimeline (order : StayOrder) (effect : MoveEffect) : Except Thrown Unit := do
  let tail ← expect invalidMoveTimeline (trailingTimelineRun effect.after.stayTimeline)
  require (effect.after.arrivalDate = order.stay.arrivalDate ∧ effect.after.departureDate = order.stay.departureDate ∧
    tail.arrivalDate ≤ effect.effectiveDate ∧ tail.inventoryUnitId = effect.toUnit.id) invalidMoveTimeline

def matchesClaimSet (actual expected : List StayTimelineItem) : Bool :=
  decide actual.Nodup && decide expected.Nodup && decide (actual.Perm expected)

def assertMoveClaims (effect : MoveEffect) : Except Thrown Unit :=
  let diff := timelinePairDiff effect.before.stayTimeline effect.after.stayTimeline
  require (matchesClaimSet effect.preservedClaims diff.preserved = true ∧
      matchesClaimSet effect.releasedClaims diff.released = true ∧
      matchesClaimSet effect.addedClaims diff.added = true ∧
      ∀ claim ∈ effect.addedClaims, claim.inventoryUnitId = effect.toUnit.id)
    (internalFailure "Move unit effect inventory diff does not match its stay timeline")

/-- The coverage of a converted order is checked once more and stays as it is. -/
def moveCoverage (orderId commandId : Nat) (order : StayOrder) (effect : MoveEffect) :
    Except Thrown EntitlementTables :=
  let rows := hotel.entitlement.activeCoverage orderId
  let pricing := effect.decided.snapshot order.identity
  match order.conversion with
  | some conversion => do
      require (order.status = .checkedIn ∧ effect.toUnit.kind = conversion.allowedInventoryKind ∧
        effect.toUnit.details.roomTypeCode = some conversion.allowedRoomTypeCode ∧
        exactConvertedCoverageGraph rows (serviceDates effect.after.arrivalDate effect.after.departureDate)
          conversion = true ∧
        pricedAsConsumed rows pricing.coverageSet = true ∧ pricing.cashLines = [] ∧
        pricing.currentContractAmountMinor = 0 ∧ pricing.manualAdjustmentMinor = 0) convertedMoveConflict
      return hotel.entitlement
  | none => hotel.reconcileForOrder orderId commandId order pricing.coverageSet

def applyMove (orderId commandId : Nat) (order : StayOrder) (effect : MoveEffect) : Except Thrown Hotel := do
  assertMoveTimeline order effect
  assertMoveClaims effect
  let amended := order.amend .moveUnit commandId none none
  let revised ← amended.insertRevision effect.after (effect.decided.snapshot order.identity)
  require (effect.entitlementSummary.convertedMembershipCoveragePreserved = order.conversion.isSome)
    (internalFailure "Move unit converted coverage marker is inconsistent")
  let entitlement ← hotel.moveCoverage orderId commandId order effect
  require (entitlement.ledger.length = hotel.entitlement.ledger.length + effect.entitlementSummary.ledgerWriteCount)
    (internalFailure "Move unit entitlement summary does not match persisted ledger writes")
  return { hotel with entitlement := entitlement }.setOrder orderId { revised with stay := effect.after }

def moveUnit (blocked : Nat → List Nat → Bool) (orderId commandId : Nat) (request : MoveRequest) :
    Except Thrown Hotel := do
  let order ← hotel.loadOrder orderId
  let effect ← hotel.buildMove cat ⟨order.stay.stayTimeline, blocked⟩ orderId order request
  hotel.applyMove orderId commandId order effect

/-! ## REPRICE_ORDER and REFRESH_MEMBER_COVERAGE -/

def assertNotConverted (order : StayOrder) : Except Thrown Unit :=
  require (order.conversion = none) (invalidState "已升级会员的住宿订单不能使用普通住宿操作")

def repriceTarget (order : StayOrder) (target : Int) : Except Thrown Int :=
  (validateOrderTargetAmount (if order.memberStay = true then none else order.identity.bookingChannelCode) target).mapError
    .domain

def buildReprice (orderId : Nat) (order : StayOrder) (target : Int) : Except Thrown PricingResult := do
  assertCommandOpen order .repriceOrder
  assertNotConverted order
  require (canRepriceOrder order.status order.identity.bookingChannelCode = true)
    (invalidState "Order cannot be repriced from its status")
  let amount ← repriceTarget order target
  require (order.identity.stayType = .free → amount = 0) (invalid "Free stays must keep a zero current contract amount")
  let policyPricing ← hotel.stayPricing cat orderId order order.stay
  return { policyPricing with currentContractAmount := ⟨policyPricing.currentContractAmount.currency, amount⟩ }

def buildRefresh (orderId : Nat) (order : StayOrder) : Except Thrown PricingResult := do
  assertCommandOpen order .refreshMemberCoverage
  assertNotConverted order
  require (order.isMutable = true) (invalidState "Order cannot be changed from its status")
  require (order.memberStay = true) (entitlementConflict "订单未选择会员档案，不能刷新会员覆盖")
  hotel.stayPricing cat orderId order order.stay

/-- Newly covered nights of an order in house are consumed at once. -/
def consumeInHouse (entitlement : EntitlementTables) (orderId commandId : Nat) (order : StayOrder) :
    Except Thrown EntitlementTables :=
  if order.memberStay = true ∧ order.status = .checkedIn then
    entitlement.consumeCoverage orderId commandId none "CHECK_IN_ENTITLEMENT_CONSUMED"
  else .ok entitlement

def applyPricing (command : CommandType) (orderId commandId : Nat) (order : StayOrder) (pricing : PricingResult) :
    Except Thrown Hotel := do
  let amended := order.amend command commandId none none
  let revised ← amended.insertRevision order.stay (pricingSnapshot order.identity pricing none)
  let reconciled ← hotel.reconcileForOrder orderId commandId order pricing.coverageSet
  let entitlement ← consumeInHouse reconciled orderId commandId order
  return { hotel with entitlement := entitlement }.setOrder orderId revised

def repriceOrder (orderId commandId : Nat) (target : Int) : Except Thrown Hotel := do
  let order ← hotel.loadOrder orderId
  let pricing ← hotel.buildReprice cat orderId order target
  hotel.applyPricing .repriceOrder orderId commandId order pricing

def refreshMemberCoverage (orderId commandId : Nat) : Except Thrown Hotel := do
  let order ← hotel.loadOrder orderId
  let pricing ← hotel.buildRefresh cat orderId order
  hotel.applyPricing .refreshMemberCoverage orderId commandId order pricing

end Hotel

end GreenPms
