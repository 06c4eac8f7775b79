import GreenPms.Stay.Create

/-! # RESCHEDULE_STAY and EXTEND_STAY

A change of the dates of a stay plans the new arrangement, prices it with the coverage that is kept
or drawn, and brings the coverage of the order in line with the price.
-/

namespace GreenPms

open Checked

def temporaryOtherRoomLifecycleClosed : Thrown :=
  invalid "临时安排的订单如需增加日期或再次换房，请重新建立符合现场安排的订单"

def temporaryOtherRoomBlockedOrderCommands : List CommandType :=
  [.convertStayCollectionsToMembership, .extendStay, .moveUnit, .repriceOrder, .refreshMemberCoverage,
    .recordCollection, .recordRefund, .reverseFact, .retainOrderFunds, .applyRetainedFunds, .releaseRetainedFunds,
    .refundRetainedFunds]

/-- Commands that an upgrade across rooms or a temporary arrangement has closed. -/
def assertCommandOpen (order : StayOrder) (command : CommandType) : Except Thrown Unit := do
  require (order.conversion.any MembershipConversion.crossRoomUpgrade = true → command ∉ [.extendStay, .moveUnit])
    (invalid "本次跨房型升级仅适用于已确认的房间与日期；续住或换房请另建符合安排的订单")
  require (order.temporaryOtherRoom.isSome = true → command ∉ temporaryOtherRoomBlockedOrderCommands)
    temporaryOtherRoomLifecycleClosed

def assertNoTemporaryOtherRoomStayPricingInputs (request : PricingRequest) : Except Thrown Unit :=
  require (request = ⟨none, none, none⟩) temporaryOtherRoomLifecycleClosed

/-- The coverage of a converted order: its nights, all consumed from the lot of the conversion. -/
def exactConvertedCoverageGraph (rows : List CoverageItem) (expectedDates : List Nat)
    (conversion : MembershipConversion) : Bool :=
  rows.map CoverageItem.serviceDate = expectedDates && rows.all fun c =>
    c.status = .consumed && c.contractId = conversion.contractId && c.lotId = conversion.entitlementLotId &&
      c.unitKind = conversion.entitlementUnitKind

/-- Held nights that the new arrangement leaves or has in another unit. -/
def reallocatable (rows : List CoverageItem) (after : List StayTimelineItem) : List CoverageCandidate :=
  (rows.filter fun c => c.status = .held && !after.contains ⟨c.serviceDate, c.inventoryUnitId⟩).map
    CoverageItem.candidate

/-- The covered nights that the order has no coverage for in their unit. -/
def addedCoverageDates (rows : List CoverageItem) (coverageSet : List CoveredNight) : List Nat :=
  (coverageSet.filter fun night => !rows.any fun c =>
    c.serviceDate = night.serviceDate && c.inventoryUnitId = night.inventoryUnitId).map CoveredNight.serviceDate

def CoverageItem.night (c : CoverageItem) : CoveredNight :=
  ⟨c.serviceDate, c.inventoryUnitId, c.unitKind, c.lotId⟩

def temporaryOtherRoomSubsetPricing (arrangement : TemporaryOtherRoomArrangement) (rows : List CoverageItem)
    (currentTimeline : List StayTimelineItem) (newDates : List Nat) (currency : CurrencyCode) :
    Except Thrown PricingResult := do
  require (rows.length = currentTimeline.length ∧ ∀ item ∈ currentTimeline, ∃ c ∈ rows,
      c.serviceDate = item.serviceDate ∧ c.status = .held ∧ c.contractId = arrangement.memberContractId ∧
        c.lotId = arrangement.entitlementLotId ∧ c.unitKind = .roomNight ∧
        c.inventoryUnitId = item.inventoryUnitId ∧ c.inventoryUnitId = arrangement.actualInventoryUnitId)
    (entitlementConflict "临时安排会员权益冻结与原创建证据不一致，不能调整日期")
  return ⟨(rows.filter fun c => newDates.contains c.serviceDate).map CoverageItem.night, [], ⟨currency, 0⟩,
    ⟨currency, 0⟩⟩

def assertTemporaryOtherRoomReservedSubset (oldDates newDates : List Nat) (diff : StayTimelinePairDiff) :
    Except Thrown Unit :=
  require (newDates ≠ [] ∧ newDates.length < oldDates.length ∧
      oldDates.filter (fun date => newDates.contains date) = newDates ∧ diff.added = [] ∧
      diff.released.length = oldDates.length - newDates.length)
    temporaryOtherRoomLifecycleClosed

def decideStayChange (command : CommandType) (order : StayOrder) (policyPricing : PricingResult)
    (request : PricingRequest) : Except Thrown DecidedPricing := do
  let decision ← (stayChangePricingDecision command order.identity policyPricing.currentContractAmount.minorUnits
    request).mapError .domain
  return .of policyPricing decision

structure DateChangeRequest where
  newArrivalDate : Nat
  newDepartureDate : Nat
  pricing : PricingRequest

structure DateChangeEffect where
  after : StayInterval
  decided : DecidedPricing
  consumedCoverageDates : List Nat

namespace Hotel

variable (cat : UnitCatalog) (hotel : Hotel)

def assertReschedule (order : StayOrder) (request : DateChangeRequest) : Except Thrown Unit := do
  require (order.status = .reserved) (invalidState "只有未入住订单可以调整住宿日期")
  require (hotel.today ≤ request.newArrivalDate) (invalid "新的入住日期不能早于当前营业日期")
  require (request.newArrivalDate ≠ order.stay.arrivalDate ∨ request.newDepartureDate ≠ order.stay.departureDate)
    (invalid "调整后的入住和退房日期必须发生变化")
  if order.temporaryOtherRoom.isSome = true then assertNoTemporaryOtherRoomStayPricingInputs request.pricing
  else return ()

def assertExtend (order : StayOrder) (request : DateChangeRequest) : Except Thrown Unit := do
  require (order.status = .checkedIn) (invalidState "只有在住订单可以延长住宿")
  require (request.newArrivalDate = order.stay.arrivalDate) .failure
  require (order.stay.departureDate < request.newDepartureDate) (invalid "新的退房日期必须晚于原计划退房日期")
  require (order.stay.departureDate < hotel.today → hotel.today < request.newDepartureDate)
    (invalid "逾期续住后的退房日期必须晚于当前营业日期")

def assertDateRequest (reschedule : Bool) (order : StayOrder) (request : DateChangeRequest) : Except Thrown Unit :=
  if reschedule = true then hotel.assertReschedule order request else hotel.assertExtend order request

def assertTemporarySubset (reschedule : Bool) (order : StayOrder) (newDates : List Nat)
    (diff : StayTimelinePairDiff) : Except Thrown Unit :=
  if reschedule = true ∧ order.temporaryOtherRoom.isSome = true then
    assertTemporaryOtherRoomReservedSubset order.dates newDates diff
  else .ok ()

/-- A stay ahead has held coverage only, and one in house has consumed coverage only. -/
def assertDateChangeCoverage (reschedule : Bool) (order : StayOrder) (rows : List CoverageItem) :
    Except Thrown Unit := do
  require (reschedule = true → ∀ c ∈ rows, c.status ≠ .consumed)
    (entitlementConflict "未入住订单存在已核销会员权益，当前数据状态异常，不能调整住宿日期")
  require (reschedule = false → ∀ c ∈ rows, c.status ≠ .held)
    (entitlementConflict "在住订单仍有未核销的原住宿权益，当前数据状态异常，不能延长住宿")
  require (reschedule = false → ∀ conversion ∈ order.conversion,
      exactConvertedCoverageGraph rows order.dates conversion = true)
    (entitlementConflict "升级会员后的已核销权益与当前住宿日期不一致，不能延长住宿")

def dateChangePricing (reschedule : Bool) (orderId : Nat) (order : StayOrder) (after : StayInterval) :
    Except Thrown PricingResult :=
  let rows := hotel.entitlement.activeCoverage orderId
  let newDates := serviceDates after.arrivalDate after.departureDate
  match order.temporaryOtherRoom with
  | some arrangement => do
      let revision ← expect .failure order.currentRevision
      temporaryOtherRoomSubsetPricing arrangement rows order.stay.stayTimeline newDates revision.pricing.currency
  | none => hotel.priceStayTimeline cat {
      orderId := orderId
      identity := order.identity
      stay := after
      policyVersionId := order.pricingPolicyVersionId
      coverageAllocationDates := some (if reschedule = true then newDates else
        (timelinePairDiff order.stay.stayTimeline after.stayTimeline).added.map StayTimelineItem.serviceDate)
      reallocatableHeld := if reschedule = true then reallocatable rows after.stayTimeline else []
      preservedCoverageOnly := false }

def coversConverted (conversion : MembershipConversion) (newDates : List Nat) (pricing : PricingResult) : Bool :=
  pricing.coverageSet.length = newDates.length && (newDates.all fun date => pricing.coverageSet.any fun night =>
    night.serviceDate = date && night.entitlementLotId = conversion.entitlementLotId &&
      night.unitKind = conversion.entitlementUnitKind) &&
    pricing.cashRemainder.minorUnits = 0 && pricing.currentContractAmount.minorUnits = 0

def assertConvertedExtension (conversion : Option MembershipConversion) (newDates : List Nat)
    (pricing : PricingResult) : Except Thrown Unit :=
  require (∀ converted ∈ conversion, coversConverted converted newDates pricing = true)
    (entitlementConflict "会员权益余额不足，不能延长住宿；请先补充会员权益或另建普通住宿订单")

def dateChangeCommand (reschedule : Bool) : CommandType := if reschedule = true then .rescheduleStay else .extendStay

def buildDateChange (reschedule : Bool) (orderId : Nat) (order : StayOrder) (request : DateChangeRequest) :
    Except Thrown DateChangeEffect := do
  assertCommandOpen order (dateChangeCommand reschedule)
  hotel.assertDateRequest reschedule order request
  let newDates ← (enumerateServiceDates request.newArrivalDate request.newDepartureDate).mapError .domain
  let before := order.stay
  let stayTimeline ← (planStayDateChangeTimeline before.stayTimeline before.arrivalDate before.departureDate
    request.newArrivalDate request.newDepartureDate).mapError .domain
  let after : StayInterval := ⟨request.newArrivalDate, request.newDepartureDate, stayTimeline⟩
  assertTemporarySubset reschedule order newDates (timelinePairDiff before.stayTimeline stayTimeline)
  let rows := hotel.entitlement.activeCoverage orderId
  assertDateChangeCoverage reschedule order rows
  let policyPricing ← hotel.dateChangePricing cat reschedule orderId order after
  assertConvertedExtension (if reschedule = true then none else order.conversion) newDates policyPricing
  let decided ← decideStayChange (dateChangeCommand reschedule) order policyPricing request.pricing
  return ⟨after, decided, if reschedule = true then [] else addedCoverageDates rows decided.pricing.coverageSet⟩

def reconcileForOrder (orderId commandId : Nat) (order : StayOrder) (coverageSet : List CoveredNight) :
    Except Thrown EntitlementTables :=
  if order.memberStay = true then
    hotel.entitlement.reconcileCoverage (order.owner orderId) coverageSet commandId
  else .ok hotel.entitlement

def consumeExtension (reschedule : Bool) (entitlement : EntitlementTables) (orderId commandId : Nat)
    (order : StayOrder) (consumedCoverageDates : List Nat) : Except Thrown EntitlementTables :=
  if reschedule = false ∧ order.memberStay = true then
    entitlement.consumeCoverage orderId commandId (some consumedCoverageDates) "EXTEND_STAY_ENTITLEMENT_CONSUMED"
  else .ok entitlement

def applyDateChange (reschedule : Bool) (orderId commandId : Nat) (order : StayOrder) (effect : DateChangeEffect) :
    Except Thrown Hotel := do
  let amended := order.amend (dateChangeCommand reschedule) commandId none none
  let revised ← amended.insertRevision effect.after (effect.decided.snapshot order.identity)
  let reconciled ← hotel.reconcileForOrder orderId commandId order effect.decided.pricing.coverageSet
  let entitlement ← consumeExtension reschedule reconciled orderId commandId order effect.consumedCoverageDates
  return { hotel with entitlement := entitlement }.setOrder orderId { revised with stay := effect.after }

def changeDates (reschedule : Bool) (orderId commandId : Nat) (request : DateChangeRequest) : Except Thrown Hotel := do
  let order ← hotel.loadOrder orderId
  let effect ← hotel.buildDateChange cat reschedule orderId order request
  hotel.applyDateChange reschedule orderId commandId order effect

end Hotel

end GreenPms
