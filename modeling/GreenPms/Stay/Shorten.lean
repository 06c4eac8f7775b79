import GreenPms.Stay.DateChange

/-! # SHORTEN_STAY

A stay in house is shortened to a later day or, as an early check-out, to today. Consumed nights stay
consumed, except the future nights of a converted order. The last shortening that still stands is
compared with the coverage of the order.
-/

namespace GreenPms

open Checked

def shorteningReversed (amendments : List StayAmendment) (shortening : StayAmendment) : Bool :=
  amendments.any fun checkout =>
    checkout.commandId = shortening.commandId && checkout.type = .checkOut &&
      checkout.sequence = shortening.sequence + 1 &&
      amendments.any fun reversal =>
        reversal.type = .revokeCheckOut && reversal.checkoutSequence = some checkout.sequence

def latestShortening (amendments : List StayAmendment) : Option StayAmendment :=
  amendments.findRev? fun a => a.type = .shortenStay && !shorteningReversed amendments a

def EntitlementSummary.coverageDates (summary : EntitlementSummary) : List Nat :=
  summary.currentConsumedCoverageDates ++ summary.retainedHistoricalConsumedCoverageDates

def summaryMatches (summary : EntitlementSummary) (activeDates : List Nat) : Bool :=
  decide summary.coverageDates.Nodup && decide (summary.coverageDates.length = activeDates.length) &&
    summary.coverageDates.all activeDates.contains

structure ShortenRequest where
  newDepartureDate : Nat
  pricing : PricingRequest

structure ShortenEffect where
  after : StayInterval
  earlyCheckOut : Bool
  decided : DecidedPricing
  shortening : Shortening

namespace Hotel

variable (cat : UnitCatalog) (hotel : Hotel)

def assertShorten (order : StayOrder) (request : ShortenRequest) : Except Thrown Unit := do
  require (order.status = .checkedIn) (invalidState (if order.status = .reserved then "未入住订单请使用调整住宿日期"
    else "只有在住订单可以缩短住宿"))
  require (order.stay.arrivalDate < hotel.today)
    (invalidState "入住当天暂不办理缩短或提前退房；未实际使用房间时请使用后续的撤销入住流程")
  require (hotel.today < order.stay.departureDate)
    (invalidState (if hotel.today = order.stay.departureDate then "已到计划退房日，请使用普通退房"
      else "已超过计划退房日，请使用迟录退房"))
  require (request.newDepartureDate < order.stay.departureDate) (invalid "新的退房日期必须早于原计划退房日期")
  require (hotel.today ≤ request.newDepartureDate) (invalid "新的退房日期不能早于当前营业日期")
  require (order.stay.arrivalDate < request.newDepartureDate) (invalid "退房日期必须晚于入住日期")
  if order.temporaryOtherRoom.isSome = true then assertNoTemporaryOtherRoomStayPricingInputs request.pricing
  else return ()

def kindOfUnit (unitId : Nat) : Except Thrown EntitlementUnitKind := do
  let unit ← hotel.loadInventoryUnit cat unitId
  return entitlementKindFor unit.kind

def coverageMismatch : Thrown := entitlementConflict "已核销会员权益与当前住宿安排不一致，不能缩短住宿"

/-- A consumed night is of the kind of its unit and of the unit of the arrangement; a night that the
arrangement does not have is one that the last shortening retained. -/
def assertConsumedNight (timeline : List StayTimelineItem) (historicalDates : List Nat) (c : CoverageItem) :
    Except Thrown Unit := do
  let kind ← hotel.kindOfUnit cat c.inventoryUnitId
  require (c.status = .consumed ∧ c.unitKind = kind) coverageMismatch
  match timeline.find? fun item => item.serviceDate = c.serviceDate with
  | some item => do
      let timelineKind ← hotel.kindOfUnit cat item.inventoryUnitId
      require (c.unitKind = timelineKind) coverageMismatch
  | none => require (c.serviceDate ∈ historicalDates) coverageMismatch

/-- The consistency of the coverage history, in the order of the checks. -/
def assertCoverageHistory (order : StayOrder) (rows : List CoverageItem) : Except Thrown Unit := do
  require (∀ c ∈ rows, c.status ≠ .held)
    (entitlementConflict "在住订单仍有未核销的原住宿权益，当前数据状态异常，不能缩短住宿")
  require (∀ conversion ∈ order.conversion, exactConvertedCoverageGraph rows order.dates conversion = true)
    (entitlementConflict "升级会员后的已核销权益与当前住宿日期不一致，不能缩短住宿")
  let previous := (latestShortening order.amendments).map fun a => a.shortening.map Shortening.entitlementSummary
  require (∀ summary ∈ previous, summary.any (summaryMatches · (rows.map CoverageItem.serviceDate)) = true)
    (entitlementConflict "历史缩短记录与已核销会员权益不一致，不能再次缩短住宿")
  let historicalDates :=
    (previous.join.map EntitlementSummary.retainedHistoricalConsumedCoverageDates).getD []
  checkAll (hotel.assertConsumedNight cat order.stay.stayTimeline historicalDates) rows

def assertTemporaryShortening (order : StayOrder) (newDates : List Nat) (pricing : PricingResult) :
    Except Thrown Unit :=
  require (order.temporaryOtherRoom.isSome = true → pricing.coverageSet.length = newDates.length ∧ pricing.zero = true)
    (entitlementConflict "临时安排缩短后必须保留原整房权益完整零元覆盖")

def shortenedCoverage (order : StayOrder) (rows : List CoverageItem) (newDates : List Nat) : EntitlementSummary :=
  let dates := rows.map CoverageItem.serviceDate
  let restored := if order.temporaryOtherRoom.isSome = true ∨ order.conversion = none then []
    else dates.filter fun date => !newDates.contains date && hotel.today ≤ date
  { currentConsumedCoverageDates := dates.filter newDates.contains
    retainedHistoricalConsumedCoverageDates :=
      dates.filter fun date => !newDates.contains date && !restored.contains date
    restoredFutureCoverageDates := restored }

def buildShorten (orderId : Nat) (order : StayOrder) (request : ShortenRequest) : Except Thrown ShortenEffect := do
  assertCommandOpen order .shortenStay
  hotel.assertShorten order request
  let newDates ← (enumerateServiceDates order.stay.arrivalDate request.newDepartureDate).mapError .domain
  let after : StayInterval := ⟨order.stay.arrivalDate, request.newDepartureDate,
    order.stay.stayTimeline.filter fun item => item.serviceDate < request.newDepartureDate⟩
  require (after.stayTimeline.map StayTimelineItem.serviceDate = newDates) (internalFailure "缩短后的住宿时间线不连续")
  let rows := hotel.entitlement.activeCoverage orderId
  hotel.assertCoverageHistory cat order rows
  let policyPricing ← hotel.priceStayTimeline cat {
    orderId := orderId
    identity := order.identity
    stay := after
    policyVersionId := order.pricingPolicyVersionId
    coverageAllocationDates := none
    reallocatableHeld := []
    preservedCoverageOnly := true }
  assertTemporaryShortening order newDates policyPricing
  let decided ← decideStayChange .shortenStay order policyPricing request.pricing
  let summary := hotel.shortenedCoverage order rows newDates
  require (order.conversion.isSome = true →
      summary.restoredFutureCoverageDates = order.dates.filter fun date => !newDates.contains date)
    (entitlementConflict "升级会员后的未来权益与缩短日期不一致，不能安全返还")
  return ⟨after, decide (request.newDepartureDate = hotel.today), decided, ⟨order.stay, summary⟩⟩

def shortened (commandId : Nat) (earlyCheckOut : Bool) (order : StayOrder) : StayOrder :=
  if earlyCheckOut = true then { order.amend .checkOut commandId none none with status := .checkedOut } else order

def applyShorten (orderId commandId : Nat) (order : StayOrder) (effect : ShortenEffect) : Except Thrown Hotel := do
  let amended := order.amend .shortenStay commandId (some effect.shortening) none
  let revised ← amended.insertRevision effect.after (effect.decided.snapshot order.identity)
  let entitlement ← hotel.entitlement.restoreFutureConsumedCoverage orderId commandId
    effect.shortening.entitlementSummary.restoredFutureCoverageDates
  return { hotel with entitlement := entitlement }.setOrder orderId
    (shortened commandId effect.earlyCheckOut { revised with stay := effect.after })

def shortenStay (orderId commandId : Nat) (request : ShortenRequest) : Except Thrown Hotel := do
  let order ← hotel.loadOrder orderId
  let effect ← hotel.buildShorten cat orderId order request
  hotel.applyShorten orderId commandId order effect

end Hotel

end GreenPms
