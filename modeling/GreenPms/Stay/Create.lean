import GreenPms.Stay.Pricing

/-! # CREATE_ORDER

An order is made from a quote: for a member or a guest, in the room of their rights or, for a while,
in another one, and for a stay ahead or, as a backfill, for one that has begun already.
-/

namespace GreenPms

open Checked

structure Quote where
  inventoryUnitId : Nat
  stayType : StayType
  arrivalDate : Nat
  departureDate : Nat
  pricingPolicyVersionId : Nat
  memberId : Option Nat
  memberContractId : Option Nat
  temporaryOtherRoom : Option TemporaryOtherRoomArrangement

structure CreateOrderRequest where
  quote : Quote
  bookingChannelCode : Option BookingChannelCode
  channelOrderReference : Option String
  pricing : PricingRequest
  occupantCount : Nat
  backfill : Bool

def Quote.identity (quote : Quote) (bookingChannelCode : Option BookingChannelCode) : OrderIdentity :=
  ⟨quote.stayType, bookingChannelCode, quote.memberId, quote.memberContractId⟩

def Quote.memberStay (quote : Quote) : Bool := (quote.identity none).memberStay

def Quote.stay (quote : Quote) : StayInterval :=
  ⟨quote.arrivalDate, quote.departureDate,
    TimelineRun.items ⟨quote.inventoryUnitId, quote.arrivalDate, quote.departureDate⟩⟩

/-- The price that a command gives a stay: that of the policy, with the contract amount decided on. -/
structure DecidedPricing where
  pricing : PricingResult
  decision : PricingDecision

def DecidedPricing.of (policyPricing : PricingResult) (decision : PricingDecision) : DecidedPricing where
  pricing := { policyPricing with
    currentContractAmount := ⟨policyPricing.currentContractAmount.currency, decision.currentContractAmountMinor⟩ }
  decision := decision

def DecidedPricing.snapshot (decided : DecidedPricing) (identity : OrderIdentity) : PricingSnapshot :=
  pricingSnapshot identity decided.pricing (some decided.decision)

def PricingResult.zero (pricing : PricingResult) : Bool :=
  pricing.cashLines = [] && pricing.cashRemainder.minorUnits = 0 && pricing.currentContractAmount.minorUnits = 0

def validateBookingChannel (code : Option BookingChannelCode) (reference : Option String) :
    Except DomainError BookingChannelCode := do
  let code ← expect (invalidInput "bookingChannelCode must be one of YOUMUDAO, CTRIP, MEITUAN, WECOM") code
  require (code = .wecom → reference = none) (invalidInput "channelOrderReference must be null for WECOM orders")
  require (code ≠ .wecom → reference ≠ none) (invalidInput "channelOrderReference is required for channel orders")
  return code

def CreateOrderRequest.channel (request : CreateOrderRequest) : Except DomainError (Option BookingChannelCode) :=
  let submitted := request.bookingChannelCode.isSome || request.channelOrderReference.isSome
  if request.quote.memberStay = true ∨ request.quote.stayType = .free then do
    require (request.quote.memberStay = true → submitted = false)
      (invalidInput "会员住宿不应填写订单来源渠道或渠道订单号")
    require (submitted = false) (invalidInput "免费入住不应填写订单来源渠道或渠道订单号")
    return none
  else some <$> validateBookingChannel request.bookingChannelCode request.channelOrderReference

namespace Hotel

variable (cat : UnitCatalog) (hotel : Hotel)

def priceSingleUnit (quote : Quote) : Except Thrown PricingResult := do
  require (quote.stayType = .free → quote.memberStay = false) freeMemberStay
  let unit ← hotel.loadInventoryUnit cat quote.inventoryUnitId
  let dates ← (enumerateServiceDates quote.arrivalDate quote.departureDate).mapError .domain
  let candidates ← hotel.allocateCoverage (quote.identity none)
    ⟨hotel.today, unit.kind, unit.details.roomTypeCode, dates, [], []⟩
  let policy ← hotel.loadPricingPolicy quote.pricingPolicyVersionId false
  (calculatePricing ⟨quote.arrivalDate, quote.departureDate, quote.stayType, policy, quote.memberStay, candidates, 0⟩
    ⟨unit.id, unit.kind, unit.details.pricingProductCode⟩).mapError .domain

def priceTemporaryOtherRoomQuote (quote : Quote) (arrangement : TemporaryOtherRoomArrangement) :
    Except Thrown PricingResult := do
  let memberId ← expect (entitlementConflict "临时安排会员权益身份已变化") quote.memberId
  require (quote.memberContractId = some arrangement.memberContractId) (entitlementConflict "临时安排会员权益身份已变化")
  let unit ← hotel.loadInventoryUnit cat quote.inventoryUnitId
  let dates ← (enumerateServiceDates quote.arrivalDate quote.departureDate).mapError .domain
  let (resolved, candidates) ← hotel.entitlement.resolveTemporaryOtherRoomCoverage hotel.today memberId unit.id
    unit.kind unit.details.roomTypeCode quote.arrivalDate quote.departureDate
  require (resolved = arrangement) (entitlementConflict "临时安排会员权益来源已变化")
  let policy ← hotel.loadPricingPolicy quote.pricingPolicyVersionId false
  let pricing ← (calculatePricing
    ⟨quote.arrivalDate, quote.departureDate, quote.stayType, policy, true, candidates, 0⟩
    ⟨unit.id, unit.kind, unit.details.pricingProductCode⟩).mapError .domain
  require (pricing.coverageSet.length = dates.length ∧ pricing.zero = true)
    (entitlementConflict "临时安排必须由同一原整房权益完整覆盖且不产生现金差额")
  return pricing

def priceQuote (quote : Quote) : Except Thrown PricingResult :=
  match quote.temporaryOtherRoom with
  | some arrangement => hotel.priceTemporaryOtherRoomQuote cat quote arrangement
  | none => hotel.priceSingleUnit cat quote

structure CreateOrderEffect where
  identity : OrderIdentity
  decided : DecidedPricing
  status : OrderStatus

def assertBackfill (request : CreateOrderRequest) : Except Thrown Unit := do
  let quote := request.quote
  require (request.backfill = true → quote.arrivalDate < hotel.today) (invalid "补录住宿必须从今天以前开始")
  require (request.backfill = false → hotel.today ≤ quote.arrivalDate)
    (invalid "今天以前的住宿必须使用补录住宿入口")
  require (request.backfill = true → quote.memberStay = false)
    (invalid "当前补录只支持普通住宿或免费入住，不支持会员权益住宿")
  require (request.backfill = true → quote.temporaryOtherRoom = none) (invalid "临时安排其他房型不支持补录创建")

def createdStatus (request : CreateOrderRequest) : OrderStatus :=
  if request.backfill = false then .reserved
  else if request.quote.departureDate ≤ hotel.today then .checkedOut
  else .checkedIn

def buildCreateOrder (request : CreateOrderRequest) : Except Thrown CreateOrderEffect := do
  let quote := request.quote
  hotel.assertBackfill request
  let channel ← request.channel.mapError .domain
  let unit ← hotel.loadInventoryUnit cat quote.inventoryUnitId
  require (1 ≤ request.occupantCount ∧ request.occupantCount ≤ unit.details.occupancyCapacity)
    (invalid "本次提交的住宿人数超过房源可登记人数")
  let policyPricing ← hotel.priceQuote cat quote
  let identity := quote.identity channel
  let decision ← (createOrderPricingDecision identity policyPricing.currentContractAmount.minorUnits
    request.pricing).mapError .domain
  require (channel.any externalChannelCodes.contains = true → 0 < decision.currentContractAmountMinor)
    (invalid "普通付费渠道订单的本单渠道应结金额必须大于 0")
  return ⟨identity, .of policyPricing decision, hotel.createdStatus request⟩

/-- A backfilled order is checked in, and checked out if its stay is over, by the same command. -/
def fulfilled (commandId : Nat) (status : OrderStatus) (order : StayOrder) : StayOrder :=
  match status with
  | .checkedIn => { order.amend .checkIn commandId none none with status := .checkedIn }
  | .checkedOut =>
      { (order.amend .checkIn commandId none none).amend .checkOut commandId none none with status := .checkedOut }
  | _ => order

def newOrder (request : CreateOrderRequest) (identity : OrderIdentity) : StayOrder where
  status := .reserved
  identity := identity
  stay := request.quote.stay
  pricingPolicyVersionId := request.quote.pricingPolicyVersionId
  version := 0
  amendments := []
  revisions := []
  conversion := none
  temporaryOtherRoom := request.quote.temporaryOtherRoom
  occupantCount := request.occupantCount

def holdForOrder (orderId commandId : Nat) (order : StayOrder) (coverageSet : List CoveredNight) :
    Except Thrown EntitlementTables :=
  if order.identity.memberContractId.isSome = true then
    hotel.entitlement.holdCoverage (order.owner orderId) coverageSet commandId
  else .ok hotel.entitlement

def consumeBackfill (entitlement : EntitlementTables) (orderId commandId : Nat) (order : StayOrder)
    (status : OrderStatus) : Except Thrown EntitlementTables :=
  if order.identity.memberContractId.isSome = true ∧ status = .checkedOut then
    entitlement.consumeCoverage orderId commandId none "CHECK_IN_ENTITLEMENT_CONSUMED"
  else .ok entitlement

def applyCreateOrder (orderId commandId : Nat) (request : CreateOrderRequest) (effect : CreateOrderEffect) :
    Except Thrown Hotel := do
  require (hotel.orders orderId = none) .failure
  let created := (newOrder request effect.identity).amend .createOrder commandId none none
  let order ← created.insertRevision request.quote.stay (effect.decided.snapshot effect.identity)
  let held ← hotel.holdForOrder orderId commandId order effect.decided.pricing.coverageSet
  let entitlement ← consumeBackfill held orderId commandId order effect.status
  return { hotel with entitlement := entitlement }.setOrder orderId (fulfilled commandId effect.status order)

def createOrder (orderId commandId : Nat) (request : CreateOrderRequest) : Except Thrown Hotel := do
  let effect ← hotel.buildCreateOrder cat request
  hotel.applyCreateOrder orderId commandId request effect

end Hotel

end GreenPms
