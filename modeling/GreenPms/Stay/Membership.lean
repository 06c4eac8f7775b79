import GreenPms.Stay.Lifecycle

/-! # Membership

Memberships are activated, their lots added to, adjusted and expired, and the stay of a guest who
becomes a member is converted: its nights are consumed at once from the lot of the new membership. A
temporary arrangement on the rights of a member closes the lot commands, which is left out here and
only refuses more; so are the corrections of memberships by administrators.
-/

namespace GreenPms

open Checked

structure MembershipProduct where
  entitlementUnitKind : EntitlementUnitKind
  entitlementUnits : Nat
  allowedRoomTypeCode : Nat
  allowedInventoryKind : InventoryUnitKind
  deriving DecidableEq, Repr

/-- The identities that a new membership gets, and the day a year after today. -/
structure MembershipStamp where
  membershipOrderId : Nat
  contractId : Nat
  lotId : Nat
  validUntil : Nat
  deriving DecidableEq, Repr

namespace EntitlementTables

variable (t : EntitlementTables)

def insertLot (lot : EntitlementLot) : Except Thrown EntitlementTables :=
  if h : lot.id ∉ t.lots.map EntitlementLot.id ∧ ∀ f ∈ t.ledger, f.lotId ≠ lot.id then
    .ok { t with lots := lot :: t.lots, lots_keyed := List.nodup_cons.mpr ⟨h.1, t.lots_keyed⟩ }
  else .error .failure

def insertContract (contract : MemberContract) : Except Thrown EntitlementTables := do
  require (contract.id ∉ t.contracts.map MemberContract.id) .failure
  return { t with contracts := contract :: t.contracts }

def insertMembership (stamp : MembershipStamp) (product : MembershipProduct) (memberId validFrom : Nat) :
    Except Thrown EntitlementTables := do
  let contracted ← t.insertContract ⟨stamp.contractId, memberId, true, validFrom, stamp.validUntil⟩
  contracted.insertLot ⟨stamp.lotId, stamp.contractId, product.entitlementUnitKind, product.entitlementUnits,
    stamp.validUntil, true, some ⟨stamp.membershipOrderId, memberId, product.allowedRoomTypeCode,
      product.allowedInventoryKind, product.entitlementUnitKind⟩⟩

def lotFact (lotId : Nat) (type : LedgerEntryType) (delta : Int) (reason : String) (commandId : Nat) : LedgerFact :=
  ⟨lotId, type, delta, none, none, none, reason, commandId⟩

def loadActiveLot (lotId : Nat) (message : String) : Except Thrown EntitlementLot := do
  let lot ← expect (notFound "Entitlement lot not found") (t.findLot lotId)
  let contract ← expect (notFound "Entitlement lot not found") (t.findContract lot.contractId)
  require (contract.active = true ∧ lot.active = true) (entitlementConflict message)
  return lot

def hasActiveChain (memberId : Nat) : Bool :=
  t.contracts.any (fun contract => contract.memberId = memberId && contract.active) ||
    t.lots.any fun lot => lot.active && (t.findContract lot.contractId).any fun contract => contract.memberId = memberId

end EntitlementTables

namespace Hotel

variable (cat : UnitCatalog) (hotel : Hotel)

def createMember (memberId : Nat) : Except Thrown Hotel := do
  require (memberId ∉ hotel.entitlement.members) .failure
  return { hotel with entitlement := { hotel.entitlement with members := memberId :: hotel.entitlement.members } }

def activateMembershipOrder (stamp : MembershipStamp) (product : MembershipProduct) (memberId validFrom : Nat) :
    Except Thrown Hotel := do
  require (memberId ∈ hotel.entitlement.members ∧ 0 < product.entitlementUnits) .failure
  require (hotel.entitlement.hasActiveChain memberId = false)
    (entitlementConflict "该会员已有有效会员链，不能再次激活会员订单")
  let entitlement ← hotel.entitlement.insertMembership stamp product memberId validFrom
  return { hotel with entitlement := entitlement }

def addEntitlementLot (commandId lotId contractId : Nat) (unitKind : EntitlementUnitKind) (units expiresOn : Nat) :
    Except Thrown Hotel := do
  require (0 < units) (invalid "units must be at least 1")
  let contract ← expect (notFound "Member contract not found") (hotel.entitlement.findContract contractId)
  require (contract.active = true) (entitlementConflict "Member contract is not active")
  require (hotel.today ≤ expiresOn)
    (entitlementConflict "Entitlement lot is already naturally expired in the property timezone")
  require (contract.validFrom ≤ expiresOn ∧ expiresOn ≤ contract.validUntil)
    (invalid "Entitlement lot expiry must be inside the member contract validity interval")
  let entitlement ← hotel.entitlement.insertLot ⟨lotId, contractId, unitKind, 0, expiresOn, true, none⟩
  let fact := EntitlementTables.lotFact lotId .adjust units "MEMBER_ENTITLEMENT_LOT_ADDED" commandId
  return { hotel with entitlement := entitlement.record fact }

/-- ADJUST_MEMBER_ENTITLEMENT; a correction of the balance adjusts it by the difference. -/
def adjustEntitlement (commandId lotId : Nat) (quantityDelta : Int) (reason : String) : Except Thrown Hotel := do
  let t := hotel.entitlement
  let lot ← t.loadActiveLot lotId "Only an active member contract and active entitlement lot can be adjusted"
  require (t.expired lotId = false) (entitlementConflict "An expired entitlement lot cannot be adjusted")
  require (hotel.today ≤ lot.expiresOn)
    (entitlementConflict "A naturally expired entitlement lot cannot be adjusted")
  let before ← EntitlementTables.boundedBalance (t.availableBalance lot)
  require (quantityDelta ≠ 0) (invalid "quantityDelta must not be zero")
  let _ ← EntitlementTables.boundedBalance (before + quantityDelta)
  let fact := EntitlementTables.lotFact lotId .adjust quantityDelta reason commandId
  return { hotel with entitlement := t.record fact }

def expireEntitlement (commandId lotId asOf : Nat) : Except Thrown Hotel := do
  let t := hotel.entitlement
  let lot ← t.loadActiveLot lotId "Only an active member contract and active entitlement lot can be expired"
  require (t.expired lotId = false) (entitlementConflict "Entitlement lot is already expired")
  require (lot.expiresOn < asOf) (entitlementConflict "Entitlement lot is still valid on asOfDate")
  require (asOf ≤ hotel.today)
    (entitlementConflict "Entitlement lot cannot be expired using a future property date")
  let remainingAvailable ← EntitlementTables.boundedBalance (t.availableBalance lot)
  let fact := EntitlementTables.lotFact lotId .expire (-remainingAvailable) "ENTITLEMENT_EXPIRED" commandId
  return { hotel with entitlement := t.record fact }

/-! ## CONVERT_STAY_COLLECTIONS_TO_MEMBERSHIP -/

structure ConversionRequest where
  memberId : Nat
  product : MembershipProduct
  temporaryOtherRoomReason : Option String
  stamp : MembershipStamp

structure ConversionEffect where
  conversion : MembershipConversion
  pricing : PricingSnapshot

def assertConvertible (order : StayOrder) : Except Thrown Unit := do
  require (order.conversion = none)
    (.domain (domainError .aggregateVersionConflict "该住宿订单已经升级会员，不能重复办理"))
  require (order.status = .checkedOut ∨ order.status = .checkedIn) (invalidState "升级会员需在入住或退房完成后办理")
  require (order.identity.stayType ≠ .free ∧ order.memberStay = false)
    (invalid "只有企业微信来源的普通住宿订单可以升级会员")
  require (order.identity.bookingChannelCode.any externalChannelCodes.contains = false)
    (invalid "外部渠道订单不登记单笔住宿收款，不能从本订单升级会员")
  require (order.identity.bookingChannelCode = some .wecom) (invalid "只有企业微信来源的普通住宿订单可以升级会员")

def MembershipProduct.matches (product : MembershipProduct) (unit : InventoryUnit) : Bool :=
  unit.kind = product.allowedInventoryKind && unit.details.roomTypeCode = some product.allowedRoomTypeCode &&
    entitlementKindFor unit.kind = product.entitlementUnitKind

/-- A stay in whole rooms may become one of a member of another room type, for a reason. -/
def crossRoomEligible (order : StayOrder) (product : MembershipProduct) (timeline : List TimelineUnit) : Bool :=
  order.status = .checkedIn && timeline.all (fun item => item.unit.kind = .room) &&
    product.allowedInventoryKind = .room && product.entitlementUnitKind = .roomNight &&
    ((timeline.map fun item => item.unit.id).dedup.length = 1 ||
      timeline.any fun item => item.unit.details.roomTypeCode = some product.allowedRoomTypeCode)

def assertProductFits (order : StayOrder) (request : ConversionRequest) (timeline : List TimelineUnit) :
    Except Thrown Unit := do
  let mismatch := timeline.any fun item => !MembershipProduct.matches request.product item.unit
  require (∀ reason ∈ request.temporaryOtherRoomReason, reason ≠ "" ∧ reason.length ≤ 200)
    (invalid "本次临时安排原因须为 1–200 字")
  require (mismatch = false → request.temporaryOtherRoomReason = none)
    (invalid "当前房型已匹配会员产品，不需要临时安排")
  require (mismatch = true → crossRoomEligible order request.product timeline = true ∧
      request.temporaryOtherRoomReason.isSome = true)
    (entitlementConflict "所选会员产品不适用于本次住宿房型；仅整房在住订单可临时跨房型升级整房会员")

def conversionPricing (currency : CurrencyCode) : PricingSnapshot where
  coverageSet := []
  cashLines := []
  policyBaseAmountMinor := 0
  pricingBasis := .memberEntitlement
  currentContractAmountMinor := 0
  manualAdjustmentMinor := 0
  currency := currency
  reason := some ⟨"STAY_COLLECTION_TO_MEMBERSHIP", "升级会员，住宿金额归零"⟩

def buildConversion (order : StayOrder) (request : ConversionRequest) : Except Thrown ConversionEffect := do
  assertCommandOpen order .convertStayCollectionsToMembership
  assertConvertible order
  require (request.memberId ∈ hotel.entitlement.members) (notFound "当前门店未找到该会员")
  require (order.dates ≠ []) (invalid "住宿订单没有可核销的服务日期")
  require (order.dates.length ≤ request.product.entitlementUnits)
    (entitlementConflict "本次住宿夜数超过所选会员产品权益数量")
  let timeline ← hotel.loadTimeline cat order.stay.stayTimeline
  assertProductFits order request timeline
  let revision ← expect .failure order.currentRevision
  let product := request.product
  return {
    conversion := ⟨request.stamp.contractId, request.stamp.lotId, product.entitlementUnitKind,
      product.allowedInventoryKind, product.allowedRoomTypeCode,
      timeline.any fun item => !MembershipProduct.matches product item.unit⟩
    pricing := conversionPricing revision.pricing.currency }

def convertedNight (conversion : MembershipConversion) (item : StayTimelineItem) : CoveredNight :=
  ⟨item.serviceDate, item.inventoryUnitId, conversion.entitlementUnitKind, conversion.entitlementLotId⟩

def conversionReason : String := "STAY_COLLECTION_TO_MEMBERSHIP_CONSUMED"

def convertNight (inHouse : Bool) (orderId commandId : Nat) (conversion : MembershipConversion) (t : EntitlementTables)
    (item : StayTimelineItem) : EntitlementTables :=
  if inHouse = true then
    let coverage := t.newItem orderId conversion.contractId (convertedNight conversion item) .consumed
    t.insert coverage (coverage.fact .conversionConsume (-1) conversionReason commandId)
  else t.record ⟨conversion.entitlementLotId, .conversionConsume, -1, some item.serviceDate, some orderId, none,
    conversionReason, commandId⟩

def applyConversion (orderId commandId : Nat) (order : StayOrder) (request : ConversionRequest)
    (effect : ConversionEffect) : Except Thrown Hotel := do
  require order.dates.Nodup (internalFailure "Conversion consumption dates do not match consumed units")
  let membership ← hotel.entitlement.insertMembership request.stamp request.product request.memberId hotel.today
  let amended := order.amend .convertStayCollectionsToMembership commandId none none
  let revised ← amended.insertRevision order.stay effect.pricing
  let entitlement := order.stay.stayTimeline.foldl
    (convertNight (order.status = .checkedIn) orderId commandId effect.conversion) membership
  return { hotel with entitlement := entitlement }.setOrder orderId { revised with
    identity := { order.identity with memberId := some request.memberId, memberContractId := some request.stamp.contractId }
    conversion := some effect.conversion }

def convertStay (orderId commandId : Nat) (request : ConversionRequest) : Except Thrown Hotel := do
  let order ← hotel.loadOrder orderId
  let effect ← hotel.buildConversion cat order request
  hotel.applyConversion orderId commandId order request effect

end Hotel

end GreenPms
