import GreenPms.Stay.Move

/-! # Fulfilment

Check-in consumes the held coverage of an order, a cancellation releases it and a revoked check-in
restores it. A revoked check-out puts the order back as it was before: the coverage that its earlier
commands had consumed is found in the ledger.
-/

namespace GreenPms

open Checked

def zeroPricing (identity : OrderIdentity) (currency : CurrencyCode) : PricingSnapshot where
  coverageSet := []
  cashLines := []
  policyBaseAmountMinor := 0
  pricingBasis := (categoricalBasis identity).getD .policy
  currentContractAmountMinor := 0
  manualAdjustmentMinor := 0
  currency := currency
  reason := none

/-- The amendments of the order without what its later commands read. -/
def StayOrder.history (order : StayOrder) : List Amendment := order.amendments.map StayAmendment.toAmendment

def StayOrder.insertZeroRevision (order : StayOrder) : Except Thrown StayOrder := do
  let prior ← expect .failure order.currentRevision
  order.insertRevision order.stay (zeroPricing order.identity prior.pricing.currency)

namespace Hotel

variable (cat : UnitCatalog) (hotel : Hotel)

def heldCoverage (orderId : Nat) : List CoverageItem :=
  hotel.entitlement.ofOrder orderId fun c => c.status = .held

def checkIn (orderId commandId : Nat) : Except Thrown Hotel := do
  let order ← hotel.loadOrder orderId
  require (order.status = .reserved) (invalidState "Only a reserved order can check in")
  require (order.stay.arrivalDate ≤ hotel.today) (invalidState "未到计划入住日，不能办理普通入住")
  require (hotel.today < order.stay.departureDate) (invalidState "已到或超过计划退房日，不能补办入住")
  let entitlement ← hotel.entitlement.consumeCoverage orderId commandId none "CHECK_IN_ENTITLEMENT_CONSUMED"
  return { hotel with entitlement := entitlement }.setOrder orderId
    { order.amend .checkIn commandId none none with status := .checkedIn }

def checkOut (orderId commandId : Nat) : Except Thrown Hotel := do
  let order ← hotel.loadOrder orderId
  require (order.status = .checkedIn) (invalidState "Only an in-house order can check out")
  require (order.stay.departureDate ≤ hotel.today)
    (invalidState "未到计划退房日，不能办理普通退房；当前版本暂不支持提前退房")
  require (hotel.heldCoverage orderId = [])
    (entitlementConflict "In-house member coverage must be consumed before check-out")
  return hotel.setOrder orderId { order.amend .checkOut commandId none none with status := .checkedOut }

/-- A member is lodged on the nights that are held for the stay, anyone else on none. -/
def assertCompletedCoverage (order : StayOrder) (rows : List CoverageItem) : Except Thrown Unit := do
  require (order.memberStay = true → ∀ c ∈ rows, c.status ≠ .consumed)
    (entitlementConflict "未入住订单存在已核销会员权益，当前数据状态异常，不能完成住宿")
  require (order.memberStay = true → rows.length = order.stay.stayTimeline.length ∧
      ∀ item ∈ order.stay.stayTimeline, ∃ c ∈ rows, c.serviceDate = item.serviceDate ∧
        c.inventoryUnitId = item.inventoryUnitId)
    (entitlementConflict "会员权益冻结与完整住宿时间线不一致，不能完成住宿；请先核对会员覆盖或联系管理员")
  require (order.memberStay = false → rows = [])
    (entitlementConflict "非会员订单存在冻结或已核销会员权益，当前数据状态异常，不能完成住宿")

def completeStay (orderId commandId : Nat) : Except Thrown Hotel := do
  let order ← hotel.loadOrder orderId
  require (order.status = .reserved) (invalidState "只有已预订且未办理入住的订单可以完成住宿")
  require (order.stay.departureDate ≤ hotel.today) (invalidState "订单未到计划退房日，请使用普通入住流程")
  require (∀ a ∈ order.history, a.type ≠ .checkIn ∧ a.type ≠ .checkOut)
    (invalidState "订单已有入住或退房记录，不能再次完成住宿")
  assertCompletedCoverage order (hotel.entitlement.activeCoverage orderId)
  let entitlement ← hotel.entitlement.consumeCoverage orderId commandId none "CHECK_IN_ENTITLEMENT_CONSUMED"
  return { hotel with entitlement := entitlement }.setOrder orderId (fulfilled commandId .checkedOut order)

/-- CANCEL_ORDER and MARK_NO_SHOW; the latter is open from 20:00 on the day of arrival. -/
def closeReserved (noShow evening : Bool) (orderId commandId : Nat) : Except Thrown Hotel := do
  let order ← hotel.loadOrder orderId
  require (order.status = .reserved) (invalidState "The command requires a reserved order")
  require (noShow = true → order.stay.arrivalDate < hotel.today ∨ order.stay.arrivalDate = hotel.today ∧ evening = true)
    (invalidState "计划到店日 20:00 后才能标记未到")
  let amended := order.amend (if noShow = true then .markNoShow else .cancelOrder) commandId none none
  let revised ← amended.insertZeroRevision
  return { hotel with
    entitlement := hotel.entitlement.releaseCoverage orderId commandId ⟨none, none, []⟩ }.setOrder orderId
    { revised with status := if noShow = true then .noShow else .cancelled }

def revokeCheckIn (orderId commandId : Nat) : Except Thrown Hotel := do
  let order ← hotel.loadOrder orderId
  assertNotConverted order
  require (order.status = .checkedIn) (invalidState "只有在住订单可以撤销误办入住")
  require (hotel.today = order.stay.arrivalDate) (invalidState "只有计划入住当天可以撤销误办入住")
  require (hotel.heldCoverage orderId = []) (entitlementConflict "在住订单仍有未核销会员权益，不能安全撤销入住")
  let revised ← (order.amend .revokeCheckIn commandId none none).insertZeroRevision
  let entitlement ← hotel.entitlement.restoreConsumedCoverage orderId commandId
  return { hotel with entitlement := entitlement }.setOrder orderId { revised with status := .checkInRevoked }

/-- Commands on occupants and funds that only append an amendment. -/
def amendOnlyCommands : List CommandType :=
  [.correctOrderOccupant, .manageOrderOccupants, .recordRefund, .reverseFact]

def amendOnly (command : CommandType) (orderId commandId : Nat) : Except Thrown Hotel := do
  let order ← hotel.loadOrder orderId
  require (command ∈ amendOnlyCommands) .failure
  return hotel.setOrder orderId (order.amend command commandId none none)

/-! ## REVOKE_CHECK_OUT -/

structure CheckoutReversalPlan where
  checkout : Amendment
  sourceRevision : PricingRevision
  arrangement : StayInterval
  coverageSet : List CoveredNight
  reconsumeCoverage : List CoveredNight

def reversedAmendment (order : StayOrder) (checkout : Amendment) : Amendment :=
  (earlyShortening order.history checkout).getD checkout

def sourceCommands (order : StayOrder) (checkout : Amendment) : List Nat :=
  ((order.history.filter fun a => a.sequence < (reversedAmendment order checkout).sequence).map Amendment.commandId).dedup

def originallyConsumed (orderId : Nat) (commands : List Nat) (coverageId : Nat) : Bool :=
  let facts := hotel.entitlement.ledger.filter fun f =>
    f.orderId = some orderId && commands.contains f.commandId && f.coverageId = some coverageId
  (facts.map LedgerFact.quantityDelta).sum = -1 &&
    facts.any fun f => f.entryType = .consume || f.entryType = .conversionConsume

def sourceCoverage (orderId : Nat) (commands : List Nat) : List CoverageItem :=
  hotel.entitlement.ofOrder orderId fun c => hotel.originallyConsumed orderId commands c.id

def incompletePlan : Thrown := invalidState "退房前安排与计价记录不完整，无法完整撤销"

/-- The arrangement before the check-out and the revision that priced it. -/
def checkoutSource (order : StayOrder) (checkout : Amendment) : Except Thrown (StayInterval × PricingRevision) := do
  match earlyShortening order.history checkout with
  | none => do
      let revision ← expect incompletePlan order.currentRevision
      return (order.stay, revision)
  | some early => do
      let amendment ← expect incompletePlan (order.amendments.find? fun a => a.sequence = early.sequence)
      let shortening ← expect incompletePlan amendment.shortening
      let revision ← expect incompletePlan (order.revisions.findRev? fun r => r.amendmentSequence < early.sequence)
      return (shortening.before, revision)

def loadCheckoutReversalPlan (orderId : Nat) (order : StayOrder) : Except Thrown CheckoutReversalPlan := do
  require (order.status = .checkedOut) (invalidState "只有已退房订单可以撤销退房")
  let checkout ← expect (invalidState "订单缺少可撤销的退房记录") (lastCheckout order.history)
  require (changedSince order.history checkout = false)
    (invalidState "退房后已有住宿、计价或会员变更，无法直接恢复退房前安排")
  let (arrangement, sourceRevision) ← checkoutSource order checkout
  require (sourceRevision.stay.arrivalDate = arrangement.arrivalDate ∧
    sourceRevision.stay.departureDate = arrangement.departureDate) incompletePlan
  let coverageSet := (hotel.sourceCoverage orderId (sourceCommands order checkout)).map CoverageItem.night
  require ((coverageSet.map CoveredNight.serviceDate).Nodup ∧ (order.conversion.isSome = true →
      ∀ item ∈ arrangement.stayTimeline, item.serviceDate ∈ coverageSet.map CoveredNight.serviceDate))
    (entitlementConflict "原住宿的逐晚核销记录不完整，无法撤销退房")
  let active := hotel.entitlement.activeCoverage orderId
  require (∀ c ∈ active, c.status = .consumed ∧ (desiredOn coverageSet c.serviceDate).any c.sameNight = true)
    (entitlementConflict "当前核销与原住宿权益不一致，无法撤销退房")
  return ⟨checkout, sourceRevision, arrangement, coverageSet, coverageSet.filter fun night =>
    !active.any fun c => c.serviceDate = night.serviceDate⟩

def ownerId (order : StayOrder) : Option Nat :=
  match order.identity.memberId with
  | some memberId => some memberId
  | none => (order.identity.memberContractId.bind hotel.entitlement.findContract).map MemberContract.memberId

def lapsedRights : Thrown := entitlementConflict "原会员权益已失效或可用数量不足，无法完整撤销退房"

def assertReconsumable (order : StayOrder) (desired : List CoveredNight) (lotId : Nat) : Except Thrown Unit := do
  let t := hotel.entitlement
  let own := desired.filter fun night => night.entitlementLotId = lotId
  let lot ← expect lapsedRights (t.findLot lotId)
  let contract ← expect lapsedRights (t.findContract lot.contractId)
  require (contract.active = true ∧ lot.active = true ∧ hotel.ownerId order = some contract.memberId ∧
    t.unexpired hotel.today lot = true ∧
    ∀ night ∈ own, CoverageSource.validOn ⟨lot, contract⟩ night.serviceDate = true) lapsedRights
  let balance ← EntitlementTables.boundedBalance (t.availableBalance lot)
  require (own.length ≤ balance) lapsedRights

def reconsume (orderId commandId : Nat) (order : StayOrder) (plan : CheckoutReversalPlan) :
    Except Thrown EntitlementTables :=
  if plan.reconsumeCoverage = [] then .ok hotel.entitlement
  else do
    let reconciled ← hotel.entitlement.reconcileCoverage (order.owner orderId) plan.coverageSet commandId
    reconciled.consumeCoverage orderId commandId (some (plan.reconsumeCoverage.map CoveredNight.serviceDate))
      "REVOKE_CHECK_OUT_ENTITLEMENT_CONSUMED"

def revokeCheckOut (orderId commandId : Nat) : Except Thrown Hotel := do
  let order ← hotel.loadOrder orderId
  let plan ← hotel.loadCheckoutReversalPlan orderId order
  checkAll (hotel.assertReconsumable order plan.reconsumeCoverage)
    (plan.reconsumeCoverage.map CoveredNight.entitlementLotId).dedup
  let amended := order.amend .revokeCheckOut commandId none (some plan.checkout.sequence)
  let source := plan.sourceRevision
  let entitlement ← hotel.reconsume orderId commandId order plan
  return { hotel with entitlement := entitlement }.setOrder orderId { amended with
    status := .checkedIn
    stay := { plan.arrangement with arrivalDate := order.stay.arrivalDate }
    revisions := order.revisions ++ [{ source with
      revisionNo := order.revisions.length + 1, amendmentSequence := amended.version }] }

end Hotel

end GreenPms
