import GreenPms.Pricing.Policy

/-! # Allocation of coverage

Which nights of a stay member rights cover: the nights that an order has already, and others drawn
one by one from the lots that are valid on them and have units left.
-/

namespace GreenPms

open Checked

structure CoverageSource where
  lot : EntitlementLot
  contract : MemberContract
  deriving DecidableEq, Repr

def CoverageSource.validOn (source : CoverageSource) (serviceDate : Nat) : Bool :=
  source.contract.validFrom ≤ serviceDate && serviceDate ≤ source.contract.validUntil &&
    serviceDate ≤ source.lot.expiresOn

def CoverageSource.allows (source : CoverageSource) (roomTypeCode : Nat) (kind : InventoryUnitKind) : Bool :=
  source.lot.membershipOrder.any fun order => order.allowedRoomTypeCode = roomTypeCode &&
    order.allowedInventoryKind = kind && order.entitlementUnitKind = entitlementKindFor kind

def CoverageItem.candidate (c : CoverageItem) : CoverageCandidate where
  serviceDate := c.serviceDate
  entitlementLotId := c.lotId
  status := some c.status
  inventoryUnitId := if c.status = .consumed then some c.inventoryUnitId else none
  unitKind := if c.status = .consumed then some c.unitKind else none

def drawnNight (source : CoverageSource) (serviceDate : Nat) : CoverageCandidate :=
  ⟨serviceDate, source.lot.id, none, none, none⟩

/-- Each date is drawn from the only source that has a unit left for it. -/
def fillNights (ambiguous : Thrown) (sources : List CoverageSource) :
    (Nat → Int) → List Nat → Except Thrown (List CoverageCandidate)
  | _, [] => .ok []
  | remaining, serviceDate :: rest =>
      match sources.filter fun source => source.validOn serviceDate && 0 < remaining source.lot.id with
      | [] => fillNights ambiguous sources remaining rest
      | [source] => do
          let more ← fillNights ambiguous sources
            (Function.update remaining source.lot.id (remaining source.lot.id - 1)) rest
          return drawnNight source serviceDate :: more
      | _ => .error ambiguous

def sortCandidates (candidates : List CoverageCandidate) : List CoverageCandidate :=
  candidates.insertionSort fun a b => a.serviceDate ≤ b.serviceDate

def covered (candidates : List CoverageCandidate) (serviceDate : Nat) : Bool :=
  candidates.any fun candidate => candidate.serviceDate = serviceDate

def heldFrom (candidates : List CoverageCandidate) (lotId : Nat) : Nat :=
  candidates.countP fun candidate => candidate.status = some .held && candidate.entitlementLotId = lotId

def soleContract (contractIds : List Nat) : Option Nat :=
  match contractIds.dedup with
  | [contractId] => some contractId
  | _ => none

def ambiguousForStay : Thrown :=
  entitlementConflict "该会员有多份权益可覆盖同一住宿日期，消耗顺序尚未确认，暂不能创建会员住宿"

def ambiguousForChange : Thrown :=
  entitlementConflict "该会员有多份权益可覆盖同一住宿日期，消耗顺序尚未确认，暂不能调整住宿日期"

structure CoverageRequest where
  today : Nat
  inventoryUnitKind : InventoryUnitKind
  roomTypeCode : Option Nat
  dates : List Nat
  preserved : List CoverageCandidate
  reallocatableHeld : List CoverageCandidate

def CoverageRequest.kept (request : CoverageRequest) : List CoverageCandidate :=
  request.preserved.filter fun candidate => request.dates.contains candidate.serviceDate

def CoverageRequest.openDates (request : CoverageRequest) : List Nat :=
  request.dates.filter fun serviceDate => !covered request.kept serviceDate

structure TemporaryOtherRoomArrangement where
  membershipOrderId : Nat
  memberContractId : Nat
  entitlementLotId : Nat
  originalRoomTypeCode : Nat
  actualInventoryUnitId : Nat
  actualRoomTypeCode : Nat
  arrivalDate : Nat
  departureDate : Nat
  deriving DecidableEq, Repr

namespace EntitlementTables

variable (t : EntitlementTables)

def activeCoverageCandidates (orderId : Nat) : List CoverageCandidate :=
  (t.activeCoverage orderId).map CoverageItem.candidate

def candidatesOn (orderId : Nat) (dates : List Nat) : List CoverageCandidate :=
  (t.activeCoverageCandidates orderId).filter fun candidate => dates.contains candidate.serviceDate

/-- The lots of the active membership orders and contracts of a member. -/
def memberSources (memberId : Nat) : List CoverageSource :=
  t.lots.filterMap fun lot => (t.findContract lot.contractId).bind fun contract =>
    if contract.active && lot.membershipOrder.any fun order => order.memberId = memberId then some ⟨lot, contract⟩
    else none

def unexpired (today : Nat) (lot : EntitlementLot) : Bool := today ≤ lot.expiresOn && !t.expired lot.id

def remainingUnits (sources : List CoverageSource) (reallocatableHeld : List CoverageCandidate) :
    Except Thrown (Nat → Int) := do
  let _ ← sources.mapM fun source => boundedBalance (t.availableBalance source.lot)
  return fun lotId => t.lotBalance lotId + heldFrom reallocatableHeld lotId

def validForStay (request : CoverageRequest) (matching : List CoverageSource) : List CoverageSource :=
  matching.filter fun source => t.unexpired request.today source.lot && request.dates.any source.validOn

/-- The contract of a stay: that of the lots it draws on or, if it draws on none, of the valid lots. -/
def contractOfStay (valid : List CoverageSource) (drawn : List CoverageCandidate) : Option Nat :=
  if drawn = [] then soleContract (valid.map fun source => source.contract.id)
  else soleContract (drawn.map fun candidate => t.contractOf candidate.entitlementLotId)

def resolveMemberCoverage (memberId : Nat) (request : CoverageRequest) :
    Except Thrown (Option Nat × List CoverageCandidate) := do
  require (memberId ∈ t.members) (.domain (domainError .notFound "当前门店未找到该会员档案"))
  let roomTypeCode ← expect (entitlementConflict "所选房源缺少会员房型信息，不能使用会员权益") request.roomTypeCode
  let matching := (t.memberSources memberId).filter fun source => source.allows roomTypeCode request.inventoryUnitKind
  let valid := t.validForStay request matching
  require (matching = [] → ∃ candidate ∈ request.preserved, candidate.status = some .consumed)
    (entitlementConflict "该会员的已生效权益不适用于所选房型")
  if valid = [] then return (none, request.kept)
  else do
    let remaining ← t.remainingUnits valid request.reallocatableHeld
    let drawn ← fillNights ambiguousForStay valid remaining request.openDates
    return (t.contractOfStay valid drawn, request.kept ++ drawn)

/-- The lots of a contract, for an order that knows its contract only. -/
def contractSources (contract : MemberContract) (request : CoverageRequest) : List CoverageSource :=
  (t.lots.filter fun lot => lot.contractId = contract.id &&
    lot.unitKind = entitlementKindFor request.inventoryUnitKind && t.unexpired request.today lot).map (⟨·, contract⟩)

def allocateCoverageCandidates (contractId : Option Nat) (request : CoverageRequest) :
    Except Thrown (List CoverageCandidate) :=
  match contractId with
  | none => .ok request.preserved
  | some contractId => do
      let contract ← expect (entitlementConflict "Membership contract is not active")
        ((t.findContract contractId).filter MemberContract.active)
      let sources := t.contractSources contract request
      let remaining ← t.remainingUnits sources request.reallocatableHeld
      let drawn ← fillNights ambiguousForChange sources remaining request.openDates
      return sortCandidates (request.kept ++ drawn)

/-! ## Another room for a while -/

def wholeRoomSource (today : Nat) (source : CoverageSource) : Bool :=
  source.lot.active && source.lot.unitKind = .roomNight && t.unexpired today source.lot &&
    source.lot.membershipOrder.any fun order =>
      order.allowedInventoryKind = .room && order.entitlementUnitKind = .roomNight

def CoverageSource.roomType (source : CoverageSource) : Option Nat :=
  source.lot.membershipOrder.map MembershipOrder.allowedRoomTypeCode

def coversCompleteStay (today : Nat) (dates : List Nat) (source : CoverageSource) : Bool :=
  t.wholeRoomSource today source && dates.length ≤ t.availableBalance source.lot && dates.all source.validOn

/-- The only lot of a member that covers a stay in a room of another type than it was sold for. -/
def resolveTemporaryOtherRoomCoverage (today memberId unitId : Nat) (kind : InventoryUnitKind)
    (roomTypeCode : Option Nat) (arrivalDate departureDate : Nat) :
    Except Thrown (TemporaryOtherRoomArrangement × List CoverageCandidate) := do
  require (memberId ∈ t.members) (.domain (domainError .notFound "当前门店未找到该会员档案"))
  require (kind = .room) (entitlementConflict "临时安排只支持安排到整间房")
  let actualRoomTypeCode ← expect (entitlementConflict "临时安排只支持安排到整间房") roomTypeCode
  let dates := serviceDates arrivalDate departureDate
  let sources := (t.memberSources memberId).filter fun source => source.contract.memberId = memberId
  let whole := sources.filter (t.wholeRoomSource today)
  let _ ← whole.mapM fun source => boundedBalance (t.availableBalance source.lot)
  require (∀ source ∈ whole, CoverageSource.roomType source = some actualRoomTypeCode →
      dates.any source.validOn = false)
    (entitlementConflict "该会员权益已适用于所选房型，请按普通会员订单创建")
  let mismatched := sources.filter fun source =>
    t.coversCompleteStay today dates source && decide (CoverageSource.roomType source ≠ some actualRoomTypeCode)
  let source ← expect (entitlementConflict "该会员没有唯一可完整覆盖本次整房临时安排的原权益") (single mismatched)
  let order ← expect .failure source.lot.membershipOrder
  return (⟨order.id, source.contract.id, source.lot.id, order.allowedRoomTypeCode, unitId, actualRoomTypeCode,
    arrivalDate, departureDate⟩, dates.map (drawnNight source))
where
  single : List CoverageSource → Option CoverageSource
    | [source] => some source
    | _ => none

end EntitlementTables

end GreenPms
