import GreenPms.Inventory.Pointers

/-! # Three readers of availability

The availability list reads the claims of the property, the fingerprint those of the room, and
the assertion before a claim reads the pointer rows. All three also read the stays that await
their departure today and the unavailable ranges that older releases left. Whether the order of
such a stay is damaged is decided by the order reader and is a function of its blocker here.
-/

namespace GreenPms

open Checked

inductive InventoryPurpose where
  | lodgingNights | physicalUse
  deriving DecidableEq, Repr

structure StaySegment where
  id : Nat
  sequence : Nat
  unitId : Nat

structure OrderRow where
  id : Nat
  stayId : Nat
  departureDate : Nat
  checkedIn : Bool
  segments : List StaySegment

structure InternalUseBlock where
  id : Nat
  unitId : Nat
  roomId : Nat
  arrivalDate : Nat
  departureDate : Nat
  active : Bool

structure DepartureDayStayBlocker where
  orderId : Nat
  stayId : Nat
  segmentId : Nat
  unitId : Nat
  roomId : Nat
  serviceDate : Nat

/-- The rows of one property; `units` in the order of their codes. -/
structure PropertyInventory where
  tables : InventoryTables
  units : List Nat
  active : Nat → Bool
  orders : List OrderRow
  order_keys : (orders.map OrderRow.id).Nodup
  blocks : List InternalUseBlock
  businessDate : Nat
  damaged : DepartureDayStayBlocker → Bool

def OrderRow.sources (o : OrderRow) : List ClaimSource := o.segments.map fun s => .segment o.id s.id

def OrderRow.latestSegment (o : OrderRow) : Option StaySegment :=
  o.segments.foldl (fun latest s => if latest.any fun l => s.sequence ≤ l.sequence then latest else some s) none

/-- A blocker of a unit of this room: everything blocks the whole room, the whole room and the bed
itself block a bed. -/
def affectsUnit (cat : UnitCatalog) (roomId unitId target : Nat) : Bool :=
  roomId = cat.roomId target && (cat.kind target = .room || unitId = roomId || unitId = target)

namespace PropertyInventory

variable (cat : UnitCatalog) (inv : PropertyInventory)

def loadDepartureDayStayBlockers (dates : List Nat) : List DepartureDayStayBlocker :=
  if dates.contains inv.businessDate then
    (inv.orders.filter fun o => o.checkedIn && o.departureDate = inv.businessDate).filterMap fun o =>
      o.latestSegment.map fun s => ⟨o.id, o.stayId, s.id, s.unitId, cat.roomId s.unitId, inv.businessDate⟩
  else []

def loadInventoryDepartureBlockers (dates : List Nat) (purpose : InventoryPurpose) (unit : Option Nat)
    (excludeSourceIds : List ClaimSource) : List DepartureDayStayBlocker :=
  let blockers := (inv.loadDepartureDayStayBlockers cat dates).filter fun b =>
    !excludeSourceIds.contains (.segment b.orderId b.segmentId) && unit.all (affectsUnit cat b.roomId b.unitId)
  match purpose with
  | .physicalUse => blockers
  | .lodgingNights => blockers.filter inv.damaged

def loadDeferredUnavailableBlockers (dates : List Nat) : List InternalUseBlock :=
  match dates.min?, dates.max? with
  | some firstDate, some lastDate =>
      inv.blocks.filter fun b => b.active && b.arrivalDate ≤ lastDate && firstDate < b.departureDate
  | _, _ => []

def unitNotFound : Thrown := .domain (domainError .notFound "Inventory unit not found")

def sellable (unitId : Nat) : Bool :=
  inv.active unitId && (cat.kind unitId = .room || inv.active (cat.parentRoomId unitId))

def nightsOf (arrivalDate departureDate : Nat) : Except Thrown (List Nat) :=
  (enumerateServiceDates arrivalDate departureDate).mapError .domain

theorem nightsOf_eq_ok {arrivalDate departureDate : Nat} {dates : List Nat} :
    nightsOf arrivalDate departureDate = .ok dates ↔
      enumerateServiceDates arrivalDate departureDate = .ok dates := by
  unfold nightsOf
  cases enumerateServiceDates arrivalDate departureDate <;> simp [Except.mapError]

end PropertyInventory

/-! ## The availability list -/

structure AvailabilityNight where
  serviceDate : Nat
  available : Bool
  blockingClaimIds : List Nat

structure UnitAvailability where
  unitId : Nat
  kind : InventoryUnitKind
  roomId : Nat
  nights : List AvailabilityNight
  available : Bool

namespace PropertyInventory

variable (cat : UnitCatalog) (inv : PropertyInventory)

/-- The order to leave out, with its segments, and the purpose: a stay in house is moved, so its
order is always read for physical use. -/
def excludedOrder (excludeOrderId : Option Nat) (purpose : InventoryPurpose) :
    Except Thrown (List ClaimSource × InventoryPurpose) :=
  match excludeOrderId with
  | none => pure ([], purpose)
  | some id => do
    let order ← expect (.domain (domainError .notFound "Order not found")) (inv.orders.find? fun o => o.id = id)
    pure (order.sources, if order.checkedIn then .physicalUse else purpose)

def availabilityNight (claims : List Claim) (departures : List DepartureDayStayBlocker)
    (deferred : List InternalUseBlock) (excluded : List ClaimSource) (excludeOrderId : Option Nat)
    (unitId serviceDate : Nat) : AvailabilityNight :=
  let blocking := claims.filter fun c => !excluded.contains c.source && c.serviceDate = serviceDate &&
    affectsUnit cat c.roomId c.unitId unitId
  let blockingStays := departures.filter fun b => some b.orderId ≠ excludeOrderId && b.serviceDate = serviceDate &&
    affectsUnit cat b.roomId b.unitId unitId
  let blockingDeferred := deferred.filter fun b => b.arrivalDate ≤ serviceDate && serviceDate < b.departureDate &&
    affectsUnit cat b.roomId b.unitId unitId
  ⟨serviceDate, blocking.isEmpty && blockingStays.isEmpty && blockingDeferred.isEmpty, blocking.map Claim.id⟩

def listAvailability (arrivalDate departureDate : Nat) (kind : Option InventoryUnitKind)
    (excludeOrderId : Option Nat) (purpose : InventoryPurpose) : Except Thrown (List UnitAvailability) := do
  let dates ← nightsOf arrivalDate departureDate
  let (excluded, purpose) ← inv.excludedOrder excludeOrderId purpose
  let units := inv.units.filter fun u => inv.sellable cat u && kind.all (· = cat.kind u)
  let claims := inv.tables.claims.filter fun c =>
    c.active && arrivalDate ≤ c.serviceDate && c.serviceDate < departureDate
  let departures := inv.loadInventoryDepartureBlockers cat dates purpose none excluded
  let deferred := inv.loadDeferredUnavailableBlockers dates
  pure (units.map fun u =>
    let nights := dates.map (availabilityNight cat claims departures deferred excluded excludeOrderId u)
    ⟨u, cat.kind u, cat.roomId u, nights, nights.all AvailabilityNight.available⟩)

/-! ## The fingerprint -/

end PropertyInventory

inductive FingerprintEntry where
  | claim (serviceDate unitId claimId : Nat)
  | departureDayStay (serviceDate unitId stayId : Nat)
  | legacyUnavailable (serviceDate unitId blockId : Nat)
  deriving DecidableEq, Repr

namespace FingerprintEntry

def serviceDate : FingerprintEntry → Nat
  | .claim date _ _ | .departureDayStay date _ _ | .legacyUnavailable date _ _ => date

def text : FingerprintEntry → String
  | .claim date unitId id => isoDate date ++ ":" ++ toString unitId ++ ":" ++ toString id
  | .departureDayStay date unitId id =>
      isoDate date ++ ":DEPARTURE_DAY_STAY:" ++ toString unitId ++ ":" ++ toString id
  | .legacyUnavailable date unitId id =>
      isoDate date ++ ":LEGACY_UNAVAILABLE:" ++ toString unitId ++ ":" ++ toString id

end FingerprintEntry

namespace PropertyInventory

variable (cat : UnitCatalog) (inv : PropertyInventory)

/-- `ORDER BY service_date, id` -/
def fingerprintOrder (a b : Claim) : Bool :=
  a.serviceDate < b.serviceDate || (a.serviceDate == b.serviceDate && a.id ≤ b.id)

def inventoryFingerprint (unitId arrivalDate departureDate : Nat) (excludeSourceIds : List ClaimSource)
    (purpose : InventoryPurpose) : Except Thrown (List FingerprintEntry) := do
  require (unitId ∈ inv.units ∧ inv.sellable cat unitId = true) unitNotFound
  let dates ← nightsOf arrivalDate departureDate
  let claims := (inv.tables.claims.filter fun c => c.roomId = cat.roomId unitId && c.active &&
    arrivalDate ≤ c.serviceDate && c.serviceDate < departureDate &&
    !excludeSourceIds.contains c.source).mergeSort fingerprintOrder
  let claimFingerprint := (claims.filter fun c => cat.kind unitId = .room || c.unitId = cat.roomId unitId ||
    c.unitId = unitId).map fun c => FingerprintEntry.claim c.serviceDate c.unitId c.id
  let stayFingerprint := (inv.loadInventoryDepartureBlockers cat dates purpose (some unitId) excludeSourceIds).map
    fun b => .departureDayStay b.serviceDate b.unitId b.stayId
  let deferredFingerprint := ((inv.loadDeferredUnavailableBlockers dates).filter fun b =>
    affectsUnit cat b.roomId b.unitId unitId).flatMap fun b =>
      (dates.filter fun date => b.arrivalDate ≤ date && date < b.departureDate).map fun date =>
        FingerprintEntry.legacyUnavailable date b.unitId b.id
  pure (claimFingerprint ++ stayFingerprint ++ deferredFingerprint)

/-! ## The assertion -/

def unitBlockers (unitId : Nat) (excludeSourceIds : List ClaimSource) (purpose : InventoryPurpose)
    (dates : List Nat) : UnitBlockers where
  awaitingDeparture date :=
    (inv.loadInventoryDepartureBlockers cat dates purpose (some unitId) excludeSourceIds).any fun b =>
      b.serviceDate = date
  deferredUnavailable date :=
    ((inv.loadDeferredUnavailableBlockers dates).filter fun b => !excludeSourceIds.contains (.internalUse b.id) &&
      affectsUnit cat b.roomId b.unitId unitId).any fun b => b.arrivalDate ≤ date && date < b.departureDate

/-- `lockUnitDates`, which every caller of the assertion runs first: a room day for each night. -/
def lockUnitDates (unitId : Nat) (dates : List Nat) : InventoryTables :=
  (inventoryAccess cat).applyAll (dates.map (.insertRoomDay (cat.roomId unitId))) inv.tables

def assertUnitAvailable (unitId : Nat) (dates : List Nat) (excludeSourceIds : List ClaimSource)
    (purpose : InventoryPurpose) : Except Thrown Unit :=
  GreenPms.assertUnitAvailable cat (inv.unitBlockers cat unitId excludeSourceIds purpose dates)
    (inv.lockUnitDates cat unitId dates) unitId excludeSourceIds dates

end PropertyInventory

end GreenPms
