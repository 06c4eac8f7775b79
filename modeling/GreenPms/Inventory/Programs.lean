import Mathlib.Data.List.Dedup
import GreenPms.Inventory.Tables

/-! # Claim creation and release

The functions of the inventory on one view of the tables, as the writes they perform, and the
calls that transactions make of them. A stay change releases the order's own claims on the
dates it leaves and claims the added nights with the order's segments excluded.
-/

namespace GreenPms

open Checked

/-- The dates on which other tables block a unit: a stay that awaits its departure, and an
internal block. -/
structure UnitBlockers where
  awaitingDeparture : Nat → Bool
  deferredUnavailable : Nat → Bool

def inventoryConflict (message : String) (serviceDate : Nat) : Thrown :=
  .domain (domainError .inventoryConflict (message ++ isoDate serviceDate))

def damagedPointer (message : String) : Thrown := .domain (domainError .internalError message)

def InventoryTables.claim? (t : InventoryTables) (id : Nat) : Option Claim :=
  t.claims.find? fun c => c.id = id

section

variable (cat : UnitCatalog) (blockers : UnitBlockers)

/-- The beds of a room that an active claim of a source that is not excluded occupies. -/
def occupiedBeds (t : InventoryTables) (roomId : Nat) (exclude : List ClaimSource) (date : Nat) : List Nat :=
  cat.beds.filter fun b => cat.roomId b = roomId &&
    ((t.bedClaimId b date).join.bind t.claim?).any fun c => c.active && !exclude.contains c.source

def bedFree (t : InventoryTables) (bedId : Nat) (exclude : List ClaimSource) (date : Nat) : Bool :=
  match (t.bedClaimId bedId date).join with
  | none => true
  | some id => (t.claim? id).any fun c => exclude.contains c.source

def assertNightAvailable (t : InventoryTables) (unitId : Nat) (exclude : List ClaimSource) (date : Nat) :
    Except Thrown Unit := do
  require (blockers.awaitingDeparture date = false)
    (inventoryConflict "An in-house Stay is awaiting departure on " date)
  require (blockers.deferredUnavailable date = false) (inventoryConflict "Inventory is unavailable on " date)
  let pointer ← expect .failure (t.wholeClaimId (cat.roomId unitId) date)
  require ((pointer.bind t.claim?).all fun c => exclude.contains c.source)
    (inventoryConflict "Inventory is unavailable on " date)
  match cat.kind unitId with
  | .room =>
      require (occupiedBeds cat t (cat.roomId unitId) exclude date = [])
        (inventoryConflict "A bed is occupied on " date)
  | .bed =>
      require (bedFree t unitId exclude date) (inventoryConflict "Bed is unavailable on " date)

def assertUnitAvailable (t : InventoryTables) (unitId : Nat) (exclude : List ClaimSource)
    (dates : List Nat) : Except Thrown Unit :=
  checkAll (assertNightAvailable cat blockers t unitId exclude) dates

def newClaim (unitId : Nat) (source : ClaimSource) (newId : Nat → Nat) (date : Nat) : Claim :=
  ⟨newId date, cat.roomId unitId, unitId, date, source, true⟩

def claimNight (unitId : Nat) (source : ClaimSource) (newId : Nat → Nat) (date : Nat) : List InventoryWrite :=
  match cat.kind unitId with
  | .room => [.insertClaim (newClaim cat unitId source newId date),
      .setWhole (cat.roomId unitId) date (some (newId date))]
  | .bed => [.insertClaim (newClaim cat unitId source newId date), .insertBedDay unitId date,
      .setBed unitId date (some (newId date))]

def createInventoryClaims (t : InventoryTables) (unitId : Nat) (dates : List Nat) (source : ClaimSource)
    (exclude : List ClaimSource) (newId : Nat → Nat) : Except Thrown (List InventoryWrite) := do
  assertUnitAvailable cat blockers t unitId exclude dates
  require ((dates.map newId).Nodup ∧ ∀ date ∈ dates, t.claim? (newId date) = none) .failure
  return dates.flatMap (claimNight cat unitId source newId)

def releaseClaim (message : String) (t : InventoryTables) (claim : Claim) :
    Except Thrown (List InventoryWrite) :=
  match cat.kind claim.unitId with
  | .room => do
      require (t.wholeClaimId claim.roomId claim.serviceDate = some (some claim.id)) (damagedPointer message)
      return [.setWhole claim.roomId claim.serviceDate none, .deactivate claim]
  | .bed => do
      require (t.bedClaimId claim.unitId claim.serviceDate = some (some claim.id)) (damagedPointer message)
      return [.setBed claim.unitId claim.serviceDate none, .deactivate claim]

def releaseEach (message : String) : InventoryTables → List Claim → Except Thrown (List InventoryWrite)
  | _, [] => .ok []
  | t, claim :: rest => do
      let ws ← releaseClaim cat message t claim
      let more ← releaseEach message ((inventoryAccess cat).applyAll ws t) rest
      return ws ++ more

def claimOrder (a b : Claim) : Bool :=
  a.roomId < b.roomId || (a.roomId == b.roomId &&
    (a.serviceDate < b.serviceDate || (a.serviceDate == b.serviceDate && a.id ≤ b.id)))

def InventoryTables.activeClaims (t : InventoryTables) (sourceType : ClaimSourceType)
    (sources : List ClaimSource) (onDate : Nat → Bool) : List Claim :=
  (t.claims.filter fun c => c.source.type = sourceType && sources.contains c.source && c.active &&
    onDate c.serviceDate).mergeSort claimOrder

def releaseInventoryClaims (t : InventoryTables) (sourceType : ClaimSourceType)
    (sources : List ClaimSource) (fromDate : Option Nat) : Except Thrown (List InventoryWrite) :=
  releaseEach cat "库存占用指针损坏，不能释放库存" t
    (t.activeClaims sourceType sources fun date => fromDate.all (· ≤ date))

def releaseInventoryClaimsOnDates (t : InventoryTables) (sourceType : ClaimSourceType)
    (sources : List ClaimSource) (dates : List Nat) : Except Thrown (List InventoryWrite) :=
  releaseEach cat "库存占用指针损坏，不能调整住宿日期" t
    (t.activeClaims sourceType sources fun date => dates.contains date)

/-! ## The callers -/

/-- `loadActiveStayTimeline`: one active claim of the order on each of its nights and no other. -/
def loadActiveStayTimeline (t : InventoryTables) (orderId : Nat) (row : OrderStay) :
    Except Thrown (List StayTimelineItem) := do
  let claims := t.activeClaims .orderSegment (row.sources orderId) fun _ => true
  let expectedDates := serviceDates row.arrivalDate row.departureDate
  require (row.arrivalDate < row.departureDate) .failure
  require (∀ c ∈ claims, c.serviceDate ∈ expectedDates)
    (damagedPointer "Stay inventory timeline has active Claims outside the order interval")
  expectedDates.mapM fun date =>
    match claims.filter fun c => c.serviceDate = date with
    | [claim] => .ok ⟨date, claim.unitId⟩
    | _ => .error (damagedPointer ("Stay inventory timeline is invalid on " ++ isoDate date))

/-- `addedByUnit`: the added nights of each unit, in the order of the units' first nights. -/
def addedByUnit (added : List StayTimelineItem) : List (Nat × List Nat) :=
  (added.map StayTimelineItem.inventoryUnitId).eraseDups.map fun unitId =>
    (unitId, (added.filter fun item => item.inventoryUnitId = unitId).map StayTimelineItem.serviceDate)

def createEach (source : ClaimSource) (exclude : List ClaimSource) (newId : Nat → Nat) :
    InventoryTables → List (Nat × List Nat) → Except Thrown (List InventoryWrite)
  | _, [] => .ok []
  | t, (unitId, dates) :: rest => do
      let ws ← createInventoryClaims cat blockers t unitId dates source exclude newId
      let more ← createEach source exclude newId ((inventoryAccess cat).applyAll ws t) rest
      return ws ++ more

def invalidOrderState : Thrown := .domain (domainError .invalidOrderState "Order state does not allow the change")

def completeOrThrow (timeline : List StayTimelineItem) (arrivalDate departureDate : Nat) :
    Except Thrown Unit :=
  (assertCompleteTimeline timeline arrivalDate departureDate).mapError .domain

/-- The inventory part of RESCHEDULE_STAY, EXTEND_STAY and MOVE_UNIT; the first two and the last
name an inexact release differently. -/
def changeStay (inexact : String) (t : InventoryTables) (orderId segmentId arrivalDate departureDate : Nat)
    (after : List StayTimelineItem) (newId : Nat → Nat) : Except Thrown (List InventoryWrite) := do
  let row ← expect invalidOrderState (t.orders orderId)
  require (row.occupying = true) invalidOrderState
  require (segmentId ∉ row.segments) .failure
  let before ← loadActiveStayTimeline t orderId row
  completeOrThrow after arrivalDate departureDate
  let diff := timelinePairDiff before after
  let sources := row.sources orderId
  let releasedDates := diff.released.map StayTimelineItem.serviceDate
  let moved := InventoryWrite.putOrder orderId
    { row with arrivalDate := arrivalDate, departureDate := departureDate, segments := segmentId :: row.segments }
  let written := moved.apply t
  let released ← releaseInventoryClaimsOnDates cat written .orderSegment sources releasedDates
  require ((written.activeClaims .orderSegment sources fun date => releasedDates.contains date).length =
    diff.released.length) (damagedPointer inexact)
  let added ← createEach cat blockers (.segment orderId segmentId) (.segment orderId segmentId :: sources)
    newId ((inventoryAccess cat).applyAll released written) (addedByUnit diff.added)
  return moved :: released ++ added

/-- The inventory part of CORRECT_HISTORICAL_STAY_ARRANGEMENTS. -/
def correctHistoricalStay (t : InventoryTables) (orderId segmentId unitId arrivalDate departureDate : Nat)
    (newId : Nat → Nat) : Except Thrown (List InventoryWrite) := do
  let row ← expect invalidOrderState (t.orders orderId)
  require (row.occupying = false) invalidOrderState
  require (segmentId ∉ row.segments) .failure
  require (arrivalDate < departureDate) .failure
  let source := ClaimSource.segment orderId segmentId
  let moved := InventoryWrite.putOrder orderId
    { row with arrivalDate := arrivalDate, departureDate := departureDate, segments := segmentId :: row.segments }
  let written := moved.apply t
  let created ← createInventoryClaims cat blockers written unitId (serviceDates arrivalDate departureDate)
    source (source :: row.sources orderId) newId
  let released ← releaseInventoryClaims cat ((inventoryAccess cat).applyAll created written)
    .orderSegment [source] none
  return moved :: created ++ released

inductive InventoryProgram where
  | lockRoomDay (roomId serviceDate : Nat)
  | createOrder (orderId segmentId arrivalDate departureDate : Nat)
  | reopenOrder (orderId segmentId arrivalDate departureDate : Nat)
  | closeOrder (orderId : Nat)
  | shortenStay (orderId departureDate : Nat)
  | createClaims (unitId : Nat) (source : ClaimSource) (arrivalDate departureDate : Nat)
      (chosen : Nat → Bool) (newId : Nat → Nat)
  | releaseClaims (sourceType : ClaimSourceType) (sources : List ClaimSource) (fromDate : Option Nat)
  | releaseClaimsOnDates (sourceType : ClaimSourceType) (sources : List ClaimSource) (dates : List Nat)
  | changeStay (inexact : String) (orderId segmentId arrivalDate departureDate : Nat)
      (after : List StayTimelineItem) (newId : Nat → Nat)
  | correctHistoricalStay (orderId segmentId unitId arrivalDate departureDate : Nat) (newId : Nat → Nat)

/-- A segment claims nights only while its order is reserved or checked in. -/
def assertSourceOccupying (t : InventoryTables) : ClaimSource → Except Thrown Unit
  | .segment orderId segmentId => do
      let row ← expect invalidOrderState (t.orders orderId)
      require (row.occupying = true ∧ segmentId ∈ row.segments) invalidOrderState
  | .maintenance _ | .internalUse _ => .ok ()

def InventoryProgram.run (t : InventoryTables) : InventoryProgram → Except Thrown (List InventoryWrite)
  | .lockRoomDay roomId date => .ok [.insertRoomDay roomId date]
  | .createOrder orderId segmentId arrivalDate departureDate => do
      require (t.orders orderId = none) .failure
      return [.putOrder orderId ⟨arrivalDate, departureDate, true, [segmentId]⟩]
  | .reopenOrder orderId segmentId arrivalDate departureDate => do
      let row ← expect invalidOrderState (t.orders orderId)
      require (row.occupying = false) invalidOrderState
      return [.putOrder orderId ⟨arrivalDate, departureDate, true, segmentId :: row.segments⟩]
  | .closeOrder orderId => do
      let row ← expect invalidOrderState (t.orders orderId)
      let released ← releaseInventoryClaims cat t .orderSegment (row.sources orderId) none
      return released ++ [.putOrder orderId { row with occupying := false }]
  | .shortenStay orderId departureDate => do
      let row ← expect invalidOrderState (t.orders orderId)
      let released ← releaseInventoryClaimsOnDates cat t .orderSegment (row.sources orderId)
        (serviceDates departureDate row.departureDate)
      return released ++ [.putOrder orderId { row with departureDate := departureDate }]
  | .createClaims unitId source arrivalDate departureDate chosen newId => do
      assertSourceOccupying t source
      createInventoryClaims cat blockers t unitId ((serviceDates arrivalDate departureDate).filter chosen)
        source [] newId
  | .releaseClaims sourceType sources fromDate => releaseInventoryClaims cat t sourceType sources fromDate
  | .releaseClaimsOnDates sourceType sources dates =>
      releaseInventoryClaimsOnDates cat t sourceType sources dates
  | .changeStay inexact orderId segmentId arrivalDate departureDate after newId =>
      GreenPms.changeStay cat blockers inexact t orderId segmentId arrivalDate departureDate after newId
  | .correctHistoricalStay orderId segmentId unitId arrivalDate departureDate newId =>
      GreenPms.correctHistoricalStay cat blockers t orderId segmentId unitId arrivalDate departureDate newId

/-- A transaction runs a program on its view with every room day that it writes locked before. -/
def InventoryCall (t : InventoryTables) (held : List InventoryResource) (ws : List InventoryWrite) : Prop :=
  ∃ (program : InventoryProgram) (blockers : UnitBlockers), program.run cat blockers t = .ok ws ∧
    ∀ w ∈ ws, ∀ roomId date, .roomDay roomId date ∈ w.touches cat → .roomDay roomId date ∈ held

def InventoryTables.empty : InventoryTables := ⟨[], fun _ _ => none, fun _ _ => none, fun _ => none⟩

def inventorySystem :
    TransitionSystem.System (LockedStore.State InventoryTables InventoryWrite InventoryResource)
      (LockedStore.Event InventoryResource) :=
  LockedStore.system (inventoryAccess cat) (InventoryCall cat)
    fun t => t = .empty

end

end GreenPms
