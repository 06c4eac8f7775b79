import Mathlib.Data.List.Sort
import GreenPms.Inventory.Tables
import GreenPms.Library.Checked
import GreenPms.Library.Totals

/-! # Coverage and the entitlement ledger

A lot of member nights, the nights of orders that it covers, and the append-only ledger of what
was added to it or taken from it, newest first. Every operation on coverage sets the status of an
item and writes the ledger apart.
-/

namespace GreenPms

open Checked Totals

inductive EntitlementUnitKind where
  | roomNight | bedNight
  deriving DecidableEq, Repr

def entitlementKindFor : InventoryUnitKind → EntitlementUnitKind
  | .room => .roomNight
  | .bed => .bedNight

structure MemberContract where
  id : Nat
  memberId : Nat
  active : Bool
  validFrom : Nat
  validUntil : Nat
  deriving DecidableEq, Repr

structure MembershipOrder where
  id : Nat
  memberId : Nat
  allowedRoomTypeCode : Nat
  allowedInventoryKind : InventoryUnitKind
  entitlementUnitKind : EntitlementUnitKind
  deriving DecidableEq, Repr

/-- A lot of a contract; `membershipOrder` is the active membership order that it was sold by. -/
structure EntitlementLot where
  id : Nat
  contractId : Nat
  unitKind : EntitlementUnitKind
  totalUnits : Nat
  expiresOn : Nat
  active : Bool
  membershipOrder : Option MembershipOrder
  deriving DecidableEq, Repr

inductive CoverageStatus where
  | held | consumed | released
  deriving DecidableEq, Repr

structure CoverageItem where
  id : Nat
  orderId : Nat
  contractId : Nat
  lotId : Nat
  inventoryUnitId : Nat
  serviceDate : Nat
  unitKind : EntitlementUnitKind
  status : CoverageStatus
  deriving DecidableEq, Repr

inductive LedgerEntryType where
  | adjust | hold | release | consume | restore | expire | conversionConsume | void
  deriving DecidableEq, Repr

structure LedgerFact where
  lotId : Nat
  entryType : LedgerEntryType
  quantityDelta : Int
  serviceDate : Option Nat
  orderId : Option Nat
  coverageId : Option Nat
  reason : String
  commandId : Nat
  deriving DecidableEq, Repr

/-- `CoverageItemDto`: a night that pricing covers. -/
structure CoveredNight where
  serviceDate : Nat
  inventoryUnitId : Nat
  unitKind : EntitlementUnitKind
  entitlementLotId : Nat
  deriving DecidableEq, Repr

/-- The order that coverage is for, with its member or, where it has none, its contract. -/
structure CoverageOwner where
  orderId : Nat
  contractId : Option Nat
  memberId : Option Nat

def CoverageOwner.owns (owner : CoverageOwner) (contract : MemberContract) : Bool :=
  match owner.memberId with
  | some memberId => contract.memberId = memberId
  | none => owner.contractId = some contract.id

/-- Coverage rows are never deleted, so their number is a new identity. -/
structure EntitlementTables where
  members : List Nat
  contracts : List MemberContract
  lots : List EntitlementLot
  lots_keyed : (lots.map EntitlementLot.id).Nodup
  coverage : List CoverageItem
  ledger : List LedgerFact

def CoverageItem.isActive (c : CoverageItem) : Bool := c.status ≠ .released

def CoverageItem.update (coverageId : Nat) (status : CoverageStatus) (c : CoverageItem) : CoverageItem :=
  if c.id = coverageId then { c with status := status } else c

def CoverageItem.fact (c : CoverageItem) (type : LedgerEntryType) (delta : Int) (reason : String)
    (commandId : Nat) : LedgerFact :=
  ⟨c.lotId, type, delta, some c.serviceDate, some c.orderId, some c.id, reason, commandId⟩

def entitlementConflict (message : String) : Thrown := .domain (domainError .entitlementConflict message)
def internalFailure (message : String) : Thrown := .domain (domainError .internalError message)

def byServiceDate (items : List CoverageItem) : List CoverageItem :=
  items.insertionSort fun a b => a.serviceDate ≤ b.serviceDate

namespace EntitlementTables

variable (t : EntitlementTables)

def findLot (lotId : Nat) : Option EntitlementLot := t.lots.find? fun lot => lot.id = lotId

def findContract (contractId : Nat) : Option MemberContract :=
  t.contracts.find? fun contract => contract.id = contractId

def ledgerDelta (lotId : Nat) : Int := total (fun f => f.lotId = lotId) LedgerFact.quantityDelta t.ledger

def availableBalance (lot : EntitlementLot) : Int := lot.totalUnits + t.ledgerDelta lot.id

def lotBalance (lotId : Nat) : Int := ((t.findLot lotId).map t.availableBalance).getD 0

/-- `entitlementAvailableBalance`: a balance outside the integer range is refused. -/
def boundedBalance (balance : Int) : Except Thrown Int := do
  require (0 ≤ balance ∧ balance ≤ 2147483647)
    (entitlementConflict "Entitlement available balance must remain within the PostgreSQL integer range")
  return balance

def expired (lotId : Nat) : Bool := t.ledger.any fun f => f.lotId = lotId && f.entryType = .expire

def ofOrder (orderId : Nat) (p : CoverageItem → Bool) : List CoverageItem :=
  byServiceDate (t.coverage.filter fun c => c.orderId = orderId && p c)

def activeCoverage (orderId : Nat) : List CoverageItem := t.ofOrder orderId CoverageItem.isActive

/-! ## Writes -/

def record (f : LedgerFact) : EntitlementTables := { t with ledger := f :: t.ledger }

def setStatus (coverageId : Nat) (status : CoverageStatus) : EntitlementTables :=
  { t with coverage := t.coverage.map (CoverageItem.update coverageId status) }

def newItem (orderId contractId : Nat) (night : CoveredNight) (status : CoverageStatus) : CoverageItem :=
  ⟨t.coverage.length, orderId, contractId, night.entitlementLotId, night.inventoryUnitId, night.serviceDate,
    night.unitKind, status⟩

def insert (c : CoverageItem) (f : LedgerFact) : EntitlementTables :=
  { t with coverage := c :: t.coverage, ledger := f :: t.ledger }

def hold (orderId contractId commandId : Nat) (night : CoveredNight) : EntitlementTables :=
  let item := t.newItem orderId contractId night .held
  t.insert item (item.fact .hold (-1) "ORDER_COVERAGE_HOLD" commandId)

/-- A released night of a lot that has expired meanwhile expires at once. -/
def release (commandId : Nat) (lapses : CoverageItem → Bool) (c : CoverageItem) : EntitlementTables :=
  let released := (t.setStatus c.id .released).record
    (c.fact .release 1 "ORDER_COVERAGE_RELEASE" commandId)
  if lapses c then released.record (c.fact .expire (-1) "RELEASE_AFTER_EXPIRY" commandId)
  else released

def consume (commandId : Nat) (reason : String) (c : CoverageItem) : EntitlementTables :=
  (t.setStatus c.id .consumed).record (c.fact .consume 0 reason commandId)

def restore (commandId : Nat) (c : CoverageItem) : EntitlementTables :=
  t.record (c.fact .restore 1 "REVOKE_CHECK_IN_ENTITLEMENT_RESTORED" commandId)

def restoreFuture (commandId : Nat) (c : CoverageItem) : EntitlementTables :=
  (t.record (c.fact .restore 1 "SHORTEN_STAY_FUTURE_ENTITLEMENT_RESTORED" commandId)).setStatus
    c.id .released

/-! ## Operations -/

def foreignLot : Thrown := entitlementConflict "会员权益不属于本次住宿选择的会员"

def lotOwner (owner : CoverageOwner) (lotId : Nat) : Except Thrown EntitlementLot := do
  let lot ← expect foreignLot (t.findLot lotId)
  let contract ← expect foreignLot (t.findContract lot.contractId)
  require (owner.owns contract = true) foreignLot
  return lot

/-- The owner of a lot holds the contract that a covered night is held under. -/
def coverageMatches (c : CoverageItem) (night : CoveredNight) : Bool :=
  ((t.findLot night.entitlementLotId).any fun lot => c.contractId = lot.contractId) &&
    c.lotId = night.entitlementLotId && c.inventoryUnitId = night.inventoryUnitId && c.unitKind = night.unitKind

def contractOf (lotId : Nat) : Nat := ((t.findLot lotId).map EntitlementLot.contractId).getD 0

def holdNight (owner : CoverageOwner) (commandId : Nat) (t : EntitlementTables) (night : CoveredNight) :
    Except Thrown EntitlementTables := do
  let lot ← t.lotOwner owner night.entitlementLotId
  match t.coverage.find? fun c => c.orderId = owner.orderId && c.serviceDate = night.serviceDate && c.isActive with
  | some existing => do
      require (t.coverageMatches existing night = true)
        (entitlementConflict "Active coverage differs from the requested coverage")
      return t
  | none => return t.hold owner.orderId lot.contractId commandId night

def holdCoverage (owner : CoverageOwner) (coverageSet : List CoveredNight) (commandId : Nat) :
    Except Thrown EntitlementTables :=
  coverageSet.foldlM (holdNight owner commandId) t

def covers (c : CoverageItem) (night : CoveredNight) : Bool :=
  night.serviceDate = c.serviceDate && t.coverageMatches c night

def unwanted (orderId : Nat) (coverageSet : List CoveredNight) : List CoverageItem :=
  (t.activeCoverage orderId).filter fun c => c.status = .held && !coverageSet.any (t.covers c)

def missing (orderId : Nat) (coverageSet : List CoveredNight) : List CoveredNight :=
  coverageSet.filter fun night => !(t.activeCoverage orderId).any fun c => t.covers c night

def lapses (reheld : List CoveredNight) (c : CoverageItem) : Bool :=
  t.expired c.lotId && !reheld.any fun night =>
    night.serviceDate = c.serviceDate && night.entitlementLotId = c.lotId

/-- The dates that are planned so far, with one more night of a lot of the owner. -/
def planNight (owner : CoverageOwner) (dates : List Nat) (night : CoveredNight) : Except Thrown (List Nat) := do
  require (night.serviceDate ∉ dates) (internalFailure "Pricing produced duplicate coverage")
  let _ ← t.lotOwner owner night.entitlementLotId
  return night.serviceDate :: dates

def reconcileCoverage (owner : CoverageOwner) (coverageSet : List CoveredNight) (commandId : Nat) :
    Except Thrown EntitlementTables := do
  let _ ← coverageSet.foldlM (t.planNight owner) []
  require (∀ c ∈ t.activeCoverage owner.orderId, c.status = .consumed → ∀ night ∈ coverageSet,
      night.serviceDate = c.serviceDate → t.coverageMatches c night = true)
    (entitlementConflict "A pricing revision cannot rewrite consumed coverage")
  let released := (t.unwanted owner.orderId coverageSet).foldl
    (fun u c => u.release commandId (t.lapses coverageSet) c) t
  return (t.missing owner.orderId coverageSet).foldl
    (fun u night => u.hold owner.orderId (t.contractOf night.entitlementLotId) commandId night) released

structure ReleaseOptions where
  fromDate : Option Nat
  incompatibleUnitKind : Option EntitlementUnitKind
  reholdCoverageSet : List CoveredNight

def releaseCoverage (orderId commandId : Nat) (options : ReleaseOptions) : EntitlementTables :=
  (t.ofOrder orderId fun c => c.status = .held && options.fromDate.all (· ≤ c.serviceDate) &&
      options.incompatibleUnitKind.all (c.unitKind ≠ ·)).foldl
    (fun u c => u.release commandId (t.lapses options.reholdCoverageSet) c) t

def requestedDates (dates : List Nat) : List Nat := dates.dedup.insertionSort (· ≤ ·)

def consumeCoverage (orderId commandId : Nat) (serviceDates : Option (List Nat)) (reason : String) :
    Except Thrown EntitlementTables := do
  let items := t.ofOrder orderId fun c => c.status = .held && serviceDates.all (·.contains c.serviceDate)
  require (∀ dates ∈ serviceDates, items.map CoverageItem.serviceDate = requestedDates dates)
    (internalFailure "续住新增权益与待核销日期不一致")
  return items.foldl (fun u c => u.consume commandId reason c) t

/-- How often the ledger has an entry of some type for a coverage item. -/
def entries (coverageId : Nat) (types : List LedgerEntryType) : Nat :=
  t.ledger.countP fun f => f.coverageId = some coverageId && types.contains f.entryType

def restoreConsumedCoverage (orderId commandId : Nat) : Except Thrown EntitlementTables := do
  let items := t.ofOrder orderId fun c => c.status = .consumed
  require (∀ c ∈ items, t.entries c.id [.consume] ≠ 0 ∧ t.entries c.id [.restore] = 0)
    (entitlementConflict "会员权益核销历史不能安全补偿")
  return items.foldl (fun u c => u.restore commandId c) t

def restoreFutureConsumedCoverage (orderId commandId : Nat) (serviceDates : List Nat) :
    Except Thrown EntitlementTables := do
  let items := t.ofOrder orderId fun c => serviceDates.contains c.serviceDate && c.status = .consumed
  require (items.map CoverageItem.serviceDate = requestedDates serviceDates)
    (entitlementConflict "缩短住宿的未来已核销权益与核对结果不一致")
  require (∀ c ∈ items, t.entries c.id [.consume, .conversionConsume] = 1 ∧ t.entries c.id [.restore] = 0)
    (entitlementConflict "缩短住宿的会员权益核销历史不能安全返还")
  return items.foldl (fun u c => u.restoreFuture commandId c) t

end EntitlementTables

end GreenPms
