import Mathlib.Algebra.GroupWithZero.Nat
import GreenPms.Foundation.Dates
import GreenPms.Inventory.Tables

/-! # Daily sales capacity

The lifecycle of the units is replayed from the changes of the catalog, and confirmed evidence moves
the first day of a room that was registered late. The capacity of a day counts the atoms of the
units, and an occupied unit weighs what it holds of them.
-/

namespace GreenPms

structure CapacityUnit where
  id : Nat
  kind : InventoryUnitKind
  parentRoomId : Option Nat
  active : Bool
  buildingCode : Option String
  roomTypeCode : Option String
  createdAt : Nat
  /-- A room has no parent, and a bed has one. -/
  parented : kind = .room ↔ parentRoomId = none
  deriving DecidableEq

structure CapacityRename where
  roomId : Option String
  beforeCode : Option String
  afterCode : Option String
  deriving DecidableEq, Repr

structure CapacityEffect where
  action : Option String
  insertUnits : List Nat
  retireUnitIds : List Nat
  roomRename : Option CapacityRename
  deriving DecidableEq, Repr

/-- A change whose effect does not have the lists of units has no effect here. -/
structure CapacityChange where
  createdAt : Nat
  effect : Option CapacityEffect
  deriving DecidableEq, Repr

structure ConfirmedInventoryAvailability where
  unitId : Nat
  recordedAt : Nat
  availableFrom : Nat
  confirmedOn : Nat
  source : String
  deriving DecidableEq, Repr

structure CapacityInput where
  units : List CapacityUnit
  keyed : (units.map CapacityUnit.id).Nodup
  changes : List CapacityChange
  localDate : Nat → Nat
  confirmations : List ConfirmedInventoryAvailability
  includesUnit : Nat → Bool

/-! ## The scope of the operating statistics -/

structure StatisticsLink where
  unitId : Nat
  assetId : Nat
  deriving DecidableEq, Repr

structure OperatingStatisticsSetting where
  assetId : Nat
  included : Bool
  deriving DecidableEq, Repr

structure OperatingStatisticsScope where
  units : List CapacityUnit
  links : List StatisticsLink
  settings : List OperatingStatisticsSetting

namespace OperatingStatisticsScope

variable (scope : OperatingStatisticsScope)

def byId (id : Nat) : Option CapacityUnit := scope.units.find? fun unit => unit.id = id

def linkedAsset (roomId : Nat) : Nat :=
  ((scope.links.reverse.find? fun link => link.unitId = roomId).map StatisticsLink.assetId).getD roomId

def assetId (unitId : Nat) : Option Nat :=
  let unit := scope.byId unitId
  let room := unit.bind fun u =>
    match u.kind with
    | .room => some u
    | .bed => u.parentRoomId.bind scope.byId
  (room.filter fun r => r.kind = .room).map fun r => scope.linkedAsset r.id

def classifyUnit (unitId : Nat) : Option Bool :=
  (scope.assetId unitId).map fun asset =>
    ((scope.settings.reverse.find? fun setting => setting.assetId = asset).map OperatingStatisticsSetting.included).getD true

def includesUnit (unitId : Nat) : Bool := scope.classifyUnit unitId = some true

end OperatingStatisticsScope

/-! ## The lifecycle of the units -/

structure CapacitySelection where
  building : Option String
  roomType : Option String
  deriving DecidableEq, Repr

structure CapacityLifecycle where
  start : Nat → Option Nat
  finish : Nat → Option Nat
  unsupported : List Nat
  evidenceStart : Nat → Option Nat

structure CapacityDay where
  value : Option Nat
  reason : String
  atoms : List CapacityUnit

def CapacityEffect.pureRename (effect : CapacityEffect) : Bool :=
  effect.action = some "SAVE_ROOM" && effect.roomRename.any fun rename =>
    rename.roomId.isSome && rename.beforeCode.isSome && rename.afterCode.isSome

def setDay (days : Nat → Option Nat) (id day : Nat) : Nat → Option Nat :=
  fun other => if other = id then some day else days other

namespace CapacityInput

variable (input : CapacityInput)

def byId (id : Nat) : Option CapacityUnit := input.units.find? fun unit => unit.id = id

def known (id : Nat) : Bool := input.units.any fun unit => unit.id = id

def supported (effect : CapacityEffect) : Bool :=
  effect.insertUnits.all input.known && effect.retireUnitIds.all input.known &&
    !((effect.action = some "SAVE_ROOM" || effect.action = some "SET_ROOM_ACTIVE") &&
      effect.insertUnits.isEmpty && effect.retireUnitIds.isEmpty && !effect.pureRename)

def replayChange (l : CapacityLifecycle) (change : CapacityChange) : CapacityLifecycle :=
  let day := input.localDate change.createdAt
  match change.effect with
  | none => { l with unsupported := l.unsupported ++ [day] }
  | some effect =>
      if input.supported effect = false then { l with unsupported := l.unsupported ++ [day] }
      else { l with
        start := effect.insertUnits.foldl (fun days id => setDay days id day) l.start
        finish := effect.retireUnitIds.foldl (fun days id => setDay days id day) l.finish }

/-- Evidence counts for a room without beds in the version that was recorded, and only for days
before its registration. -/
def evidenced (l : CapacityLifecycle) (evidence : ConfirmedInventoryAvailability) (unit : CapacityUnit) : Bool :=
  unit.kind = .room && unit.parentRoomId.isNone && (input.units.all fun child => child.parentRoomId ≠ some unit.id) &&
    unit.createdAt = evidence.recordedAt && evidence.source ≠ "" &&
    evidence.availableFrom < input.localDate unit.createdAt &&
    (l.start unit.id).all fun day => day = input.localDate unit.createdAt

def confirm (l : CapacityLifecycle) (evidence : ConfirmedInventoryAvailability) : CapacityLifecycle :=
  match input.byId evidence.unitId with
  | none => l
  | some unit =>
      if input.evidenced l evidence unit then { l with
        start := setDay l.start unit.id evidence.availableFrom
        evidenceStart := setDay l.evidenceStart unit.id evidence.availableFrom }
      else l

/-- The lifecycle of the units: the changes first, and then the evidence. -/
def lifecycle : CapacityLifecycle :=
  input.confirmations.foldl input.confirm
    (input.changes.foldl input.replayChange ⟨fun _ => none, fun _ => none, [], fun _ => none⟩)

def active (unit : CapacityUnit) (date : Nat) : Bool :=
  (input.lifecycle.start unit.id).getD (input.localDate unit.createdAt) ≤ date &&
    match input.lifecycle.finish unit.id with
    | some day => date < day
    | none => unit.active

def roomOf (unit : CapacityUnit) : Option CapacityUnit :=
  match unit.kind with
  | .room => some unit
  | .bed => unit.parentRoomId.bind input.byId

def selects (selection : CapacitySelection) (unit : CapacityUnit) : Bool :=
  let room := input.roomOf unit
  input.includesUnit unit.id &&
    (selection.building.all fun building =>
      building = "" || (room.bind CapacityUnit.buildingCode).getD "未分配" = building) &&
    selection.roomType.all fun roomType =>
      roomType = "" || (unit.roomTypeCode.or (room.bind CapacityUnit.roomTypeCode)).getD "未分配" = roomType

def isAtom (date : Nat) (unit : CapacityUnit) : Bool :=
  input.active unit date && match unit.kind with
    | .bed => (unit.parentRoomId.bind input.byId).any fun room => input.active room date
    | .room => input.units.all fun bed => !(bed.parentRoomId = some unit.id && input.active bed date)

def on (date : Nat) (selection : CapacitySelection) : CapacityDay :=
  let l := input.lifecycle
  let selected := input.units.filter (input.selects selection)
  let beforeEvidence := selected.filter fun unit => (l.evidenceStart unit.id).any fun day => date < day
  let issues := selected.filter fun unit => (l.start unit.id).isNone && date < input.localDate unit.createdAt
  let missingRetirement := selected.any fun unit => !unit.active && (l.finish unit.id).isNone
  let affectedChange := l.unsupported.any fun day => date ≤ day
  let atoms := selected.filter (input.isAtom date)
  {
    value := if beforeEvidence ≠ [] ∨ issues ≠ [] ∨ missingRetirement = true ∨ affectedChange = true then none
      else some atoms.length
    reason :=
      if beforeEvidence ≠ [] then
        isoDate date ++ "：" ++ toString beforeEvidence.length ++ "间补录房源早于已确认使用日期，尚无更早启用依据"
      else if issues ≠ [] then
        isoDate date ++ "：" ++ toString issues.length ++ "条房源记录早于系统登记日期，缺少启用日期依据"
      else if missingRetirement then isoDate date ++ "：停用房源缺少有效变更记录"
      else if affectedChange then isoDate date ++ "：房源变更记录不完整"
      else "按每日有效销售单元累计；维修、免费和占用不扣分母"
    atoms }

def children (id date : Nat) : List CapacityUnit :=
  input.units.filter fun bed => bed.parentRoomId = some id && input.active bed date

def weight (id date : Nat) : Option Nat :=
  match input.byId id with
  | none => none
  | some unit =>
      let l := input.lifecycle
      if input.includesUnit id = false then some 0
      else if ((l.start id).any fun day => date < day) || (l.finish id).any fun day => day ≤ date then none
      else if (l.start id).isNone && date < input.localDate unit.createdAt then
        if unit.kind = .bed ∨ (input.units.any fun bed => bed.parentRoomId = some id) = false then some 1 else none
      else if input.active unit date = false then none
      else if unit.kind = .room ∧ input.children id date ≠ [] then some (input.children id date).length
      else some 1

def period (fromDate untilDate : Nat) (selection : CapacitySelection) : Except DomainError (Option Nat × String) := do
  let dates ← enumerateServiceDates fromDate untilDate
  return match dates.find? fun date => (input.on date selection).value.isNone with
    | some date => (none, (input.on date selection).reason)
    | none => (some (dates.map fun date => (input.on date selection).value.getD 0).sum,
        "逐日销售单元合计；维修、免费和占用不扣分母")

end CapacityInput

end GreenPms
