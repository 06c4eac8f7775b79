import Mathlib
import GreenPms.Command.Types
import GreenPms.Inventory.Tables
import GreenPms.Library.Checked
import GreenPms.Library.Versions

/-! # The room catalog of a property

A physical room is an asset, and each change of its structure makes a new version of it: the units of
the old version are retired and new ones are inserted. A rename only overlays the codes that are shown.
Before the first change the room types are read off the inventory.
-/

namespace GreenPms

abbrev Label := List Char

instance : LawfulBEq Label := inferInstance

/-- The order of code points, which stands for `localeCompare` and for the collation of the database. -/
def labelLe : Label → Label → Bool
  | [], _ => true
  | _ :: _, [] => false
  | a :: as, b :: bs => if a = b then labelLe as bs else a < b

inductive InventoryBasis where
  | independent | wholeRoomCombination
  deriving DecidableEq, Repr

structure CatalogUnit where
  id : Label
  kind : InventoryUnitKind
  parentRoomId : Option Label
  code : Label
  name : Label
  active : Bool
  buildingCode : Option Label
  roomTypeCode : Option Label
  pricingProductCode : Option Label
  inventoryBasis : Option InventoryBasis
  physicalBedCount : Option Nat
  occupancyCapacity : Nat
  deriving DecidableEq, Repr

structure RoomTypeProduct where
  code : Label
  kind : InventoryUnitKind
  multiplier : Nat
  deriving DecidableEq, Repr

inductive Bathroom where
  | privateBath | sharedBath
  deriving DecidableEq, Repr

structure ManagedRoomType where
  code : Label
  name : Label
  bathroom : Bathroom
  saleMode : InventoryUnitKind
  bedCount : Nat
  capacity : Nat
  active : Bool
  products : List RoomTypeProduct
  deriving DecidableEq, Repr

structure ManagedBed where
  id : Label
  code : Label
  active : Bool
  deriving DecidableEq, Repr

structure ManagedRoom where
  includedInOperatingStatistics : Bool
  assetId : Label
  unitId : Label
  code : Label
  buildingCode : Label
  typeCode : Label
  bedCount : Nat
  capacity : Nat
  active : Bool
  beds : List ManagedBed
  deriving DecidableEq, Repr

structure RoomRateAnchors where
  one : Nat
  seven : Nat
  fourteen : Nat
  thirty : Nat
  deriving DecidableEq, Repr

structure RoomRateChange where
  id : Label
  typeCode : Label
  effectiveFrom : Nat
  anchors : RoomRateAnchors
  version : Nat
  deriving DecidableEq, Repr

/-- `unitCodes` shows a unit under another code than its own; the first entry of a unit counts. -/
structure RoomCatalogSnapshot where
  version : Nat
  types : List ManagedRoomType
  rates : List RoomRateChange
  buildingOrder : List Label
  unitCodes : List (Label × Label)
  deriving DecidableEq, Repr

structure RoomCatalogLink where
  unitId : Label
  assetId : Label
  version : Nat
  deriving DecidableEq, Repr

structure RoomClaim where
  id : Nat
  roomId : Label
  unitId : Label
  active : Bool
  deriving DecidableEq, Repr

abbrev PriceTable := List (Label × RoomRateAnchors)

/-- A price policy by duration band, outside the catalog. It has a start and prices something. -/
structure DurationPolicy where
  id : Label
  version : Nat
  effectiveFrom : Nat
  effectiveUntil : Option Nat
  anchors : PriceTable
  interval : ∀ until_ ∈ effectiveUntil, effectiveFrom < until_
  priced : anchors ≠ []

structure CatalogPolicy where
  id : Label
  effectiveFrom : Nat
  anchors : PriceTable
  deriving DecidableEq, Repr

structure RoomCatalogHead where
  effectiveFrom : Nat
  policyId : Label
  deriving DecidableEq, Repr

/-- The rows of one property. `stored` is the snapshot of the last change; `policies` are those that
the catalog has published. -/
structure CatalogTables where
  units : List CatalogUnit
  stored : Option RoomCatalogSnapshot
  links : List RoomCatalogLink
  policies : List CatalogPolicy
  heads : List RoomCatalogHead
  statistics : List (Label × Bool)
  claims : List RoomClaim
  deriving DecidableEq, Repr

/-- What a catalog is managed over: the policies it starts from, and the names that the import and the
inventory give a room type. -/
structure CatalogSettings where
  baselines : List DurationPolicy
  typeName : Label → CatalogUnit → Label

def displayCode (unitCodes : List (Label × Label)) (unit : CatalogUnit) : Label :=
  (unitCodes.lookup unit.id).getD unit.code

namespace CatalogTables

variable (t : CatalogTables)

def inventoryRows : List CatalogUnit :=
  t.units.insertionSort fun a b => if a.code = b.code then labelLe a.id b.id = true else labelLe a.code b.code = true

def unitCodes : List (Label × Label) := (t.stored.map (·.unitCodes)).getD []

def linkByUnit (unitId : Label) : Option RoomCatalogLink := t.links.find? (·.unitId = unitId)

def latestByAsset (assetId : Label) : Option RoomCatalogLink :=
  Versions.latest (·.assetId) (·.version) assetId t.links

def assetId (unitId : Label) : Label := ((t.linkByUnit unitId).map (·.assetId)).getD unitId

/-- A room that no link names is its own asset and its current version. -/
def isCurrent (unitId : Label) : Bool :=
  match t.linkByUnit unitId with
  | none => true
  | some link => (t.latestByAsset link.assetId).map (·.unitId) = some unitId

def beds (roomId : Label) : List CatalogUnit := t.inventoryRows.filter (·.parentRoomId = some roomId)

def managedRoom (room : CatalogUnit) : ManagedRoom where
  includedInOperatingStatistics := (t.statistics.lookup (t.assetId room.id)).getD true
  assetId := t.assetId room.id
  unitId := room.id
  code := displayCode t.unitCodes room
  buildingCode := room.buildingCode.getD []
  typeCode := room.roomTypeCode.getD []
  bedCount := room.physicalBedCount.getD 1
  capacity := room.occupancyCapacity
  active := room.active
  beds := (t.beds room.id).map fun bed => ⟨bed.id, displayCode t.unitCodes bed, bed.active⟩

def currentRooms : List CatalogUnit := t.inventoryRows.filter fun unit => unit.kind = .room ∧ t.isCurrent unit.id

def rooms : List ManagedRoom := t.currentRooms.map t.managedRoom

end CatalogTables

/-- The products of a type, in the order of the units that name them. -/
def derivedProducts (saleMode : InventoryUnitKind) (roomBedCount : Nat) (members : List CatalogUnit) :
    List RoomTypeProduct :=
  members.foldl (fun products item =>
    match item.pricingProductCode with
    | none => products
    | some code =>
        if code = [] ∨ products.any (·.code = code) then products
        else products ++ [⟨code, item.kind,
          if item.kind = .room ∧ saleMode = .bed then item.physicalBedCount.getD roomBedCount else 1⟩]) []

def derivedType (settings : CatalogSettings) (rows rooms : List CatalogUnit) (code : Label) (room : CatalogUnit) :
    ManagedRoomType :=
  let saleMode := if room.inventoryBasis = some .wholeRoomCombination then .bed else .room
  let bedCount := room.physicalBedCount.getD 1
  { code
    name := settings.typeName code room
    bathroom := if ['p', 'r', 'i', 'v', 'a', 't', 'e'] <:+: code then .privateBath else .sharedBath
    saleMode
    bedCount
    capacity := room.occupancyCapacity
    active := rooms.any fun item => item.roomTypeCode.getD [] = code ∧ item.active
    products := derivedProducts saleMode bedCount (rows.filter (·.roomTypeCode = some code)) }

def derivedTypes (settings : CatalogSettings) (rows rooms : List CatalogUnit) : List ManagedRoomType :=
  let types := rooms.foldl (fun types room =>
    let code := room.roomTypeCode.getD []
    if code = [] ∨ types.any (·.code = code) then types else types ++ [derivedType settings rows rooms code room]) []
  types.insertionSort fun a b => labelLe a.code b.code

def resolveBuildingOrder (rooms : List CatalogUnit) (saved : List Label) : List Label :=
  ((saved ++ rooms.map fun room => room.buildingCode.getD []).filter (· ≠ [])).eraseDups

/-- The snapshot that readers see: the stored one, or the one that the inventory gives. -/
def CatalogTables.snapshot (t : CatalogTables) (settings : CatalogSettings) : RoomCatalogSnapshot :=
  let snapshot := t.stored.getD ⟨0, derivedTypes settings t.inventoryRows t.currentRooms, [], [], []⟩
  { snapshot with
    buildingOrder := resolveBuildingOrder (t.inventoryRows.filter (·.kind = .room)) snapshot.buildingOrder }

end GreenPms
