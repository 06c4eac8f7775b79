import GreenPms.Catalog.Rates
import GreenPms.Foundation.Text
import GreenPms.Pricing.Policy
import GreenPms.Stay.Orders

/-! # The actions of the room catalog

An action is prepared as an effect over the catalog that is read: the snapshot after it, the units to
retire and to insert, and the policies to publish.
-/

namespace GreenPms

open Checked

inductive RoomCatalogAction where
  | saveType | deleteType | setTypeActive | saveRoom | renameRoom | setRoomActive | publishRates
  | setBuildingOrder | setOperatingStatistics
  deriving DecidableEq, Repr

structure RoomCatalogInput where
  expectedVersion : Nat
  action : RoomCatalogAction
  typeCode : Option Label
  name : Option Label
  bathroom : Option Bathroom
  saleMode : Option InventoryUnitKind
  bedCount : Option Nat
  capacity : Option Nat
  active : Option Bool
  roomId : Option Label
  code : Option Label
  buildingCode : Option Label
  buildingOrder : Option (List Label)
  assetIds : Option (List Label)
  included : Option Bool
  effectiveFrom : Option Nat
  anchors : Option RoomRateAnchors
  deriving DecidableEq, Repr

/-- What an action reads outside the catalog: the day, what occupies a unit or a room, the room types
that memberships rest on, and the names that its hashes make. -/
structure CatalogContext where
  today : Nat
  held : Label → Bool
  booked : Label → Bool
  maintained : Label → Bool
  internalUse : Label → Bool
  liveMembership : Label → Bool
  membershipProduct : Label → Bool
  suffix : Label
  policyId : Nat → PriceTable → Label

def CatalogContext.typeCode (ctx : CatalogContext) : Label := ['t', 'y', 'p', 'e', '_'] ++ ctx.suffix

structure RoomLink where
  assetId : Label
  oldUnitId : Option Label
  newUnitId : Label
  deriving DecidableEq, Repr

structure RoomRename where
  roomId : Label
  beforeCode : Label
  afterCode : Label
  deriving DecidableEq, Repr

structure OperatingStatisticsChange where
  assetIds : List Label
  included : Bool
  deriving DecidableEq, Repr

structure RoomCatalogEffect where
  action : RoomCatalogAction
  beforeVersion : Nat
  after : RoomCatalogSnapshot
  retireUnitIds : List Label := []
  insertUnits : List CatalogUnit := []
  roomLink : Option RoomLink := none
  policies : List CatalogPolicy := []
  operatingStatisticsChange : Option OperatingStatisticsChange := none
  roomRename : Option RoomRename := none

structure CatalogBasis where
  units : List CatalogUnit
  rooms : List ManagedRoom
  snapshot : RoomCatalogSnapshot
  storedSnapshot : Option RoomCatalogSnapshot
  baselines : List DurationPolicy
  claims : List RoomClaim

def CatalogTables.catalogBasis (t : CatalogTables) (settings : CatalogSettings) : CatalogBasis where
  units := t.inventoryRows
  rooms := t.rooms
  snapshot := t.snapshot settings
  storedSnapshot := t.stored
  baselines := settings.baselineRows
  claims := t.claims

def trim (value : Label) : Label := (value.dropWhile whitespace).rdropWhile whitespace

def text (value : Option Label) (label : String) (max : Nat) : Except Thrown Label := do
  let value ← expect (invalid s!"{label}不能为空且不能超过 {max} 个字符") value
  require (trim value ≠ [] ∧ (trim value).length ≤ max ∧ ∀ c ∈ value, 0x1f < c.toNat)
    (invalid s!"{label}不能为空且不能超过 {max} 个字符")
  return trim value

def count (value : Option Nat) (label : String) : Except Thrown Nat := do
  let value ← expect (invalid s!"{label}须为 1 至 100 的整数") value
  require (1 ≤ value ∧ value ≤ 100) (invalid s!"{label}须为 1 至 100 的整数")
  return value

def flag (value : Option Bool) : Except Thrown Bool := expect (invalid "请选择启用或停用") value

def roomsOccupied : Thrown :=
  .domain (domainError .inventoryConflict "有关联预订、在住、维修或权益占用，请先处理后再调整房型或床位")

def modifyFirst {α : Type} (p : α → Bool) (f : α → α) : List α → List α
  | [] => []
  | x :: xs => if p x then f x :: xs else x :: modifyFirst p f xs

def setType (types : List ManagedRoomType) (code : Label) (f : ManagedRoomType → ManagedRoomType) : List ManagedRoomType :=
  modifyFirst (·.code = code) f types

namespace CatalogBasis

variable (ctx : CatalogContext) (basis : CatalogBasis)

def next : RoomCatalogSnapshot := { basis.snapshot with version := basis.snapshot.version + 1 }

def assertRoomsUnused (rooms : List ManagedRoom) : Except Thrown Unit :=
  let unitIds := rooms.flatMap fun room => room.unitId :: room.beds.map (·.id)
  require (basis.claims.all (fun claim => claim.active = true → ∀ room ∈ rooms, claim.roomId ≠ room.unitId) ∧
      (∀ unitId ∈ unitIds, ctx.held unitId = false ∧ ctx.booked unitId = false ∧ ctx.maintained unitId = false) ∧
      ∀ room ∈ rooms, ctx.internalUse room.unitId = false)
    roomsOccupied

def protectMembershipSupply (affected : List ManagedRoom) (replacementType : Option Label) : Except Thrown Unit :=
  require (∀ room ∈ affected, room.active = true → replacementType ≠ some room.typeCode →
      (∀ other ∈ basis.rooms, other.active = true → other.typeCode = room.typeCode →
        ∃ removed ∈ affected, removed.unitId = other.unitId) →
      ctx.liveMembership room.typeCode = false)
    (entitlementConflict "该房型仍有未到期会员合同，不能停用最后一间适用房源；请先明确会员权益安排")

def retire (rooms : List ManagedRoom) (replacementType : Option Label) : Except Thrown (List Label) := do
  basis.assertRoomsUnused ctx rooms
  basis.protectMembershipSupply ctx rooms replacementType
  return (rooms.flatMap fun room => room.unitId :: room.beds.map (·.id)).insertionSort (labelLe · · = true)

def retireType (active : Bool) (rooms : List ManagedRoom) : Except Thrown (List Label) :=
  if active then return [] else basis.retire ctx rooms none

def retireOld (replacementType : Label) : Option ManagedRoom → Except Thrown (List Label)
  | none => return []
  | some old => basis.retire ctx [old] (some replacementType)

/-- The codes that a rename shows: the room's new one, and that of each bed with the same ending. -/
def renamedCodes (units : List CatalogUnit) (roomId canonicalCode code : Label) : List (Label × Label) :=
  (roomId, code) :: (units.filter (·.parentRoomId = some roomId)).map fun unit =>
    (unit.id, code ++ unit.code.drop canonicalCode.length)

def renameRoom (input : RoomCatalogInput) (room : ManagedRoom) : Except Thrown RoomCatalogEffect := do
  require (room.active = true) (invalid "请先启用房间，再修改房号")
  let code ← text input.code "房号" 60
  require (code ≠ room.code) (invalid "房号和房间配置没有变化")
  let canonical ← expect .failure (basis.units.find? (·.id = room.unitId))
  require (∀ unit ∈ basis.units, unit.parentRoomId = some room.unitId → canonical.code ++ ['-'] <+: unit.code)
    (invalid "床位编号与房号不一致，请先核查房源配置")
  let changes := renamedCodes basis.units room.unitId canonical.code code
  let codes := changes.map Prod.snd
  require ((∀ other ∈ basis.rooms, other.unitId ≠ room.unitId → other.code ≠ code) ∧
      ∀ unit ∈ basis.units, unit.id ∉ changes.map Prod.fst → (unit.active = true ∨ unit.kind = .room) →
        displayCode basis.snapshot.unitCodes unit ∉ codes ∧ unit.code ∉ codes)
    (invalid "房号或床位编号已存在（包括保留的历史编号），请使用其他房号")
  return {
    action := input.action
    beforeVersion := basis.snapshot.version
    after := { basis.storedSnapshot.getD basis.snapshot with
      version := basis.snapshot.version + 1
      unitCodes := changes ++ basis.snapshot.unitCodes }
    roomRename := some ⟨room.unitId, room.code, code⟩ }

def setOperatingStatistics (input : RoomCatalogInput) : Except Thrown RoomCatalogEffect := do
  let assetIds ← expect (invalid "每次请选择一个房间修改分类") input.assetIds
  require (assetIds.length = 1) (invalid "每次请选择一个房间修改分类")
  let included ← flag input.included
  require (∀ id ∈ assetIds, ∃ room ∈ basis.rooms, room.assetId = id) (invalid "统计设置包含不属于本门店的实体房间")
  require (¬ ∀ id ∈ assetIds,
      (basis.rooms.find? (·.assetId = id)).map (·.includedInOperatingStatistics) = some included)
    (invalid "所选房间的统计设置没有变化")
  return {
    action := input.action
    beforeVersion := basis.snapshot.version
    after := { basis.storedSnapshot.getD { basis.snapshot with buildingOrder := [] } with
      version := basis.snapshot.version + 1 }
    operatingStatisticsChange := some ⟨assetIds, included⟩ }

def setBuildingOrder (input : RoomCatalogInput) : Except Thrown RoomCatalogEffect := do
  let order ← expect (invalid "楼栋列表已变化或排序不完整，请刷新后重新调整") input.buildingOrder
  require (order.length = basis.snapshot.buildingOrder.length ∧ order.Nodup ∧
      ∀ code ∈ order, code ∈ basis.snapshot.buildingOrder)
    (invalid "楼栋列表已变化或排序不完整，请刷新后重新调整")
  require (order ≠ basis.snapshot.buildingOrder) (invalid "楼栋顺序没有变化")
  return {
    action := input.action
    beforeVersion := basis.snapshot.version
    after := { basis.next with buildingOrder := order } }

end CatalogBasis

def kindLabel : InventoryUnitKind → Label
  | .room => ['r', 'o', 'o', 'm']
  | .bed => ['b', 'e', 'd']

def RoomTypeProduct.single (typeCode : Label) (saleMode : InventoryUnitKind) : RoomTypeProduct :=
  ⟨typeCode ++ '_' :: kindLabel saleMode, saleMode, 1⟩

namespace ManagedRoomType

variable (type : ManagedRoomType)

def base? : Option RoomTypeProduct := type.products.find? fun product => product.kind = type.saleMode ∧ product.multiplier = 1

def base : RoomTypeProduct := type.base?.getD (.single type.code type.saleMode)

def addedBase : List RoomTypeProduct := if type.base?.isSome then [] else [type.base]

def whole? (bedCount : Nat) : Option RoomTypeProduct :=
  match type.saleMode with
  | .room => some type.base
  | .bed => (type.products ++ type.addedBase).find? fun product => product.kind = .room ∧ product.multiplier = bedCount

def whole (bedCount : Nat) : RoomTypeProduct :=
  (type.whole? bedCount).getD ⟨type.code ++ ['_', 'w', 'h', 'o', 'l', 'e', '_'] ++ Nat.toDigits 10 bedCount, .room, bedCount⟩

/-- The products that a room of the type needs and the type has not. -/
def addedProducts (bedCount : Nat) : List RoomTypeProduct :=
  type.addedBase ++ if (type.whole? bedCount).isSome then [] else [type.whole bedCount]

def withRoom (bedCount : Nat) : ManagedRoomType :=
  { type with products := type.products ++ type.addedProducts bedCount }

end ManagedRoomType

def bedLabel (i : Nat) : Label := if i < 26 then [Char.ofNat (65 + i)] else Nat.toDigits 10 (i + 1)

def roomUnits (type : ManagedRoomType) (roomId code building : Label) (bedCount capacity : Nat) : List CatalogUnit :=
  { id := roomId
    kind := .room
    parentRoomId := none
    code
    name := code ++ ' ' :: type.name
    active := true
    buildingCode := some building
    roomTypeCode := some type.code
    pricingProductCode := some (type.whole bedCount).code
    inventoryBasis := some (match type.saleMode with | .bed => .wholeRoomCombination | .room => .independent)
    physicalBedCount := some bedCount
    occupancyCapacity := capacity } ::
  match type.saleMode with
  | .room => []
  | .bed => (List.range bedCount).map fun i =>
      let bedCode := code ++ '-' :: bedLabel i
      { id := roomId ++ ['_', 'b', 'e', 'd', '_'] ++ Nat.toDigits 10 (i + 1)
        kind := .bed
        parentRoomId := some roomId
        code := bedCode
        name := bedCode ++ ' ' :: type.name
        active := true
        buildingCode := some building
        roomTypeCode := some type.code
        pricingProductCode := some type.base.code
        inventoryBasis := some .independent
        physicalBedCount := none
        occupancyCapacity := 1 }

namespace CatalogBasis

variable (ctx : CatalogContext) (basis : CatalogBasis)

def savedProducts (selectedType : Option ManagedRoomType) (code : Label) (saleMode : InventoryUnitKind) :
    List RoomTypeProduct :=
  match selectedType with
  | some type => if type.saleMode = saleMode then type.products else [.single code saleMode]
  | none => [.single code saleMode]

def saveType (input : RoomCatalogInput) (selectedType : Option ManagedRoomType) : Except Thrown RoomCatalogEffect := do
  let name ← text input.name "房型名称" 60
  let bathroom ← expect (invalid "请选择卫浴类型和销售方式") input.bathroom
  let saleMode ← expect (invalid "请选择卫浴类型和销售方式") input.saleMode
  require (∀ type ∈ basis.snapshot.types, some type.code ≠ selectedType.map (·.code) → type.name ≠ name)
    (invalid "已有同名房型")
  let bedCount ← count input.bedCount "默认床数"
  let capacity ← count input.capacity "默认可住人数"
  require (saleMode = .bed → capacity = bedCount) (invalid "按床售卖的房型每床住一人，可住人数须与床数相同")
  require (∀ type ∈ selectedType, type.saleMode ≠ saleMode →
      (∀ unit ∈ basis.units, unit.roomTypeCode ≠ some type.code) ∧
        ∀ rate ∈ basis.snapshot.rates, rate.typeCode ≠ type.code)
    (invalid "已关联房间的房型不能改变销售方式；请新增目标房型，再给空房重新分配")
  let code := (selectedType.map (·.code)).getD ctx.typeCode
  let updated : ManagedRoomType := ⟨code, name, bathroom, saleMode, bedCount, capacity,
    (selectedType.map (·.active)).getD true, savedProducts selectedType code saleMode⟩
  return {
    action := input.action
    beforeVersion := basis.snapshot.version
    after := { basis.next with
      types := match selectedType with
        | some type => setType basis.snapshot.types type.code fun _ => updated
        | none => basis.snapshot.types ++ [updated] } }

def deleteType (input : RoomCatalogInput) (type : ManagedRoomType) : Except Thrown RoomCatalogEffect := do
  require ((∀ unit ∈ basis.units, unit.roomTypeCode ≠ some type.code) ∧
      (∀ rate ∈ basis.snapshot.rates, rate.typeCode ≠ type.code) ∧ ctx.membershipProduct type.code = false)
    (invalid "房型已有房间、价格或会员关联，不能删除；可停用并保留历史")
  return {
    action := input.action
    beforeVersion := basis.snapshot.version
    after := { basis.next with types := basis.snapshot.types.filter (·.code ≠ type.code) } }

def setTypeActive (input : RoomCatalogInput) (type : ManagedRoomType) : Except Thrown RoomCatalogEffect := do
  let active ← flag input.active
  require (type.active ≠ active) (invalid "房型已经处于该状态")
  let rooms := basis.rooms.filter fun room => room.active = true ∧ room.typeCode = type.code
  let retireUnitIds ← basis.retireType ctx active rooms
  return {
    action := input.action
    beforeVersion := basis.snapshot.version
    after := { basis.next with types := setType basis.snapshot.types type.code ({ · with active }) }
    retireUnitIds }

/-- SAVE_ROOM, and SET_ROOM_ACTIVE where it starts a room again, which keeps the room's shown code. -/
def placeRoom (input : RoomCatalogInput) (type : ManagedRoomType) (old : Option ManagedRoom) (code building : Option Label)
    (bedCount capacity : Option Nat) : Except Thrown RoomCatalogEffect := do
  require (type.active = true) (invalid "请先启用目标房型")
  let code ← text code "房号" 40
  let building ← text building "楼栋" 40
  let bedCount ← count bedCount "床数"
  let capacity ← count capacity "可住人数"
  require (type.saleMode = .bed → capacity = bedCount) (invalid "按床售卖时可住人数须与床数相同")
  require (∀ room ∈ basis.rooms, some room.unitId ≠ old.map (·.unitId) → room.code ≠ code)
    (invalid "房号已存在（包括停用房间），请使用其他房号")
  let retireUnitIds ← basis.retireOld ctx type.code old
  let roomId := ['u', 'n', 'i', 't', '_', 'c', 'a', 't', 'a', 'l', 'o', 'g', '_'] ++ ctx.suffix
  let insertUnits := roomUnits type roomId code building bedCount capacity
  let newCodes := insertUnits.map (·.code)
  require (∀ unit ∈ basis.units, unit.active = true → unit.id ∉ retireUnitIds →
      displayCode basis.snapshot.unitCodes unit ∉ newCodes ∧ unit.code ∉ newCodes)
    (invalid "房号或床位编号与其他有效库存重复")
  return {
    action := input.action
    beforeVersion := basis.snapshot.version
    after := { basis.next with
      types := setType basis.snapshot.types type.code (·.withRoom bedCount)
      buildingOrder := if building ∈ basis.snapshot.buildingOrder then basis.snapshot.buildingOrder
        else basis.snapshot.buildingOrder ++ [building] }
    retireUnitIds
    insertUnits
    roomLink := some ⟨(old.map (·.assetId)).getD roomId, old.map (·.unitId), roomId⟩ }

def setRoomActive (input : RoomCatalogInput) (old : ManagedRoom) : Except Thrown RoomCatalogEffect := do
  let activate ← flag input.active
  require (old.active ≠ activate) (invalid "房间已经处于该状态")
  match activate with
  | false => do
      let retireUnitIds ← basis.retire ctx [old] none
      return {
        action := input.action
        beforeVersion := basis.snapshot.version
        after := basis.next
        retireUnitIds }
  | true => do
      let type ← expect (invalid "请先启用目标房型") (basis.snapshot.types.find? (·.code = old.typeCode))
      basis.placeRoom ctx input type (some old) (some old.code) (some old.buildingCode) (some old.bedCount)
        (some old.capacity)

def validateRoomRateAnchors (anchors : Option RoomRateAnchors) : Except Thrown RoomRateAnchors := do
  let anchors ← expect (invalid "请填写四个档位的价格") anchors
  require (∀ minor ∈ [anchors.one, anchors.seven, anchors.fourteen, anchors.thirty], 0 < minor ∧ minor ≤ 20000000)
    (invalid "四档价格须为大于 0、不超过 20 万元的金额，最多两位小数")
  return anchors

def publishRates (input : RoomCatalogInput) (type : ManagedRoomType) : Except Thrown RoomCatalogEffect := do
  require (type.active = true) (invalid "停用房型不能发布新价")
  let effectiveFrom ← expect (invalid "生效日期不能为空且不能超过 10 个字符") input.effectiveFrom
  require (ctx.today ≤ effectiveFrom) (invalid "新价格不能追溯发布到过去，请选择今天或未来日期")
  let anchors ← validateRoomRateAnchors input.anchors
  return {
    action := input.action
    beforeVersion := basis.snapshot.version
    after := { basis.next with
      rates := basis.snapshot.rates ++
        [⟨['r', 'a', 't', 'e', '_'] ++ ctx.suffix, type.code, effectiveFrom, anchors, basis.snapshot.version + 1⟩] } }

def selected (value : Option Label) : Option Label := value.filter (· ≠ [])

def selectType (input : RoomCatalogInput) : Except Thrown (Option ManagedRoomType) :=
  match selected input.typeCode with
  | none => return none
  | some code => some <$> expect (notFound "房型不存在") (basis.snapshot.types.find? (·.code = code))

def selectRoom (input : RoomCatalogInput) : Except Thrown (Option ManagedRoom) :=
  match selected input.roomId with
  | none => return none
  | some id => some <$> expect (notFound "房间已调整，请刷新") (basis.rooms.find? (·.unitId = id))

/-- A SAVE_ROOM that changes only the code of an active room is a rename. -/
def codeOnly (input : RoomCatalogInput) (selectedRoom : Option ManagedRoom) : Bool :=
  input.action = .saveRoom ∧ ∃ room ∈ selectedRoom, room.active = true ∧ input.typeCode = some room.typeCode ∧
    input.buildingCode.map trim = some room.buildingCode ∧ input.bedCount = some room.bedCount ∧
    input.capacity = some room.capacity

/-- The effect of an action, without the policies that it publishes. -/
def prepareAction (input : RoomCatalogInput) (selectedType : Option ManagedRoomType) (selectedRoom : Option ManagedRoom) :
    Except Thrown RoomCatalogEffect :=
  let requireType := expect (invalid "请选择房型") selectedType
  let requireRoom := expect (invalid "请选择房间") selectedRoom
  match input.action with
  | .renameRoom => requireRoom >>= basis.renameRoom input
  | .setOperatingStatistics => basis.setOperatingStatistics input
  | .setBuildingOrder => basis.setBuildingOrder input
  | .saveType => basis.saveType ctx input selectedType
  | .deleteType => requireType >>= basis.deleteType ctx input
  | .setTypeActive => requireType >>= basis.setTypeActive ctx input
  | .saveRoom =>
      if codeOnly input selectedRoom then requireRoom >>= basis.renameRoom input
      else requireType >>= fun type =>
        basis.placeRoom ctx input type selectedRoom input.code input.buildingCode input.bedCount input.capacity
  | .setRoomActive => requireRoom >>= basis.setRoomActive ctx input
  | .publishRates => requireType >>= basis.publishRates ctx input

def publishes (input : RoomCatalogInput) (effect : RoomCatalogEffect) : Bool :=
  effect.roomRename = none ∧ (input.action = .publishRates ∨ input.action = .saveRoom ∨
    (input.action = .setRoomActive ∧ input.active = some true))

def buildRoomCatalogEffect (input : RoomCatalogInput) : Except Thrown RoomCatalogEffect := do
  require (input.expectedVersion = basis.snapshot.version)
    (.domain (domainError .aggregateVersionConflict "设置已被修改，请刷新后重试"))
  let selectedType ← basis.selectType input
  let selectedRoom ← basis.selectRoom input
  let effect ← basis.prepareAction ctx input selectedType selectedRoom
  return { effect with
    policies := if publishes input effect then
        preparePolicies ctx.policyId basis.baselines effect.after.types effect.after.rates
      else [] }

end CatalogBasis

end GreenPms
