import Mathlib.Data.List.MinMax
import GreenPms.Catalog.Actions
import GreenPms.Library.Transition

/-! # Carrying out a catalog action

The database checks an effect once more and writes it. A claim becomes active only on an active unit of
an active room. The steps of the catalog are the accepted actions and the claims made and released.
-/

namespace GreenPms

open Checked TransitionSystem

namespace CatalogTables

variable (t : CatalogTables)

def catalogVersion : Nat := (t.stored.map (·.version)).getD 0

def storedRates : List RoomRateChange := (t.stored.map (·.rates)).getD []

def retiringRooms (retiring : List Label) : List Label :=
  (t.units.filter (·.id ∈ retiring)).map fun unit => unit.parentRoomId.getD unit.id

def checkStatistics (effect : RoomCatalogEffect) : Except Thrown Unit :=
  match effect.operatingStatisticsChange with
  | none => require (effect.action ≠ .setOperatingStatistics) .failure
  | some change =>
      require (effect.action = .setOperatingStatistics ∧ effect.retireUnitIds = [] ∧ effect.insertUnits = [] ∧
        effect.policies = [] ∧ effect.roomLink = none ∧ effect.roomRename = none ∧
        (∀ snapshot ∈ t.stored, { effect.after with version := snapshot.version } = snapshot) ∧
        change.assetIds ≠ [] ∧ change.assetIds.Nodup ∧
        ∀ id ∈ change.assetIds, t.assetId id = id ∧ ∃ unit ∈ t.units, unit.id = id ∧ unit.kind = .room) .failure

def checkRename (effect : RoomCatalogEffect) : Except Thrown Unit :=
  match effect.roomRename with
  | none =>
      require (effect.action ≠ .renameRoom ∧ effect.after.unitCodes = t.unitCodes ∧
        ∀ added ∈ effect.insertUnits, ∀ unit ∈ t.units, unit.active = true → unit.id ∉ effect.retireUnitIds →
          added.code ≠ displayCode t.unitCodes unit) .failure
  | some rename => do
      require (effect.action = .renameRoom ∨ effect.action = .saveRoom) .failure
      let room ← expect .failure
        (t.units.find? fun unit => unit.id = rename.roomId ∧ unit.kind = .room ∧ unit.active = true)
      require (trim rename.afterCode = rename.afterCode ∧ rename.afterCode ≠ [] ∧ rename.afterCode.length ≤ 60 ∧
        rename.beforeCode = displayCode t.unitCodes room ∧ rename.afterCode ≠ displayCode t.unitCodes room ∧
        effect.retireUnitIds = [] ∧ effect.insertUnits = [] ∧ effect.policies = [] ∧ effect.roomLink = none ∧
        (∀ snapshot ∈ t.stored,
          { effect.after with version := snapshot.version, unitCodes := snapshot.unitCodes } = snapshot) ∧
        (t.stored = none → effect.after.rates = [])) .failure
      require (∀ unit ∈ t.units, unit.parentRoomId = some room.id → room.code ++ ['-'] <+: unit.code) .failure
      let changes := CatalogBasis.renamedCodes t.inventoryRows room.id room.code rename.afterCode
      require (effect.after.unitCodes = changes ++ t.unitCodes) .failure
      require (∀ other ∈ t.units, (other.active = true ∨ other.kind = .room) → other.id ∉ changes.map Prod.fst →
        ∀ code ∈ changes.map Prod.snd, code ≠ other.code ∧ code ≠ displayCode (changes ++ t.unitCodes) other) .failure

def checkBuildingOrder (effect : RoomCatalogEffect) : Except Thrown Unit :=
  require (effect.action = .setBuildingOrder → effect.retireUnitIds = [] ∧ effect.insertUnits = [] ∧
    effect.policies = [] ∧ effect.roomLink = none ∧
    (∀ snapshot ∈ t.stored, effect.after.types = snapshot.types ∧ effect.after.rates = snapshot.rates) ∧
    (∀ code ∈ effect.after.buildingOrder, trim code ≠ []) ∧ effect.after.buildingOrder.Nodup ∧
    (∀ unit ∈ t.units, unit.kind = .room → unit.buildingCode.getD [] ≠ [] →
      unit.buildingCode.getD [] ∈ effect.after.buildingOrder) ∧
    ∀ code ∈ effect.after.buildingOrder, ∃ unit ∈ t.units, unit.kind = .room ∧ unit.buildingCode = some code) .failure

def checkHistory (effect : RoomCatalogEffect) : Except Thrown Unit :=
  require ((∀ unit ∈ t.units, ∀ code ∈ unit.roomTypeCode, ∃ type ∈ effect.after.types, type.code = code) ∧
    ∀ rate ∈ t.storedRates, rate ∈ effect.after.rates) .failure

/-- Whole rooms are retired, and only where nothing is booked, held or closed. -/
def checkRetirement (ctx : CatalogContext) (effect : RoomCatalogEffect) : Except Thrown Unit := do
  let retiring := effect.retireUnitIds
  let roomIds := t.retiringRooms retiring
  require (retiring.Nodup ∧ ∀ id ∈ retiring, ∃ unit ∈ t.units, unit.id = id) .failure
  require ((∀ claim ∈ t.claims, claim.active = true → claim.roomId ∉ roomIds) ∧
    (∀ id ∈ retiring, ctx.held id = false ∧ ctx.booked id = false ∧ ctx.maintained id = false) ∧
    ∀ id ∈ roomIds, ctx.internalUse id = false) .failure
  require (∀ unit ∈ t.units, (unit.id ∈ roomIds ∨ ∃ parent ∈ unit.parentRoomId, parent ∈ roomIds) → unit.id ∈ retiring)
    .failure
  require (∀ retired ∈ t.units, retired.id ∈ retiring → ∀ code ∈ retired.roomTypeCode, ctx.liveMembership code = true →
    (t.units.any fun unit => unit.active ∧ unit.kind = .room ∧ unit.roomTypeCode = some code ∧ unit.id ∉ retiring) ∨
      effect.insertUnits.any fun unit => unit.kind = .room ∧ unit.roomTypeCode = some code) .failure
  require (retiring ≠ [] → effect.action = .saveRoom ∨ effect.action = .setRoomActive ∨ effect.action = .setTypeActive)
    .failure

def retireUnits (retiring : List Label) : CatalogTables :=
  { t with units := t.units.map fun unit => if unit.id ∈ retiring then { unit with active := false } else unit }

/-- One row of the inserted units, with the room inserted before it. Ids are unique, and so are the own
codes of active units. -/
def insertUnit (effect : RoomCatalogEffect) (inserted : CatalogTables × Option Label) (item : CatalogUnit) :
    Except Thrown (CatalogTables × Option Label) := do
  require (effect.action = .saveRoom ∨ effect.action = .setRoomActive) .failure
  require (item.active = true) .failure
  let type ← expect .failure (effect.after.types.find? fun type => item.roomTypeCode = some type.code)
  require (type.active = true ∧
    ∃ product ∈ type.products, item.pricingProductCode = some product.code ∧ product.kind = item.kind) .failure
  require (item.kind = .room → inserted.2 = none ∧ item.parentRoomId = none ∧
    (type.saleMode = .bed → item.physicalBedCount = some item.occupancyCapacity ∧
      item.inventoryBasis = some .wholeRoomCombination ∧
      item.physicalBedCount = some (effect.insertUnits.filter (·.kind = .bed)).length) ∧
    (type.saleMode = .room → item.inventoryBasis = some .independent ∧ effect.insertUnits.length = 1)) .failure
  require (item.kind = .bed → item.parentRoomId = inserted.2 ∧ inserted.2 ≠ none ∧ item.occupancyCapacity = 1) .failure
  require (∀ unit ∈ inserted.1.units, unit.id ≠ item.id ∧ (unit.active = true → unit.code ≠ item.code)) .failure
  return ({ inserted.1 with units := inserted.1.units ++ [item] },
    match item.kind with
    | .room => some item.id
    | .bed => inserted.2)

def insertLink (link : RoomCatalogLink) : Except Thrown CatalogTables := do
  require (∀ other ∈ t.links, other.unitId ≠ link.unitId ∧ (other.assetId = link.assetId → other.version ≠ link.version))
    .failure
  return { t with links := t.links ++ [link] }

/-- The version that was replaced stays with its asset; it gets its link when it has none. -/
def linkOldRoom (retiring : List Label) (link : RoomLink) : Except Thrown CatalogTables :=
  match link.oldUnitId with
  | none => do
      require (link.assetId = link.newUnitId) .failure
      return t
  | some oldId => do
      require (∃ unit ∈ t.units, unit.id = oldId ∧ unit.kind = .room) .failure
      require (t.assetId oldId = link.assetId) .failure
      require (oldId ∈ retiring) .failure
      if (t.linkByUnit oldId).isSome then return t else t.insertLink ⟨oldId, link.assetId, 0⟩

def linkRoom (effect : RoomCatalogEffect) : Option Label → Except Thrown CatalogTables
  | none => return t
  | some target => do
      let link ← expect .failure effect.roomLink
      require (link.newUnitId = target) .failure
      require (∃ unit ∈ t.units, unit.id = link.assetId ∧ unit.kind = .room) .failure
      let linked ← t.linkOldRoom effect.retireUnitIds link
      linked.insertLink ⟨target, link.assetId, effect.after.version⟩

def publishPolicy (settings : CatalogSettings) (t : CatalogTables) (policy : CatalogPolicy) : Except Thrown CatalogTables := do
  require ((∀ other ∈ t.policies, other.id ≠ policy.id) ∧ ∀ other ∈ settings.baselines, other.id ≠ policy.id) .failure
  return { t with
    policies := t.policies ++ [policy]
    heads := ⟨policy.effectiveFrom, policy.id⟩ :: t.heads.filter (·.effectiveFrom ≠ policy.effectiveFrom) }

def recordStatistics : Option OperatingStatisticsChange → CatalogTables
  | none => t
  | some change => { t with statistics := change.assetIds.map (fun id => (id, change.included)) ++ t.statistics }

def applyRoomCatalog (settings : CatalogSettings) (ctx : CatalogContext) (effect : RoomCatalogEffect) :
    Except Thrown CatalogTables := do
  require (effect.beforeVersion = t.catalogVersion ∧ effect.after.version = effect.beforeVersion + 1) .failure
  t.checkStatistics effect
  t.checkRename effect
  t.checkBuildingOrder effect
  t.checkHistory effect
  t.checkRetirement ctx effect
  let (placed, target) ← effect.insertUnits.foldlM (insertUnit effect) (t.retireUnits effect.retireUnitIds, none)
  let linked ← placed.linkRoom effect target
  require (effect.policies ≠ [] → effect.action = .saveRoom ∨ effect.action = .setRoomActive ∨ effect.action = .publishRates)
    .failure
  let published ← effect.policies.foldlM (publishPolicy settings) linked
  return { published.recordStatistics effect.operatingStatisticsChange with stored := some effect.after }

def manageRoomCatalog (settings : CatalogSettings) (ctx : CatalogContext) (input : RoomCatalogInput) :
    Except Thrown CatalogTables := do
  let effect ← (t.catalogBasis settings).buildRoomCatalogEffect ctx input
  t.applyRoomCatalog settings ctx effect

def claimGuard (claim : RoomClaim) : Prop :=
  claim.active = true → ∃ unit ∈ t.units, ∃ room ∈ t.units, unit.id = claim.unitId ∧ room.id = claim.roomId ∧
    unit.active = true ∧ room.active = true ∧ (unit.id = room.id ∨ unit.parentRoomId = some room.id)

instance (claim : RoomClaim) : Decidable (t.claimGuard claim) := by
  unfold claimGuard
  infer_instance

def createClaim (claimId : Nat) (unitId : Label) : Except Thrown CatalogTables := do
  let unit ← expect (notFound "Inventory unit not found") (t.units.find? fun unit => unit.id = unitId ∧ unit.active = true)
  let claim : RoomClaim := ⟨claimId, if unit.kind = .room then unit.id else unit.parentRoomId.getD unit.id, unit.id, true⟩
  require (t.claimGuard claim) .failure
  return { t with claims := t.claims ++ [claim] }

def releaseClaim (claimId : Nat) : CatalogTables :=
  { t with claims := t.claims.map fun claim => if claim.id = claimId then { claim with active := false } else claim }

def resolveCatalogPolicyId (arrivalDate : Nat) : Option Label :=
  ((t.heads.filter (·.effectiveFrom ≤ arrivalDate)).argmax (·.effectiveFrom)).map (·.policyId)

end CatalogTables

inductive CatalogStep where
  | manage (ctx : CatalogContext) (input : RoomCatalogInput)
  | createClaim (claimId : Nat) (unitId : Label)
  | releaseClaim (claimId : Nat)

def CatalogTables.apply (settings : CatalogSettings) (t : CatalogTables) : CatalogStep → Except Thrown CatalogTables
  | .manage ctx input => t.manageRoomCatalog settings ctx input
  | .createClaim claimId unitId => t.createClaim claimId unitId
  | .releaseClaim claimId => .ok (t.releaseClaim claimId)

/-- Nothing is managed at first: any units and claims, and no catalog row. -/
def CatalogTables.unmanaged (units : List CatalogUnit) (claims : List RoomClaim) : CatalogTables :=
  ⟨units, none, [], [], [], [], claims⟩

def catalogSystem (settings : CatalogSettings) : System CatalogTables CatalogStep where
  init t := ∃ units claims, t = .unmanaged units claims
  step t step u := t.apply settings step = .ok u

end GreenPms
