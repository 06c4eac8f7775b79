import Mathlib.Data.List.Pairwise
import GreenPms.Catalog.Heads
import GreenPms.Catalog.Versions

/-! # The units that an action retires and inserts

Retired units only become inactive, and a room is retired with all its beds. Inserted units form one room
with its beds, apart from every other unit, on an active type that declares their products.
-/

namespace GreenPms

open Checked

/-- Two units have different ids, and different codes of their own while both are active. -/
def CatalogUnit.Apart (a b : CatalogUnit) : Prop :=
  a.id ≠ b.id ∧ (a.active = true → b.active = true → a.code ≠ b.code)

structure UnitRows (units : List CatalogUnit) : Prop where
  apart : units.Pairwise CatalogUnit.Apart
  rooms : ∀ unit ∈ units, unit.kind = .room → unit.parentRoomId = none
  beds : ∀ unit ∈ units, unit.kind = .bed → ∃ room ∈ units, room.kind = .room ∧ unit.parentRoomId = some room.id

instance : Std.Symm CatalogUnit.Apart where
  symm _ _ h := ⟨h.1.symm, fun hb ha => (h.2 ha hb).symm⟩

theorem UnitRows.eq_of_id {units : List CatalogUnit} (h : units.Pairwise CatalogUnit.Apart) {a b : CatalogUnit} (ha : a ∈ units)
    (hb : b ∈ units) (hId : a.id = b.id) : a = b := by
  by_contra hNe
  exact (h.forall ha hb hNe).1 hId

theorem UnitRows.eq_of_code {units : List CatalogUnit} (h : units.Pairwise CatalogUnit.Apart) {a b : CatalogUnit}
    (ha : a ∈ units) (hb : b ∈ units) (haActive : a.active = true) (hbActive : b.active = true) (hCode : a.code = b.code) :
    a = b := by
  by_contra hNe
  exact (h.forall ha hb hNe).2 haActive hbActive hCode

def retiredUnit (retiring : List Label) (unit : CatalogUnit) : CatalogUnit :=
  if unit.id ∈ retiring then { unit with active := false } else unit

section Retired

variable {retiring : List Label} {unit : CatalogUnit}

@[simp] theorem retiredUnit_id : (retiredUnit retiring unit).id = unit.id := by
  unfold retiredUnit
  split <;> rfl

@[simp] theorem retiredUnit_kind : (retiredUnit retiring unit).kind = unit.kind := by
  unfold retiredUnit
  split <;> rfl

@[simp] theorem retiredUnit_code : (retiredUnit retiring unit).code = unit.code := by
  unfold retiredUnit
  split <;> rfl

@[simp] theorem retiredUnit_parentRoomId : (retiredUnit retiring unit).parentRoomId = unit.parentRoomId := by
  unfold retiredUnit
  split <;> rfl

@[simp] theorem retiredUnit_roomTypeCode : (retiredUnit retiring unit).roomTypeCode = unit.roomTypeCode := by
  unfold retiredUnit
  split <;> rfl

@[simp] theorem retiredUnit_pricingProductCode :
    (retiredUnit retiring unit).pricingProductCode = unit.pricingProductCode := by
  unfold retiredUnit
  split <;> rfl

theorem retiredUnit_active : (retiredUnit retiring unit).active = true ↔ unit.active = true ∧ unit.id ∉ retiring := by
  unfold retiredUnit
  split
  case isTrue h => simp [h]
  case isFalse h => simp [h]

theorem retiredUnit_eq : ∃ active, retiredUnit retiring unit = { unit with active } := by
  unfold retiredUnit
  split
  · exact ⟨false, rfl⟩
  · exact ⟨unit.active, rfl⟩

@[simp] theorem displayCode_retiredUnit {unitCodes : List (Label × Label)} :
    displayCode unitCodes (retiredUnit retiring unit) = displayCode unitCodes unit := by
  simp [displayCode]

end Retired

namespace CatalogTables

variable {settings : CatalogSettings} {ctx : CatalogContext} {t u : CatalogTables} {effect : RoomCatalogEffect}

theorem mem_retireUnits {retiring : List Label} {unit : CatalogUnit} :
    unit ∈ (t.retireUnits retiring).units ↔ ∃ old ∈ t.units, unit = retiredUnit retiring old := by
  simp only [retireUnits, List.mem_map, retiredUnit, eq_comm]

structure UnitInserted (effect : RoomCatalogEffect) (target : Option Label) (item : CatalogUnit) : Prop where
  active : item.active = true
  typed : ∃ type ∈ effect.after.types, item.roomTypeCode = some type.code ∧ type.active = true ∧
    ∃ product ∈ type.products, item.pricingProductCode = some product.code ∧ product.kind = item.kind
  room : item.kind = .room → target = some item.id ∧ item.parentRoomId = none
  bed : item.kind = .bed → item.parentRoomId = target ∧ target ≠ none

theorem insertUnit_inserted {inserted after : CatalogTables × Option Label} {item : CatalogUnit}
    (h : insertUnit effect inserted item = .ok after) :
    UnitInserted effect after.2 item ∧ (∀ id ∈ inserted.2, after.2 = some id) ∧
      (after.2 = inserted.2 ∨ item.kind = .room ∧ after.2 = some item.id) ∧
      ∀ unit ∈ inserted.1.units, unit.Apart item := by
  simp only [insertUnit, bind_eq_ok, require_eq_ok, expect_eq_ok, pure_eq_ok] at h
  obtain ⟨-, -, -, hActive, type, hType, -, ⟨hTypeActive, hProduct⟩, -, hRoom, -, hBed, -, hApart, rfl⟩ := h
  have hCode : item.roomTypeCode = some type.code := by simpa using List.find?_some hType
  have hTyped : ∃ type ∈ effect.after.types, item.roomTypeCode = some type.code ∧ type.active = true ∧
      ∃ product ∈ type.products, item.pricingProductCode = some product.code ∧ product.kind = item.kind :=
    ⟨type, List.mem_of_find?_eq_some hType, hCode, hTypeActive, hProduct⟩
  have hAll : ∀ unit ∈ inserted.1.units, unit.Apart item :=
    fun unit hUnit => ⟨(hApart unit hUnit).1, fun hUnitActive _ => (hApart unit hUnit).2 hUnitActive⟩
  cases hKind : item.kind with
  | room =>
    obtain ⟨hNone, hParent, -⟩ := hRoom hKind
    refine ⟨⟨hActive, hTyped, fun _ => ⟨rfl, hParent⟩, fun h => ?_⟩, fun id hId => ?_, .inr ⟨rfl, rfl⟩, hAll⟩
    · rw [hKind] at h
      cases h
    · rw [hNone] at hId
      cases hId
  | bed =>
    obtain ⟨hParent, hTarget, -⟩ := hBed hKind
    refine ⟨⟨hActive, hTyped, fun h => ?_, fun _ => ⟨hParent, hTarget⟩⟩, fun id hId => hId, .inl rfl, hAll⟩
    rw [hKind] at h
    cases h

structure UnitsInserted (effect : RoomCatalogEffect) (before : List CatalogUnit) (items : List CatalogUnit)
    (start target : Option Label) : Prop where
  each : ∀ item ∈ items, UnitInserted effect target item
  keeps : ∀ id ∈ start, target = some id
  target : target = start ∨ ∃ room ∈ items, room.kind = .room ∧ target = some room.id
  apart : items.Pairwise CatalogUnit.Apart
  outside : ∀ unit ∈ before, ∀ item ∈ items, unit.Apart item

theorem insertUnits_inserted {items : List CatalogUnit} {inserted after : CatalogTables × Option Label}
    (h : items.foldlM (insertUnit effect) inserted = .ok after) :
    UnitsInserted effect inserted.1.units items inserted.2 after.2 := by
  induction items generalizing inserted with
  | nil =>
    obtain rfl : inserted = after := by simpa using h
    exact ⟨nofun, fun id hId => hId, .inl rfl, .nil, fun _ _ => nofun⟩
  | cons item items ih =>
    simp only [List.foldlM_cons, bind_eq_ok] at h
    obtain ⟨next, hItem, hRest⟩ := h
    obtain ⟨hInserted, hKeeps, hTarget, hApart⟩ := insertUnit_inserted hItem
    have hTables := insertUnit_ok hItem
    obtain ⟨hEach, hRestKeeps, hRestTarget, hRestApart, hOutside⟩ := ih hRest
    rw [hTables] at hOutside
    have hFirst : UnitInserted effect after.2 item := by
      refine ⟨hInserted.active, hInserted.typed, fun hKind => ?_, fun hKind => ?_⟩
      · obtain ⟨hRoom, hParent⟩ := hInserted.room hKind
        exact ⟨hRestKeeps item.id hRoom, hParent⟩
      · obtain ⟨hParent, hSome⟩ := hInserted.bed hKind
        obtain ⟨id, hId⟩ := Option.ne_none_iff_exists'.mp hSome
        rw [hParent, hId, hRestKeeps id hId]
        exact ⟨rfl, Option.some_ne_none id⟩
    refine ⟨List.forall_mem_cons.mpr ⟨hFirst, hEach⟩, fun id hId => hRestKeeps id (hKeeps id hId), ?_, ?_, ?_⟩
    · obtain hSame | ⟨room, hRoom, hKind, hId⟩ := hRestTarget
      · obtain hStart | ⟨hKind, hId⟩ := hTarget
        · exact .inl (hSame.trans hStart)
        · exact .inr ⟨item, List.mem_cons_self, hKind, hSame.trans hId⟩
      · exact .inr ⟨room, List.mem_cons_of_mem item hRoom, hKind, hId⟩
    · refine List.pairwise_cons.mpr ⟨fun other hOther => ?_, hRestApart⟩
      exact hOutside item (List.mem_append_right _ (List.mem_singleton.mpr rfl)) other hOther
    · intro unit hUnit other hOther
      obtain rfl | hOther := List.mem_cons.mp hOther
      · exact hApart unit hUnit
      · exact hOutside unit (List.mem_append_left _ hUnit) other hOther

theorem checkRetirement_whole (h : t.checkRetirement ctx effect = .ok ()) (hRows : UnitRows t.units) :
    (∀ bed ∈ t.units, ∀ room ∈ t.units, bed.parentRoomId = some room.id →
      (bed.id ∈ effect.retireUnitIds ↔ room.id ∈ effect.retireUnitIds)) ∧
    ∀ claim ∈ t.claims, claim.active = true → ∀ room ∈ t.units, room.kind = .room → room.id = claim.roomId →
      ∀ unit ∈ t.units, unit.id = room.id ∨ unit.parentRoomId = some room.id → unit.id ∉ effect.retireUnitIds := by
  simp only [checkRetirement, bind_eq_ok, require_eq_ok] at h
  obtain ⟨-, -, -, ⟨hClaims, -⟩, -, hWhole, -⟩ := h
  have hRoomIds : ∀ unit ∈ t.units, unit.id ∈ effect.retireUnitIds →
      unit.parentRoomId.getD unit.id ∈ t.retiringRooms effect.retireUnitIds := by
    intro unit hUnit hRetired
    exact List.mem_map.mpr ⟨unit, List.mem_filter.mpr ⟨hUnit, by simpa using hRetired⟩, rfl⟩
  constructor
  · intro bed hBed room hRoom hParent
    constructor
    · intro hRetired
      have hIn := hRoomIds bed hBed hRetired
      rw [hParent] at hIn
      exact hWhole room hRoom (.inl hIn)
    · intro hRetired
      have hKind : room.kind = .room := by
        cases hKind : bed.kind with
        | room => rw [hRows.rooms bed hBed hKind] at hParent; cases hParent
        | bed =>
          obtain ⟨owner, hOwner, hOwnerKind, hOwnerId⟩ := hRows.beds bed hBed hKind
          rw [hParent, Option.some.injEq] at hOwnerId
          rwa [UnitRows.eq_of_id hRows.apart hRoom hOwner hOwnerId]
      have hIn := hRoomIds room hRoom hRetired
      rw [hRows.rooms room hRoom hKind] at hIn
      exact hWhole bed hBed (.inr ⟨room.id, hParent, hIn⟩)
  · intro claim hClaim hActive room hRoom hKind hRoomId unit hUnit hOf hRetired
    refine hClaims claim hClaim hActive ?_
    have hIn := hRoomIds unit hUnit hRetired
    rw [← hRoomId]
    obtain hSame | hParent := hOf
    · obtain rfl := UnitRows.eq_of_id hRows.apart hUnit hRoom hSame
      rwa [hRows.rooms unit hUnit hKind] at hIn
    · rwa [hParent] at hIn

theorem linkRoom_placed {placed linked : CatalogTables} {target : Label} (h : placed.linkRoom effect (some target) = .ok linked) :
    ∃ link before, effect.roomLink = some link ∧ link.newUnitId = target ∧
      linked.links = placed.links ++ before ++ [⟨target, link.assetId, effect.after.version⟩] ∧
      (∃ unit ∈ placed.units, unit.id = link.assetId) ∧ (link.oldUnitId = none → link.assetId = target) ∧
      (∀ id ∈ link.oldUnitId, placed.assetId id = link.assetId ∧ id ∈ effect.retireUnitIds ∧
        ∃ unit ∈ placed.units, unit.id = id ∧ unit.kind = .room) ∧
      ((before = [] ∧ ∀ id ∈ link.oldUnitId, placed.linkByUnit id ≠ none) ∨
        (link.oldUnitId = some link.assetId ∧ placed.linkByUnit link.assetId = none ∧
          before = [⟨link.assetId, link.assetId, 0⟩])) := by
  simp only [linkRoom, bind_eq_ok, expect_eq_ok, require_eq_ok] at h
  obtain ⟨link, hLink, -, hTarget, -, ⟨asset, hAsset, hAssetId, -⟩, middle, hOld, hNew⟩ := h
  obtain rfl := insertLink_ok hNew
  rw [linkOldRoom] at hOld
  cases hOldId : link.oldUnitId with
  | none =>
    simp only [hOldId, bind_eq_ok, require_eq_ok, pure_eq_ok] at hOld
    obtain ⟨-, hOwn, rfl⟩ := hOld
    exact ⟨link, [], hLink, hTarget, by simp, ⟨asset, hAsset, hAssetId⟩, fun _ => hOwn.trans hTarget,
      by simp [hOldId], .inl ⟨rfl, by simp [hOldId]⟩⟩
  | some oldId =>
    simp only [hOldId, bind_eq_ok, require_eq_ok] at hOld
    obtain ⟨-, hOldRoom, -, hSame, -, hRetired, hOld⟩ := hOld
    have hShared : ∀ id ∈ some oldId, placed.assetId id = link.assetId ∧ id ∈ effect.retireUnitIds ∧
        ∃ unit ∈ placed.units, unit.id = id ∧ unit.kind = .room := by
      rintro id ⟨⟩
      exact ⟨hSame, hRetired, hOldRoom⟩
    split at hOld
    case isTrue hLinked =>
      obtain rfl : placed = middle := by simpa using hOld
      refine ⟨link, [], hLink, hTarget, by simp, ⟨asset, hAsset, hAssetId⟩, by simp [hOldId], hOldId ▸ hShared, .inl ⟨rfl, ?_⟩⟩
      rintro id hId
      obtain rfl : oldId = id := Option.some.inj (hOldId.symm.trans hId)
      exact Option.isSome_iff_ne_none.mp hLinked
    case isFalse hUnlinked =>
      obtain rfl := insertLink_ok hOld
      have hNone : placed.linkByUnit oldId = none := by simpa using hUnlinked
      have hOwn : oldId = link.assetId := (assetId_of_unlinked hNone).symm.trans hSame
      refine ⟨link, [⟨oldId, link.assetId, 0⟩], hLink, hTarget, rfl, ⟨asset, hAsset, hAssetId⟩, by simp [hOldId],
        hOldId ▸ hShared, .inr ?_⟩
      rw [hOldId, ← hOwn]
      exact ⟨rfl, hNone, rfl⟩

end CatalogTables

end GreenPms
