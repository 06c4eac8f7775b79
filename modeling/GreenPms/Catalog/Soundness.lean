import GreenPms.Catalog.Placement

/-! # Soundness of the room catalog

No two units that are in use show one code, an asset has one current version, a bed follows its room, a
claim is on units in use, and a unit in use has an active type that declares its product.
-/

namespace GreenPms

open Checked TransitionSystem CatalogBasis CatalogTables

/-- What the claims, codes, versions and types of a catalog have to satisfy. -/
structure CatalogSound (settings : CatalogSettings) (t : CatalogTables) : Prop where
  activeCodes : ∀ a ∈ t.units, ∀ b ∈ t.units, a.active = true → b.active = true →
    displayCode t.unitCodes a = displayCode t.unitCodes b → a.id = b.id
  roomCodes : ∀ a ∈ t.currentRooms, ∀ b ∈ t.currentRooms,
    displayCode t.unitCodes a = displayCode t.unitCodes b → a.id = b.id
  versions : ∀ room ∈ t.units, room.kind = .room → ∃ current ∈ t.currentRooms, t.assetId current.id = t.assetId room.id ∧
    ∀ other ∈ t.units, other.kind = .room → t.assetId other.id = t.assetId room.id →
      other.active = true ∨ t.isCurrent other.id = true → other.id = current.id
  beds : ∀ bed ∈ t.units, ∀ room ∈ t.units, bed.parentRoomId = some room.id → bed.active = room.active
  claims : ∀ claim ∈ t.claims, claim.active = true → ∃ unit ∈ t.units, ∃ room ∈ t.units, unit.id = claim.unitId ∧
    room.id = claim.roomId ∧ room.kind = .room ∧ unit.active = true ∧ room.active = true ∧
    (unit.id = room.id ∨ unit.parentRoomId = some room.id)
  types : ∀ unit ∈ t.units, unit.active = true → ∀ code ∈ unit.roomTypeCode, ∃ type ∈ (t.snapshot settings).types,
    type.code = code ∧ type.active = true ∧
    ∃ product ∈ type.products, unit.pricingProductCode = some product.code ∧ product.kind = unit.kind

def BedsTyped (units : List CatalogUnit) : Prop :=
  ∀ bed ∈ units, ∀ room ∈ units, bed.parentRoomId = some room.id → bed.roomTypeCode = room.roomTypeCode

structure CatalogInvariant (settings : CatalogSettings) (t : CatalogTables) : Prop where
  rows : UnitRows t.units
  bedsTyped : BedsTyped t.units
  linkRows : LinkRows t
  overlay : ∀ entry ∈ t.unitCodes, ∃ unit ∈ t.units, unit.id = entry.1
  activeCurrent : ∀ room ∈ t.units, room.kind = .room → room.active = true → t.isCurrent room.id = true
  activeCodes : ∀ a ∈ t.units, ∀ b ∈ t.units, a.active = true → b.active = true →
    displayCode t.unitCodes a = displayCode t.unitCodes b → a.id = b.id
  roomCodes : ∀ a ∈ t.currentRooms, ∀ b ∈ t.currentRooms,
    displayCode t.unitCodes a = displayCode t.unitCodes b → a.id = b.id
  beds : ∀ bed ∈ t.units, ∀ room ∈ t.units, bed.parentRoomId = some room.id → bed.active = room.active
  claims : ∀ claim ∈ t.claims, claim.active = true → ∃ unit ∈ t.units, ∃ room ∈ t.units, unit.id = claim.unitId ∧
    room.id = claim.roomId ∧ room.kind = .room ∧ unit.active = true ∧ room.active = true ∧
    (unit.id = room.id ∨ unit.parentRoomId = some room.id)
  types : ∀ unit ∈ t.units, unit.active = true → ∀ code ∈ unit.roomTypeCode, ∃ type ∈ (t.snapshot settings).types,
    type.code = code ∧ type.active = true ∧
    ∃ product ∈ type.products, unit.pricingProductCode = some product.code ∧ product.kind = unit.kind

variable {settings : CatalogSettings} {ctx : CatalogContext} {t u : CatalogTables} {effect : RoomCatalogEffect}

theorem CatalogInvariant.sound (h : CatalogInvariant settings t) : CatalogSound settings t where
  activeCodes := h.activeCodes
  roomCodes := h.roomCodes
  versions := by
    intro room hRoom hKind
    obtain ⟨current, hCurrent, hCurrentKind, hIsCurrent, hAsset⟩ := current_exists h.linkRows hRoom hKind
    refine ⟨current, mem_currentRooms.mpr ⟨hCurrent, hCurrentKind, hIsCurrent⟩, hAsset, ?_⟩
    intro other hOther hOtherKind hOtherAsset hUsed
    have hOtherCurrent : t.isCurrent other.id = true := hUsed.elim (h.activeCurrent other hOther hOtherKind) id
    exact current_unique h.linkRows hOtherCurrent hIsCurrent (hOtherAsset.trans hAsset.symm)
  beds := h.beds
  claims := h.claims
  types := h.types

/-- What the effect of an action adds to the checks of the database. -/
structure EffectFits (settings : CatalogSettings) (t : CatalogTables) (effect : RoomCatalogEffect) : Prop where
  types : ∀ type ∈ (t.snapshot settings).types, type.active = true →
    (∃ kept ∈ effect.after.types, kept.code = type.code ∧ kept.active = true ∧
      ∀ product ∈ type.products, product ∈ kept.products) ∨
    ∀ unit ∈ t.units, unit.active = true → unit.roomTypeCode = some type.code → unit.id ∈ effect.retireUnitIds
  names : ∀ item ∈ effect.insertUnits, item.kind = .room → ∀ room ∈ t.currentRooms,
    (∀ link ∈ effect.roomLink, link.oldUnitId ≠ some room.id) → displayCode t.unitCodes room ≠ item.code
  current : ∀ link ∈ effect.roomLink, ∀ id ∈ link.oldUnitId, t.isCurrent id = true
  sameType : ∀ a ∈ effect.insertUnits, ∀ b ∈ effect.insertUnits, a.roomTypeCode = b.roomTypeCode

section Units

theorem Carried.mem_units (h : Carried settings ctx t effect u) {unit : CatalogUnit} :
    unit ∈ u.units ↔ (∃ old ∈ t.units, unit = retiredUnit effect.retireUnitIds old) ∨ unit ∈ effect.insertUnits := by
  rw [h.units, List.mem_append, mem_retireUnits]

theorem Carried.inserted (h : Carried settings ctx t effect u) : ∃ target, UnitsInserted effect
    (t.retireUnits effect.retireUnitIds).units effect.insertUnits none target := by
  obtain ⟨placed, target, linked, hPlaced, -, -⟩ := h.placed
  exact ⟨target, insertUnits_inserted hPlaced⟩

theorem Carried.rows (h : Carried settings ctx t effect u) (hRows : UnitRows t.units) : UnitRows u.units := by
  obtain ⟨target, hEach, -, hTarget, hApart, hOutside⟩ := Carried.inserted h
  refine ⟨?_, ?_, ?_⟩
  · rw [h.units]
    refine List.pairwise_append.mpr ⟨?_, hApart, fun unit hUnit item hItem => hOutside unit hUnit item hItem⟩
    refine List.pairwise_map.mpr (hRows.apart.imp fun {a b} hApart => ?_)
    change (retiredUnit effect.retireUnitIds a).Apart (retiredUnit effect.retireUnitIds b)
    refine ⟨by simpa using hApart.1, fun ha hb => ?_⟩
    simpa using hApart.2 (retiredUnit_active.mp ha).1 (retiredUnit_active.mp hb).1
  · intro unit hUnit hKind
    obtain ⟨old, hOld, rfl⟩ | hItem := (Carried.mem_units h).mp hUnit
    · simpa using hRows.rooms old hOld (by simpa using hKind)
    · exact ((hEach unit hItem).room hKind).2
  · intro unit hUnit hKind
    obtain ⟨old, hOld, rfl⟩ | hItem := (Carried.mem_units h).mp hUnit
    · obtain ⟨room, hRoom, hRoomKind, hParent⟩ := hRows.beds old hOld (by simpa using hKind)
      exact ⟨retiredUnit effect.retireUnitIds room, (Carried.mem_units h).mpr (.inl ⟨room, hRoom, rfl⟩),
        by simpa using hRoomKind, by simpa using hParent⟩
    · obtain ⟨hParent, hSome⟩ := (hEach unit hItem).bed hKind
      obtain hNone | ⟨room, hRoom, hRoomKind, hId⟩ := hTarget
      · exact absurd hNone hSome
      · exact ⟨room, (Carried.mem_units h).mpr (.inr hRoom), hRoomKind, hParent.trans hId⟩

theorem Carried.bed_room (h : Carried settings ctx t effect u) (hRows : UnitRows t.units) {bed room : CatalogUnit}
    (hBed : bed ∈ u.units) (hRoom : room ∈ u.units) (hParent : bed.parentRoomId = some room.id) :
    (∃ oldBed ∈ t.units, ∃ oldRoom ∈ t.units, bed = retiredUnit effect.retireUnitIds oldBed ∧
      room = retiredUnit effect.retireUnitIds oldRoom ∧ oldBed.parentRoomId = some oldRoom.id) ∨
    bed ∈ effect.insertUnits ∧ room ∈ effect.insertUnits := by
  obtain ⟨target, hEach, -, hTarget, -, hOutside⟩ := Carried.inserted h
  have hAfter := Carried.rows h hRows
  obtain ⟨oldBed, hOldBed, rfl⟩ | hItem := (Carried.mem_units h).mp hBed
  · obtain ⟨oldRoom, hOldRoom, rfl⟩ | hRoomItem := (Carried.mem_units h).mp hRoom
    · exact .inl ⟨oldBed, hOldBed, oldRoom, hOldRoom, rfl, rfl, by simpa using hParent⟩
    · -- the parent of a bed from before is from before
      have hKind : oldBed.kind = .bed := by
        cases hKind : oldBed.kind with
        | room =>
          rw [retiredUnit_parentRoomId, hRows.rooms oldBed hOldBed hKind] at hParent
          cases hParent
        | bed => rfl
      obtain ⟨owner, hOwner, -, hOwnerId⟩ := hRows.beds oldBed hOldBed hKind
      rw [retiredUnit_parentRoomId, hOwnerId, Option.some.injEq] at hParent
      have := (hOutside (retiredUnit effect.retireUnitIds owner) (mem_retireUnits.mpr ⟨owner, hOwner, rfl⟩) room hRoomItem).1
      rw [retiredUnit_id] at this
      exact absurd hParent this
  · have hKind : bed.kind = .bed := by
      cases hKind : bed.kind with
      | room =>
        rw [((hEach bed hItem).room hKind).2] at hParent
        cases hParent
      | bed => rfl
    obtain ⟨hBedParent, hSome⟩ := (hEach bed hItem).bed hKind
    obtain hNone | ⟨owner, hOwner, -, hId⟩ := hTarget
    · exact absurd hNone hSome
    · have hSame : room.id = owner.id := Option.some.inj (hParent.symm.trans (hBedParent.trans hId))
      rw [UnitRows.eq_of_id hAfter.apart hRoom ((Carried.mem_units h).mpr (.inr hOwner)) hSame]
      exact .inr ⟨hItem, hOwner⟩

end Units

section Links

theorem Carried.links_placed (h : Carried settings ctx t effect u) :
    (u.links = t.links ∧ effect.insertUnits = []) ∨ ∃ link, effect.roomLink = some link ∧
      LinksPlaced t u link.newUnitId link.assetId link.oldUnitId ∧ (∀ id ∈ link.oldUnitId, id ∈ effect.retireUnitIds) ∧
      ∀ item ∈ effect.insertUnits, item.kind = .room → item.id = link.newUnitId := by
  obtain ⟨placed, target, linked, hPlaced, hLinked, hLinks⟩ := h.placed
  have hInserted := insertUnits_inserted hPlaced
  have hPlacedTables : placed = _ := insertUnits_ok hPlaced
  have hUnits : placed.units = u.units := by rw [hPlacedTables, h.units]
  have hSameLinks : placed.links = t.links := by rw [hPlacedTables]; rfl
  have hByUnit (id : Label) : placed.linkByUnit id = t.linkByUnit id := by
    rw [CatalogTables.linkByUnit, CatalogTables.linkByUnit, hSameLinks]
  cases target with
  | none =>
    have hSame : placed = linked := by simpa [linkRoom] using hLinked
    refine .inl ⟨by rw [hLinks, ← hSame, hSameLinks], List.eq_nil_iff_forall_not_mem.mpr fun item hItem => ?_⟩
    have hEach := hInserted.each item hItem
    cases hKind : item.kind with
    | room => cases (hEach.room hKind).1
    | bed => exact (hEach.bed hKind).2 rfl
  | some target =>
    obtain ⟨link, before, hLink, rfl, hNewLinks, hAsset, hOwn, hOld, hBefore⟩ := linkRoom_placed hLinked
    obtain ⟨room, hRoom, hRoomKind, hRoomId⟩ := hInserted.target.resolve_left (Option.some_ne_none _)
    have hRoomId : room.id = link.newUnitId := (Option.some.inj hRoomId).symm
    have hRetired : ∀ id ∈ effect.retireUnitIds, ∃ unit ∈ t.units, unit.id = id := by
      have hChecked := h.retired
      simp only [checkRetirement, bind_eq_ok, require_eq_ok] at hChecked
      obtain ⟨-, ⟨-, hKnown⟩, -⟩ := hChecked
      exact hKnown
    have hVersion : u.catalogVersion = effect.after.version := by
      rw [catalogVersion, h.stored]
      rfl
    refine .inr ⟨link, hLink, ?_, fun id hId => (hOld id hId).2.1, fun item hItem hKind => ?_⟩
    · refine ⟨⟨before, ?_, ?_⟩, ?_, hOwn, fun id hId => ?_, ?_, ?_, ?_, ?_⟩
      · rw [hLinks, hNewLinks, hSameLinks, hVersion]
      · simpa only [hByUnit] using hBefore
      · rw [hVersion, h.version.2, h.version.1]
      · obtain ⟨hAssetId, hIn, unit, hUnit, rfl, hKind⟩ := hOld id hId
        refine ⟨?_, ?_⟩
        · rw [← hAssetId, CatalogTables.assetId, CatalogTables.assetId, hByUnit]
        · obtain ⟨old, hOldUnit, hOldId⟩ := hRetired unit.id hIn
          rw [hUnits] at hUnit
          obtain ⟨same, hSame, rfl⟩ | hItem := (Carried.mem_units h).mp hUnit
          · exact ⟨same, hSame, by simp, by simpa using hKind⟩
          · have hApart := (hInserted.outside (retiredUnit effect.retireUnitIds old) (mem_retireUnits.mpr ⟨old, hOldUnit, rfl⟩)
              unit hItem).1
            exact absurd (by simpa using hOldId) hApart
      · intro unit hUnit hSame
        refine (hInserted.outside (retiredUnit effect.retireUnitIds unit) (mem_retireUnits.mpr ⟨unit, hUnit, rfl⟩) room hRoom).1 ?_
        rw [retiredUnit_id, hSame, hRoomId]
      · intro unit hUnit
        exact ⟨retiredUnit effect.retireUnitIds unit, (Carried.mem_units h).mpr (.inl ⟨unit, hUnit, rfl⟩), by simp, by simp⟩
      · exact ⟨room, (Carried.mem_units h).mpr (.inr hRoom), hRoomId, hRoomKind⟩
      · rwa [hUnits] at hAsset
    · exact Option.some.inj ((hInserted.each item hItem).room hKind).1.symm

end Links

theorem isCurrent_congr (h : u.links = t.links) (id : Label) : u.isCurrent id = t.isCurrent id := by
  rw [isCurrent, isCurrent, linkByUnit, linkByUnit, h]
  cases t.links.find? (·.unitId = id) with
  | none => rfl
  | some link =>
    have hLatest : u.latestByAsset link.assetId = t.latestByAsset link.assetId := by
      rw [latestByAsset, latestByAsset, h]
    simp only [hLatest]

section Placing

variable (h : CatalogInvariant settings t) (hCarried : Carried settings ctx t effect u)
include h hCarried

theorem CatalogInvariant.inserted_code (hCodes : u.unitCodes = t.unitCodes) {item : CatalogUnit} (hItem : item ∈ effect.insertUnits) :
    displayCode u.unitCodes item = item.code := by
  obtain ⟨target, hInserted⟩ := Carried.inserted hCarried
  have hNone : t.unitCodes.lookup item.id = none := by
    refine List.lookup_eq_none_iff.mpr fun entry hEntry => bne_iff_ne.mpr fun hSame => ?_
    obtain ⟨unit, hUnit, hId⟩ := h.overlay entry hEntry
    refine (hInserted.outside (retiredUnit effect.retireUnitIds unit) (mem_retireUnits.mpr ⟨unit, hUnit, rfl⟩) item hItem).1 ?_
    rw [retiredUnit_id, hId, hSame]
  rw [displayCode, hCodes, hNone]
  rfl

theorem CatalogInvariant.linkRows_after : LinkRows u := by
  obtain ⟨hLinks, -⟩ | ⟨link, -, hPlaced, -⟩ := Carried.links_placed hCarried
  · have hKept {unit : CatalogUnit} (hUnit : unit ∈ t.units) : ∃ same ∈ u.units, same.id = unit.id ∧ same.kind = unit.kind :=
      ⟨retiredUnit effect.retireUnitIds unit, (Carried.mem_units hCarried).mpr (.inl ⟨unit, hUnit, rfl⟩), by simp, by simp⟩
    have hVersion : t.catalogVersion ≤ u.catalogVersion := by
      have hAfter : u.catalogVersion = effect.after.version := by
        rw [catalogVersion, hCarried.stored]
        rfl
      rw [hAfter, hCarried.version.2, hCarried.version.1]
      exact Nat.le_succ _
    refine ⟨by rw [hLinks]; exact h.linkRows.unique, ?_, ?_, by rw [hLinks]; exact h.linkRows.rooted, ?_⟩
    · intro link hLink
      obtain ⟨unit, hUnit, hId, hKind⟩ := h.linkRows.rooms link (hLinks ▸ hLink)
      obtain ⟨same, hSame, hSameId, hSameKind⟩ := hKept hUnit
      exact ⟨same, hSame, hSameId.trans hId, hSameKind.trans hKind⟩
    · intro link hLink
      obtain ⟨unit, hUnit, hId⟩ := h.linkRows.assets link (hLinks ▸ hLink)
      obtain ⟨same, hSame, hSameId, -⟩ := hKept hUnit
      exact ⟨same, hSame, hSameId.trans hId⟩
    · exact fun link hLink => (h.linkRows.numbered link (hLinks ▸ hLink)).trans hVersion
  · exact hPlaced.linkRows h.linkRows

/-- A room of before that is current after an action was current, and it is not the version that was replaced. -/
theorem CatalogInvariant.current_before {room : CatalogUnit} (hRoom : room ∈ t.units) (hCurrent : u.isCurrent room.id = true) :
    t.isCurrent room.id = true ∧ ∀ link ∈ effect.roomLink, effect.insertUnits ≠ [] → link.oldUnitId ≠ some room.id := by
  obtain ⟨hLinks, hNone⟩ | ⟨link, hLink, hPlaced, -⟩ := Carried.links_placed hCarried
  · refine ⟨?_, fun _ _ hSome => absurd hNone hSome⟩
    rwa [isCurrent_congr hLinks] at hCurrent
  · obtain ⟨hBefore, hAsset⟩ := hPlaced.current_before h.linkRows (hPlaced.new room hRoom) hCurrent
    refine ⟨hBefore, fun other hOther _ hOld => ?_⟩
    obtain rfl : link = other := Option.some.inj (hLink.symm.trans hOther)
    exact hAsset (hPlaced.shared room.id hOld).1

theorem CatalogInvariant.activeCurrent_after (hFits : EffectFits settings t effect) :
    ∀ room ∈ u.units, room.kind = .room → room.active = true → u.isCurrent room.id = true := by
  intro room hRoom hKind hActive
  obtain ⟨hLinks, hNone⟩ | ⟨link, hLink, hPlaced, hRetired, hTarget⟩ := Carried.links_placed hCarried
  · obtain ⟨old, hOld, rfl⟩ | hItem := (Carried.mem_units hCarried).mp hRoom
    · rw [isCurrent_congr hLinks, retiredUnit_id]
      exact h.activeCurrent old hOld (by simpa using hKind) (retiredUnit_active.mp hActive).1
    · rw [hNone] at hItem
      cases hItem
  · obtain ⟨old, hOld, rfl⟩ | hItem := (Carried.mem_units hCarried).mp hRoom
    · obtain ⟨hOldActive, hKept⟩ := retiredUnit_active.mp hActive
      have hBefore := h.activeCurrent old hOld (by simpa using hKind) hOldActive
      rw [retiredUnit_id]
      refine hPlaced.current_after h.linkRows (hPlaced.new old hOld) hBefore fun hAsset => ?_
      cases hOldId : link.oldUnitId with
      | none =>
        -- the asset is then the placed room, which no unit of before names
        rw [hPlaced.own hOldId] at hAsset
        cases hFound : t.linkByUnit old.id with
        | none =>
          rw [assetId_of_unlinked hFound] at hAsset
          exact hPlaced.new old hOld hAsset
        | some known =>
          rw [assetId_of_linked hFound] at hAsset
          obtain ⟨unit, hUnit, hId⟩ := h.linkRows.assets known (linkByUnit_some hFound).1
          exact hPlaced.new unit hUnit (hId.trans hAsset)
      | some replaced =>
        obtain ⟨hShared, -⟩ := hPlaced.shared replaced hOldId
        have hSame := current_unique h.linkRows hBefore (hFits.current link hLink replaced hOldId) (hAsset.trans hShared.symm)
        exact hKept (hSame ▸ hRetired replaced hOldId)
    · rw [hTarget room hItem hKind]
      exact hPlaced.current_target h.linkRows

theorem CatalogInvariant.activeCodes_after (hRows : UnitRows t.units) (hCodes : u.unitCodes = t.unitCodes)
    (hAdded : ∀ added ∈ effect.insertUnits, ∀ unit ∈ t.units, unit.active = true → unit.id ∉ effect.retireUnitIds →
      added.code ≠ displayCode t.unitCodes unit) :
    ∀ a ∈ u.units, ∀ b ∈ u.units, a.active = true → b.active = true →
      displayCode u.unitCodes a = displayCode u.unitCodes b → a.id = b.id := by
  have hMixed : ∀ old ∈ t.units, ∀ item ∈ effect.insertUnits, (retiredUnit effect.retireUnitIds old).active = true →
      displayCode u.unitCodes (retiredUnit effect.retireUnitIds old) ≠ displayCode u.unitCodes item := by
    intro old hOld item hItem hActive hSame
    obtain ⟨hOldActive, hKept⟩ := retiredUnit_active.mp hActive
    rw [h.inserted_code hCarried hCodes hItem, displayCode_retiredUnit, hCodes] at hSame
    exact hAdded item hItem old hOld hOldActive hKept hSame.symm
  have hAfter := Carried.rows hCarried hRows
  intro a ha b hb haActive hbActive hSame
  obtain ⟨oldA, hOldA, rfl⟩ | hItemA := (Carried.mem_units hCarried).mp ha
  · obtain ⟨oldB, hOldB, rfl⟩ | hItemB := (Carried.mem_units hCarried).mp hb
    · rw [displayCode_retiredUnit, displayCode_retiredUnit, hCodes] at hSame
      rw [retiredUnit_id, retiredUnit_id]
      exact h.activeCodes oldA hOldA oldB hOldB (retiredUnit_active.mp haActive).1 (retiredUnit_active.mp hbActive).1 hSame
    · exact absurd hSame (hMixed oldA hOldA b hItemB haActive)
  · obtain ⟨oldB, hOldB, rfl⟩ | hItemB := (Carried.mem_units hCarried).mp hb
    · exact absurd hSame.symm (hMixed oldB hOldB a hItemA hbActive)
    · rw [h.inserted_code hCarried hCodes hItemA, h.inserted_code hCarried hCodes hItemB] at hSame
      rw [UnitRows.eq_of_code hAfter.apart ha hb haActive hbActive hSame]

theorem CatalogInvariant.roomCodes_after (hFits : EffectFits settings t effect) (hCodes : u.unitCodes = t.unitCodes) :
    ∀ a ∈ u.currentRooms, ∀ b ∈ u.currentRooms, displayCode u.unitCodes a = displayCode u.unitCodes b → a.id = b.id := by
  have hOne : ∀ a ∈ effect.insertUnits, ∀ b ∈ effect.insertUnits, a.kind = .room → b.kind = .room → a.id = b.id := by
    intro a ha b hb haKind hbKind
    obtain ⟨-, hNone⟩ | ⟨link, -, -, -, hTarget⟩ := Carried.links_placed hCarried
    · rw [hNone] at ha
      cases ha
    · rw [hTarget a ha haKind, hTarget b hb hbKind]
  have hOld : ∀ old ∈ t.units, old.kind = .room → u.isCurrent old.id = true → old ∈ t.currentRooms :=
    fun old hMem hKind hCurrent => mem_currentRooms.mpr ⟨hMem, hKind, (h.current_before hCarried hMem hCurrent).1⟩
  have hMixed : ∀ old ∈ t.units, ∀ item ∈ effect.insertUnits, old.kind = .room → item.kind = .room →
      u.isCurrent old.id = true → displayCode t.unitCodes old ≠ displayCode u.unitCodes item := by
    intro old hMem item hItem hOldKind hKind hCurrent
    rw [h.inserted_code hCarried hCodes hItem]
    refine hFits.names item hItem hKind old (hOld old hMem hOldKind hCurrent) fun link hLink => ?_
    exact (h.current_before hCarried hMem hCurrent).2 link hLink (List.ne_nil_of_mem hItem)
  intro a ha b hb hSame
  obtain ⟨ha, haKind, haCurrent⟩ := mem_currentRooms.mp ha
  obtain ⟨hb, hbKind, hbCurrent⟩ := mem_currentRooms.mp hb
  obtain ⟨oldA, hOldA, rfl⟩ | hItemA := (Carried.mem_units hCarried).mp ha
  · rw [retiredUnit_kind] at haKind
    rw [retiredUnit_id] at haCurrent ⊢
    obtain ⟨oldB, hOldB, rfl⟩ | hItemB := (Carried.mem_units hCarried).mp hb
    · rw [retiredUnit_kind] at hbKind
      rw [retiredUnit_id] at hbCurrent ⊢
      rw [displayCode_retiredUnit, displayCode_retiredUnit, hCodes] at hSame
      exact h.roomCodes oldA (hOld oldA hOldA haKind haCurrent) oldB (hOld oldB hOldB hbKind hbCurrent) hSame
    · rw [displayCode_retiredUnit, hCodes] at hSame
      exact absurd (hSame.trans (by rw [hCodes])) (hMixed oldA hOldA b hItemB haKind hbKind haCurrent)
  · obtain ⟨oldB, hOldB, rfl⟩ | hItemB := (Carried.mem_units hCarried).mp hb
    · rw [retiredUnit_kind] at hbKind
      rw [retiredUnit_id] at hbCurrent
      rw [displayCode_retiredUnit] at hSame
      exact absurd (by rw [hSame, hCodes]) (hMixed oldB hOldB a hItemA hbKind haKind hbCurrent)
    · exact hOne a hItemA b hItemB haKind hbKind

theorem CatalogInvariant.claims_after : ∀ claim ∈ u.claims, claim.active = true → ∃ unit ∈ u.units, ∃ room ∈ u.units,
    unit.id = claim.unitId ∧ room.id = claim.roomId ∧ room.kind = .room ∧ unit.active = true ∧ room.active = true ∧
    (unit.id = room.id ∨ unit.parentRoomId = some room.id) := by
  have hApart := (checkRetirement_whole hCarried.retired h.rows).2
  have hAfter (unit : CatalogUnit) (hUnit : unit ∈ t.units) : retiredUnit effect.retireUnitIds unit ∈ u.units :=
    (Carried.mem_units hCarried).mpr (.inl ⟨unit, hUnit, rfl⟩)
  intro claim hClaim hActive
  rw [hCarried.claims] at hClaim
  obtain ⟨unit, hUnit, room, hRoom, hUnitId, hRoomId, hKind, hUnitActive, hRoomActive, hOf⟩ := h.claims claim hClaim hActive
  have hKept := hApart claim hClaim hActive room hRoom hKind hRoomId
  refine ⟨_, hAfter unit hUnit, _, hAfter room hRoom, ?_⟩
  simp only [retiredUnit_id, retiredUnit_kind, retiredUnit_parentRoomId]
  exact ⟨hUnitId, hRoomId, hKind, retiredUnit_active.mpr ⟨hUnitActive, hKept unit hUnit hOf⟩,
    retiredUnit_active.mpr ⟨hRoomActive, hKept room hRoom (.inl rfl)⟩, hOf⟩

theorem CatalogInvariant.types_after (hFits : EffectFits settings t effect) : ∀ unit ∈ u.units, unit.active = true →
    ∀ code ∈ unit.roomTypeCode, ∃ type ∈ (u.snapshot settings).types, type.code = code ∧ type.active = true ∧
      ∃ product ∈ type.products, unit.pricingProductCode = some product.code ∧ product.kind = unit.kind := by
  obtain ⟨target, hInserted⟩ := Carried.inserted hCarried
  rw [hCarried.snapshot_types]
  intro unit hUnit hActive code hCode
  obtain ⟨old, hOld, rfl⟩ | hItem := (Carried.mem_units hCarried).mp hUnit
  · obtain ⟨hOldActive, hKept⟩ := retiredUnit_active.mp hActive
    rw [retiredUnit_roomTypeCode] at hCode
    obtain ⟨type, hType, rfl, hTypeActive, product, hProduct, hProductCode, hProductKind⟩ := h.types old hOld hOldActive code hCode
    obtain ⟨kept, hKeptType, hKeptCode, hKeptActive, hProducts⟩ | hGone := hFits.types type hType hTypeActive
    · refine ⟨kept, hKeptType, hKeptCode, hKeptActive, product, hProducts product hProduct, ?_, ?_⟩
      · rw [retiredUnit_pricingProductCode, hProductCode]
      · rw [retiredUnit_kind, hProductKind]
    · exact absurd (hGone old hOld hOldActive hCode) hKept
  · obtain ⟨type, hType, hTypeCode, hTypeActive, hProduct⟩ := (hInserted.each unit hItem).typed
    exact ⟨type, hType, Option.some.inj (hTypeCode.symm.trans hCode), hTypeActive, hProduct⟩

theorem CatalogInvariant.carried (hFits : EffectFits settings t effect) (hRename : effect.roomRename = none) :
    CatalogInvariant settings u := by
  have hChecked := hCarried.renamed
  simp only [checkRename, hRename, require_eq_ok] at hChecked
  obtain ⟨-, hAfterCodes, hAdded⟩ := hChecked
  have hCodes : u.unitCodes = t.unitCodes := by
    rw [← hAfterCodes, CatalogTables.unitCodes, hCarried.stored]
    rfl
  have hEach : ∀ a ∈ effect.insertUnits, a.active = true := by
    obtain ⟨target, hInserted⟩ := Carried.inserted hCarried
    exact fun a ha => (hInserted.each a ha).active
  refine ⟨Carried.rows hCarried h.rows, ?_, h.linkRows_after hCarried, ?_, h.activeCurrent_after hCarried hFits,
    h.activeCodes_after hCarried h.rows hCodes hAdded, h.roomCodes_after hCarried hFits hCodes, ?_, h.claims_after hCarried,
    h.types_after hCarried hFits⟩
  · intro bed hBed room hRoom hParent
    obtain ⟨oldBed, hOldBed, oldRoom, hOldRoom, rfl, rfl, hOldParent⟩ | ⟨hBedItem, hRoomItem⟩ :=
      Carried.bed_room hCarried h.rows hBed hRoom hParent
    · rw [retiredUnit_roomTypeCode, retiredUnit_roomTypeCode]
      exact h.bedsTyped oldBed hOldBed oldRoom hOldRoom hOldParent
    · exact hFits.sameType bed hBedItem room hRoomItem
  · intro entry hEntry
    obtain ⟨unit, hUnit, hId⟩ := h.overlay entry (hCodes ▸ hEntry)
    exact ⟨_, (Carried.mem_units hCarried).mpr (.inl ⟨unit, hUnit, rfl⟩), by rw [retiredUnit_id, hId]⟩
  · intro bed hBed room hRoom hParent
    obtain ⟨oldBed, hOldBed, oldRoom, hOldRoom, rfl, rfl, hOldParent⟩ | ⟨hBedItem, hRoomItem⟩ :=
      Carried.bed_room hCarried h.rows hBed hRoom hParent
    · have hSame := h.beds oldBed hOldBed oldRoom hOldRoom hOldParent
      have hBoth := (checkRetirement_whole hCarried.retired h.rows).1 oldBed hOldBed oldRoom hOldRoom hOldParent
      rw [Bool.eq_iff_iff, retiredUnit_active, retiredUnit_active, hSame, hBoth]
    · rw [hEach bed hBedItem, hEach room hRoomItem]

end Placing

section Renaming

theorem lookup_of_ids {units : List CatalogUnit} (hIds : ∀ a ∈ units, ∀ b ∈ units, a.id = b.id → a = b) (f : CatalogUnit → Label)
    {unit : CatalogUnit} (hUnit : unit ∈ units) : (units.map fun unit => (unit.id, f unit)).lookup unit.id = some (f unit) := by
  induction units with
  | nil => cases hUnit
  | cons first rest ih =>
    rw [List.map_cons, List.lookup_cons]
    cases hSame : unit.id == first.id with
    | true => rw [hIds unit hUnit first List.mem_cons_self (eq_of_beq hSame)]
    | false =>
      have hRest : unit ∈ rest := (List.mem_cons.mp hUnit).resolve_left fun h => by simp [h] at hSame
      exact ih (fun a ha b hb => hIds a (List.mem_cons_of_mem _ ha) b (List.mem_cons_of_mem _ hb)) hRest

/-- A rename shows the room under the new code, and each bed of it under that code with the bed's own ending. -/
structure Renamed (t : CatalogTables) (room : CatalogUnit) (code : Label) (unitCodes : List (Label × Label)) : Prop where
  known : room ∈ t.units ∧ room.kind = .room
  shown : displayCode unitCodes room = code
  beds : ∀ bed ∈ t.units, bed.parentRoomId = some room.id →
    ∃ ending, bed.code = room.code ++ '-' :: ending ∧ displayCode unitCodes bed = code ++ '-' :: ending
  others : ∀ other ∈ t.units, other.id ≠ room.id → other.parentRoomId ≠ some room.id →
    displayCode unitCodes other = displayCode t.unitCodes other
  free : ∀ other ∈ t.units, other.active = true ∨ other.kind = .room → other.id ≠ room.id → other.parentRoomId ≠ some room.id →
    displayCode unitCodes other ≠ code ∧
      ∀ bed ∈ t.units, bed.parentRoomId = some room.id → displayCode unitCodes other ≠ displayCode unitCodes bed

variable (h : CatalogInvariant settings t) (hCarried : Carried settings ctx t effect u)
include h hCarried

theorem CatalogInvariant.renamed_codes {rename : RoomRename} (hRename : effect.roomRename = some rename) :
    ∃ room code, Renamed t room code u.unitCodes ∧ u.units = t.units ∧ u.links = t.links ∧
      ∀ entry ∈ u.unitCodes, ∃ unit ∈ t.units, unit.id = entry.1 := by
  have hChecked := hCarried.renamed
  simp only [checkRename, hRename, bind_eq_ok, require_eq_ok, expect_eq_ok] at hChecked
  obtain ⟨-, -, room, hFound, -, ⟨-, -, -, -, -, hRetired, hInserted, -⟩, -, hEndings, -, hCodes, hFree⟩ := hChecked
  have hRoom : room ∈ t.units := List.mem_of_find?_eq_some hFound
  have hKind : room.kind = .room := by
    have := List.find?_some hFound
    simp only [decide_eq_true_eq] at this
    exact this.2.1
  have hUnits : u.units = t.units := by
    rw [hCarried.units, hRetired, hInserted]
    simp [retireUnits]
  have hLinks : u.links = t.links := by
    obtain ⟨hLinks, -⟩ | ⟨link, -, hPlaced, -, hTarget⟩ := Carried.links_placed hCarried
    · exact hLinks
    · obtain ⟨unit, hUnit, hId, -⟩ := hPlaced.room
      exact absurd hId (hPlaced.new unit (hUnits ▸ hUnit))
  generalize rename.afterCode = code at hCodes hFree
  have hAfter : u.unitCodes = CatalogBasis.renamedCodes t.inventoryRows room.id room.code code ++ t.unitCodes := by
    rw [← hCodes, CatalogTables.unitCodes, hCarried.stored]
    rfl
  have hBeds {bed : CatalogUnit} : bed ∈ t.inventoryRows.filter (fun unit => unit.parentRoomId = some room.id) ↔
      bed ∈ t.units ∧ bed.parentRoomId = some room.id := by
    rw [List.mem_filter, mem_inventoryRows, decide_eq_true_eq]
  have hIds {id : Label} : id ∈ (CatalogBasis.renamedCodes t.inventoryRows room.id room.code code).map Prod.fst ↔
      id = room.id ∨ ∃ bed ∈ t.units, bed.parentRoomId = some room.id ∧ bed.id = id := by
    simp only [CatalogBasis.renamedCodes, List.map_cons, List.map_map, List.mem_cons, List.mem_map, hBeds]
    simp [and_assoc]
  have hOutside : ∀ other ∈ t.units, other.id ≠ room.id → other.parentRoomId ≠ some room.id →
      other.id ∉ (CatalogBasis.renamedCodes t.inventoryRows room.id room.code code).map Prod.fst := by
    intro other hOther hNotRoom hNotBed hMem
    obtain hSame | ⟨bed, hBed, hParent, hSame⟩ := hIds.mp hMem
    · exact hNotRoom hSame
    · exact hNotBed (UnitRows.eq_of_id h.rows.apart hBed hOther hSame ▸ hParent)
  have hShown : displayCode u.unitCodes room = code := by
    rw [displayCode, hAfter, CatalogBasis.renamedCodes, List.cons_append, List.lookup_cons, beq_self_eq_true]
    rfl
  have hBedCode : ∀ bed ∈ t.units, bed.parentRoomId = some room.id →
      displayCode u.unitCodes bed = code ++ bed.code.drop room.code.length := by
    intro bed hBed hParent
    have hNotRoom : (bed.id == room.id) = false := by
      refine beq_false_of_ne fun hSame => ?_
      rw [UnitRows.eq_of_id h.rows.apart hBed hRoom hSame, h.rows.rooms room hRoom hKind] at hParent
      cases hParent
    rw [displayCode, hAfter, CatalogBasis.renamedCodes, List.lookup_append, List.lookup_cons, hNotRoom]
    rw [lookup_of_ids (fun a ha b hb => UnitRows.eq_of_id h.rows.apart (hBeds.mp ha).1 (hBeds.mp hb).1)
      (fun unit => code ++ unit.code.drop room.code.length) (hBeds.mpr ⟨hBed, hParent⟩)]
    rfl
  refine ⟨room, code, ⟨⟨hRoom, hKind⟩, hShown, ?_, ?_, ?_⟩, hUnits, hLinks, ?_⟩
  · intro bed hBed hParent
    obtain ⟨ending, hEnding⟩ := hEndings bed hBed hParent
    have hCode : bed.code = room.code ++ '-' :: ending := by
      rw [← hEnding, List.append_assoc]
      rfl
    refine ⟨ending, hCode, ?_⟩
    rw [hBedCode bed hBed hParent, hCode, List.drop_left]
  · intro other hOther hNotRoom hNotBed
    have hNone : (CatalogBasis.renamedCodes t.inventoryRows room.id room.code code).lookup other.id = none := by
      refine List.lookup_eq_none_iff.mpr fun entry hEntry => bne_iff_ne.mpr fun hSame => ?_
      exact hOutside other hOther hNotRoom hNotBed (hSame ▸ List.mem_map_of_mem hEntry)
    rw [displayCode, displayCode, hAfter, List.lookup_append, hNone]
    rfl
  · intro other hOther hUsed hNotRoom hNotBed
    have hApart := hFree other hOther hUsed (hOutside other hOther hNotRoom hNotBed)
    rw [← hAfter] at hApart
    refine ⟨fun hSame => (hApart code ?_).2 hSame.symm, fun bed hBed hParent hSame => ?_⟩
    · rw [CatalogBasis.renamedCodes]
      exact List.mem_cons_self
    · refine (hApart (displayCode u.unitCodes bed) ?_).2 hSame.symm
      rw [hBedCode bed hBed hParent, CatalogBasis.renamedCodes, List.map_cons, List.map_map]
      exact List.mem_cons_of_mem _ (List.mem_map.mpr ⟨bed, hBeds.mpr ⟨hBed, hParent⟩, rfl⟩)
  · intro entry hEntry
    rw [hAfter] at hEntry
    obtain hNew | hOld := List.mem_append.mp hEntry
    · obtain hSame | ⟨bed, hBed, -, hSame⟩ := hIds.mp (List.mem_map_of_mem hNew)
      · exact ⟨room, hRoom, hSame.symm⟩
      · exact ⟨bed, hBed, hSame⟩
    · exact h.overlay entry hOld

omit h hCarried in
theorem Renamed.same_code {room : CatalogUnit} {code : Label} {unitCodes : List (Label × Label)}
    (hRenamed : Renamed t room code unitCodes) {a b : CatalogUnit} (ha : a ∈ t.units) (hb : b ∈ t.units)
    (hA : a = room ∨ a.parentRoomId = some room.id) (hB : b = room ∨ b.parentRoomId = some room.id)
    (hSame : displayCode unitCodes a = displayCode unitCodes b) : a = b ∨ a.code = b.code := by
  have hLonger (ending : Label) : code ≠ code ++ '-' :: ending := by
    intro hEqual
    have := congrArg List.length hEqual
    rw [List.length_append, List.length_cons] at this
    omega
  obtain rfl | hA := hA
  · obtain rfl | hB := hB
    · exact .inl rfl
    · obtain ⟨ending, -, hShown⟩ := hRenamed.beds b hb hB
      rw [hRenamed.shown, hShown] at hSame
      exact absurd hSame (hLonger ending)
  · obtain ⟨ending, hCode, hShown⟩ := hRenamed.beds a ha hA
    obtain rfl | hB := hB
    · rw [hRenamed.shown, hShown] at hSame
      exact absurd hSame.symm (hLonger ending)
    · obtain ⟨ending', hCode', hShown'⟩ := hRenamed.beds b hb hB
      rw [hShown, hShown'] at hSame
      rw [hCode, hCode', List.append_cancel_left hSame]
      exact .inr rfl

omit hCarried in
theorem CatalogInvariant.renamed_apart {room : CatalogUnit} {code : Label} (hRenamed : Renamed t room code u.unitCodes)
    {a b : CatalogUnit} (ha : a ∈ t.units) (hb : b ∈ t.units) (haUsed : a.active = true ∨ a.kind = .room)
    (hbUsed : b.active = true ∨ b.kind = .room) (hSame : displayCode u.unitCodes a = displayCode u.unitCodes b) :
    displayCode t.unitCodes a = displayCode t.unitCodes b ∨ a = b ∨
      a.parentRoomId = some room.id ∧ b.parentRoomId = some room.id ∧ a.code = b.code := by
  have hOutside : ∀ inside ∈ t.units, ∀ other ∈ t.units, inside.id = room.id ∨ inside.parentRoomId = some room.id →
      other.active = true ∨ other.kind = .room → other.id ≠ room.id → other.parentRoomId ≠ some room.id →
      displayCode u.unitCodes other ≠ displayCode u.unitCodes inside := by
    intro inside hInside other hOther hOf hUsed hNotRoom hNotBed hEqual
    obtain ⟨hCode, hBeds⟩ := hRenamed.free other hOther hUsed hNotRoom hNotBed
    obtain hRoom | hBed := hOf
    · rw [UnitRows.eq_of_id h.rows.apart hInside hRenamed.known.1 hRoom, hRenamed.shown] at hEqual
      exact hCode hEqual
    · exact hBeds inside hInside hBed hEqual
  by_cases hA : a.id = room.id ∨ a.parentRoomId = some room.id
  · by_cases hB : b.id = room.id ∨ b.parentRoomId = some room.id
    · have hIsA := hA.imp_left fun hId => UnitRows.eq_of_id h.rows.apart ha hRenamed.known.1 hId
      have hIsB := hB.imp_left fun hId => UnitRows.eq_of_id h.rows.apart hb hRenamed.known.1 hId
      obtain hEqual | hCode := Renamed.same_code hRenamed ha hb hIsA hIsB hSame
      · exact .inr (.inl hEqual)
      · obtain rfl | hA := hIsA
        · obtain rfl | hB := hIsB
          · exact .inr (.inl rfl)
          · obtain ⟨ending, hLonger, -⟩ := hRenamed.beds b hb hB
            have := congrArg List.length (hCode.trans hLonger)
            rw [List.length_append, List.length_cons] at this
            omega
        · obtain rfl | hB := hIsB
          · obtain ⟨ending, hLonger, -⟩ := hRenamed.beds a ha hA
            have := congrArg List.length (hCode.symm.trans hLonger)
            rw [List.length_append, List.length_cons] at this
            omega
          · exact .inr (.inr ⟨hA, hB, hCode⟩)
    · obtain ⟨hNotRoom, hNotBed⟩ := not_or.mp hB
      exact absurd hSame.symm (hOutside a ha b hb hA hbUsed hNotRoom hNotBed)
  · obtain ⟨hNotRoom, hNotBed⟩ := not_or.mp hA
    by_cases hB : b.id = room.id ∨ b.parentRoomId = some room.id
    · exact absurd hSame (hOutside b hb a ha hB haUsed hNotRoom hNotBed)
    · obtain ⟨hNotRoomB, hNotBedB⟩ := not_or.mp hB
      rw [hRenamed.others a ha hNotRoom hNotBed, hRenamed.others b hb hNotRoomB hNotBedB] at hSame
      exact .inl hSame

theorem CatalogInvariant.renamed {rename : RoomRename} (hRename : effect.roomRename = some rename)
    (hTypes : effect.after.types = (t.snapshot settings).types) : CatalogInvariant settings u := by
  obtain ⟨room, code, hRenamed, hUnits, hLinks, hOverlay⟩ := h.renamed_codes hCarried hRename
  have hSnapshot : (u.snapshot settings).types = (t.snapshot settings).types := by
    rw [hCarried.snapshot_types, hTypes]
  have hCurrent (unit : CatalogUnit) : unit ∈ u.currentRooms ↔ unit ∈ t.currentRooms := by
    rw [mem_currentRooms, mem_currentRooms, hUnits, isCurrent_congr hLinks]
  refine ⟨hUnits ▸ h.rows, hUnits ▸ h.bedsTyped, h.linkRows_after hCarried, hUnits ▸ hOverlay, ?_, ?_, ?_, hUnits ▸ h.beds,
    h.claims_after hCarried, ?_⟩
  · intro unit hUnit hKind hActive
    rw [isCurrent_congr hLinks]
    exact h.activeCurrent unit (hUnits ▸ hUnit) hKind hActive
  · intro a ha b hb haActive hbActive hSame
    rw [hUnits] at ha hb
    obtain hBefore | rfl | ⟨-, -, hCode⟩ := h.renamed_apart hRenamed ha hb (.inl haActive) (.inl hbActive) hSame
    · exact h.activeCodes a ha b hb haActive hbActive hBefore
    · rfl
    · rw [UnitRows.eq_of_code h.rows.apart ha hb haActive hbActive hCode]
  · intro a ha b hb hSame
    have haBefore := (hCurrent a).mp ha
    have hbBefore := (hCurrent b).mp hb
    obtain ⟨haUnit, haKind, -⟩ := mem_currentRooms.mp haBefore
    obtain ⟨hbUnit, hbKind, -⟩ := mem_currentRooms.mp hbBefore
    obtain hBefore | rfl | ⟨hParent, -⟩ := h.renamed_apart hRenamed haUnit hbUnit (.inr haKind) (.inr hbKind) hSame
    · exact h.roomCodes a haBefore b hbBefore hBefore
    · rfl
    · rw [h.rows.rooms a haUnit haKind] at hParent
      cases hParent
  · rw [hUnits, hSnapshot]
    exact h.types

end Renaming

section Claims

variable (h : CatalogInvariant settings t)
include h

/-- The rows of the claims are the only ones that claims change. -/
theorem CatalogInvariant.withClaims {claims : List RoomClaim} (hClaims : ∀ claim ∈ claims, claim.active = true →
    ∃ unit ∈ t.units, ∃ room ∈ t.units, unit.id = claim.unitId ∧ room.id = claim.roomId ∧ room.kind = .room ∧
      unit.active = true ∧ room.active = true ∧ (unit.id = room.id ∨ unit.parentRoomId = some room.id)) :
    CatalogInvariant settings { t with claims } :=
  ⟨h.rows, h.bedsTyped, ⟨h.linkRows.unique, h.linkRows.rooms, h.linkRows.assets, h.linkRows.rooted, h.linkRows.numbered⟩,
    h.overlay, h.activeCurrent, h.activeCodes, h.roomCodes, h.beds, hClaims, h.types⟩

theorem CatalogInvariant.createClaim {claimId : Nat} {unitId : Label} (hStep : t.createClaim claimId unitId = .ok u) :
    CatalogInvariant settings u := by
  simp only [CatalogTables.createClaim, bind_eq_ok, expect_eq_ok, require_eq_ok, pure_eq_ok] at hStep
  obtain ⟨unit, hFound, -, hGuard, rfl⟩ := hStep
  refine h.withClaims fun claim hClaim hActive => ?_
  obtain hOld | hNew := List.mem_append.mp hClaim
  · exact h.claims claim hOld hActive
  · obtain rfl := List.mem_singleton.mp hNew
    obtain ⟨held, hHeld, room, hRoom, hHeldId, hRoomId, hHeldActive, hRoomActive, hOf⟩ := hGuard rfl
    have hUnit : unit ∈ t.units := List.mem_of_find?_eq_some hFound
    have hSame : held = unit := UnitRows.eq_of_id h.rows.apart hHeld hUnit hHeldId
    refine ⟨held, hHeld, room, hRoom, hHeldId, hRoomId, ?_, hHeldActive, hRoomActive, hOf⟩
    cases hKind : unit.kind with
    | room =>
      rw [hKind, if_pos rfl] at hRoomId
      rwa [UnitRows.eq_of_id h.rows.apart hRoom hUnit hRoomId]
    | bed =>
      obtain ⟨owner, hOwner, hOwnerKind, hParent⟩ := h.rows.beds unit hUnit hKind
      rw [hKind, if_neg (by decide), hParent] at hRoomId
      rwa [UnitRows.eq_of_id h.rows.apart hRoom hOwner hRoomId]

theorem CatalogInvariant.releaseClaim (claimId : Nat) : CatalogInvariant settings (t.releaseClaim claimId) := by
  refine h.withClaims fun claim hClaim hActive => ?_
  obtain ⟨old, hOld, rfl⟩ := List.mem_map.mp hClaim
  split at hActive
  · cases hActive
  · rename_i hOther
    rw [if_neg hOther]
    exact h.claims old hOld hActive

end Claims

end GreenPms
