import GreenPms.Catalog.Soundness

/-! # The catalog stays sound

What each action prepares fits the catalog that it was prepared for. A catalog that is sound at first, with
each bed of its room's type, is sound after every run, and no unit changes what it is.
-/

namespace GreenPms

open Checked TransitionSystem CatalogBasis CatalogTables

variable {settings : CatalogSettings} {ctx : CatalogContext} {t u : CatalogTables} {effect : RoomCatalogEffect}
  {input : RoomCatalogInput}

/-! ## What an action prepares -/

def TypeKept (after : List ManagedRoomType) (type : ManagedRoomType) : Prop :=
  ∃ kept ∈ after, kept.code = type.code ∧ kept.active = true ∧ ∀ product ∈ type.products, product ∈ kept.products

theorem TypeKept.self {after : List ManagedRoomType} {type : ManagedRoomType} (h : type ∈ after) (hActive : type.active = true) :
    TypeKept after type :=
  ⟨type, h, rfl, hActive, fun _ hProduct => hProduct⟩

/-- An effect that places no room need only keep the types that units in use have. -/
theorem EffectFits.of_types (hUnits : effect.insertUnits = []) (hLink : effect.roomLink = none)
    (hTypes : ∀ type ∈ (t.snapshot settings).types, type.active = true → TypeKept effect.after.types type ∨
      ∀ unit ∈ t.units, unit.active = true → unit.roomTypeCode = some type.code → unit.id ∈ effect.retireUnitIds) :
    EffectFits settings t effect where
  types := hTypes
  names item hItem := by
    rw [hUnits] at hItem
    cases hItem
  current link hLinked := by
    rw [hLink] at hLinked
    cases hLinked
  sameType a ha := by
    rw [hUnits] at ha
    cases ha

theorem EffectFits.of_kept (hUnits : effect.insertUnits = []) (hLink : effect.roomLink = none)
    (hTypes : effect.after.types = (t.snapshot settings).types) : EffectFits settings t effect :=
  .of_types hUnits hLink fun _ hType hActive => .inl (.self (hTypes ▸ hType) hActive)

theorem types_replaced {as bs types after : List ManagedRoomType} {old new : ManagedRoomType} (hOld : types = as ++ old :: bs)
    (hNew : after = as ++ new :: bs) {type : ManagedRoomType} (hType : type ∈ types) (hActive : type.active = true) :
    TypeKept after type ∨ type = old := by
  rw [hOld, List.mem_append, List.mem_cons] at hType
  rw [hNew]
  rcases hType with hBefore | rfl | hBehind
  · exact .inl (.self (List.mem_append_left _ hBefore) hActive)
  · exact .inr rfl
  · exact .inl (.self (List.mem_append_right _ (List.mem_cons_of_mem _ hBehind)) hActive)

theorem replacement_mem {as bs after : List ManagedRoomType} {new : ManagedRoomType} (hNew : after = as ++ new :: bs) :
    new ∈ after := by
  rw [hNew]
  exact List.mem_append_right _ List.mem_cons_self

theorem mem_basisUnits {unit : CatalogUnit} : unit ∈ (t.catalogBasis settings).units ↔ unit ∈ t.units := mem_inventoryRows

theorem saveType_fits {selectedType : Option ManagedRoomType}
    (h : (t.catalogBasis settings).saveType ctx input selectedType = .ok effect)
    (hFound : ∀ type, selectedType = some type →
      (t.catalogBasis settings).snapshot.types.find? (·.code = type.code) = some type) :
    effect.roomRename = none ∧ EffectFits settings t effect := by
  simp only [saveType, bind_eq_ok, require_eq_ok, expect_eq_ok, pure_eq_ok] at h
  obtain ⟨name, -, bathroom, -, saleMode, -, -, -, bedCount, -, capacity, -, -, -, -, hMode, rfl⟩ := h
  refine ⟨rfl, .of_types rfl rfl fun type hType hActive => ?_⟩
  cases selectedType with
  | none => exact .inl (.self (List.mem_append_left _ hType) hActive)
  | some selected =>
    obtain ⟨as, bs, hOld, hNew⟩ := modifyFirst_append
      (fun _ => (⟨selected.code, name, bathroom, saleMode, bedCount, capacity, selected.active,
        savedProducts (some selected) selected.code saleMode⟩ : ManagedRoomType)) (hFound selected rfl)
    obtain hKept | rfl := types_replaced hOld hNew hType hActive
    · exact .inl hKept
    · by_cases hSame : type.saleMode = saleMode
      · refine .inl ⟨_, replacement_mem hNew, rfl, hActive, fun product hProduct => ?_⟩
        simpa [savedProducts, hSame] using hProduct
      · refine .inr fun unit hUnit _ hCode => ?_
        exact absurd hCode ((hMode type rfl hSame).1 unit (mem_basisUnits.mpr hUnit))

theorem deleteType_fits {type : ManagedRoomType} (h : (t.catalogBasis settings).deleteType ctx input type = .ok effect) :
    effect.roomRename = none ∧ EffectFits settings t effect := by
  simp only [deleteType, bind_eq_ok, require_eq_ok, pure_eq_ok] at h
  obtain ⟨-, ⟨hUnits, -⟩, rfl⟩ := h
  refine ⟨rfl, .of_types rfl rfl fun other hOther hActive => ?_⟩
  by_cases hSame : other.code = type.code
  · refine .inr fun unit hUnit _ hCode => ?_
    rw [hSame] at hCode
    exact absurd hCode (hUnits unit (mem_basisUnits.mpr hUnit))
  · exact .inl (.self (List.mem_filter.mpr ⟨hOther, by simpa using hSame⟩) hActive)

theorem retire_ok {rooms : List ManagedRoom} {replacement : Option Label} {retiring : List Label}
    (h : (t.catalogBasis settings).retire ctx rooms replacement = .ok retiring) {id : Label}
    (hId : ∃ room ∈ rooms, id = room.unitId ∨ ∃ bed ∈ room.beds, bed.id = id) : id ∈ retiring := by
  simp only [retire, bind_eq_ok, pure_eq_ok] at h
  obtain ⟨-, -, -, -, rfl⟩ := h
  obtain ⟨room, hRoom, hOf⟩ := hId
  rw [List.mem_insertionSort, List.mem_flatMap]
  refine ⟨room, hRoom, List.mem_cons.mpr (hOf.imp_right ?_)⟩
  rintro ⟨bed, hBed, hSame⟩
  exact List.mem_map.mpr ⟨bed, hBed, hSame⟩

theorem mem_beds {room bed : CatalogUnit} (hBed : bed ∈ t.units) (hParent : bed.parentRoomId = some room.id) :
    ∃ managed ∈ (t.managedRoom room).beds, managed.id = bed.id := by
  refine ⟨_, List.mem_map.mpr ⟨bed, ?_, rfl⟩, rfl⟩
  rw [CatalogTables.beds, List.mem_filter, mem_inventoryRows]
  exact ⟨hBed, decide_eq_true hParent⟩

theorem setTypeActive_fits {type : ManagedRoomType} (hInvariant : CatalogInvariant settings t)
    (h : (t.catalogBasis settings).setTypeActive ctx input type = .ok effect)
    (hFound : (t.catalogBasis settings).snapshot.types.find? (·.code = type.code) = some type) :
    effect.roomRename = none ∧ EffectFits settings t effect := by
  simp only [setTypeActive, bind_eq_ok, require_eq_ok, pure_eq_ok] at h
  obtain ⟨active, -, -, hSwitch, retireUnitIds, hRetire, rfl⟩ := h
  obtain ⟨as, bs, hOld, hNew⟩ := modifyFirst_append (fun type : ManagedRoomType => { type with active }) hFound
  refine ⟨rfl, .of_types rfl rfl fun other hOther hActive => ?_⟩
  obtain hKept | rfl := types_replaced hOld hNew hOther hActive
  · exact .inl hKept
  · have hOff : active = false := by
      rw [hActive] at hSwitch
      simpa using hSwitch.symm
    subst hOff
    rw [retireType, if_neg Bool.false_ne_true] at hRetire
    have hRoomRetired : ∀ room ∈ t.units, room.kind = .room → room.active = true → room.roomTypeCode = some other.code →
        ∃ managed ∈ (t.catalogBasis settings).rooms.filter fun room => room.active = true ∧ room.typeCode = other.code,
          managed = t.managedRoom room := by
      intro room hRoom hKind hRoomActive hCode
      refine ⟨_, List.mem_filter.mpr ⟨List.mem_map.mpr ⟨room, ?_, rfl⟩, ?_⟩, rfl⟩
      · exact mem_currentRooms.mpr ⟨hRoom, hKind, hInvariant.activeCurrent room hRoom hKind hRoomActive⟩
      · simp [managedRoom, hRoomActive, hCode]
    refine .inr fun unit hUnit hUnitActive hCode => retire_ok hRetire ?_
    cases hKind : unit.kind with
    | room =>
      obtain ⟨managed, hManaged, rfl⟩ := hRoomRetired unit hUnit hKind hUnitActive hCode
      exact ⟨_, hManaged, .inl rfl⟩
    | bed =>
      obtain ⟨room, hRoom, hRoomKind, hParent⟩ := hInvariant.rows.beds unit hUnit hKind
      have hRoomActive : room.active = true := by rw [← hInvariant.beds unit hUnit room hRoom hParent, hUnitActive]
      have hRoomCode : room.roomTypeCode = some other.code := by
        rw [← hInvariant.bedsTyped unit hUnit room hRoom hParent, hCode]
      obtain ⟨managed, hManaged, rfl⟩ := hRoomRetired room hRoom hRoomKind hRoomActive hRoomCode
      exact ⟨_, hManaged, .inr (mem_beds hUnit hParent)⟩

theorem mem_roomUnits {type : ManagedRoomType} {roomId code building : Label} {bedCount capacity : Nat} {item : CatalogUnit}
    (h : item ∈ roomUnits type roomId code building bedCount capacity) :
    item.roomTypeCode = some type.code ∧ (item.kind = .room → item.code = code) := by
  rw [roomUnits, List.mem_cons] at h
  obtain rfl | hBed := h
  · exact ⟨rfl, fun _ => rfl⟩
  · cases hMode : type.saleMode with
    | room =>
      rw [hMode] at hBed
      cases hBed
    | bed =>
      rw [hMode] at hBed
      obtain ⟨i, -, rfl⟩ := List.mem_map.mp hBed
      exact ⟨rfl, nofun⟩

theorem placeRoom_fits {type : ManagedRoomType} {old : Option ManagedRoom} {code building : Option Label}
    {bedCount capacity : Option Nat}
    (h : (t.catalogBasis settings).placeRoom ctx input type old code building bedCount capacity = .ok effect)
    (hFound : (t.catalogBasis settings).snapshot.types.find? (·.code = type.code) = some type)
    (hOld : ∀ room ∈ old, room ∈ (t.catalogBasis settings).rooms) :
    effect.roomRename = none ∧ EffectFits settings t effect := by
  simp only [placeRoom, bind_eq_ok, require_eq_ok, pure_eq_ok] at h
  obtain ⟨-, hActive, code, -, building, -, bedCount, -, capacity, -, -, -, -, hNames, retireUnitIds, -, -, -, rfl⟩ := h
  obtain ⟨as, bs, hBefore, hAfter⟩ := modifyFirst_append (fun type : ManagedRoomType => type.withRoom bedCount) hFound
  refine ⟨rfl, ?_, ?_, ?_, ?_⟩
  · intro other hOther hOtherActive
    obtain hKept | rfl := types_replaced hBefore hAfter hOther hOtherActive
    · exact .inl hKept
    · refine .inl ⟨other.withRoom bedCount, replacement_mem hAfter, rfl, hOtherActive, ?_⟩
      exact fun product hProduct => List.mem_append_left _ hProduct
  · intro item hItem hKind room hRoom hOther
    rw [(mem_roomUnits hItem).2 hKind]
    have hManaged : t.managedRoom room ∈ (t.catalogBasis settings).rooms := List.mem_map_of_mem hRoom
    exact hNames _ hManaged fun hSame => hOther _ rfl hSame.symm
  · rintro link ⟨⟩ id hId
    obtain ⟨room, hRoom, rfl⟩ := Option.map_eq_some_iff.mp hId
    obtain ⟨unit, hUnit, rfl⟩ := List.mem_map.mp (hOld room hRoom)
    exact (mem_currentRooms.mp hUnit).2.2
  · intro a ha b hb
    rw [(mem_roomUnits ha).1, (mem_roomUnits hb).1]

theorem prepareAction_fits {selectedType : Option ManagedRoomType} {selectedRoom : Option ManagedRoom}
    (hInvariant : CatalogInvariant settings t) (hType : (t.catalogBasis settings).selectType input = .ok selectedType)
    (hRoom : (t.catalogBasis settings).selectRoom input = .ok selectedRoom)
    (h : (t.catalogBasis settings).prepareAction ctx input selectedType selectedRoom = .ok effect) :
    (effect.roomRename = none ∧ EffectFits settings t effect) ∨
      ∃ rename, effect.roomRename = some rename ∧ effect.after.types = (t.snapshot settings).types := by
  have hFound : ∀ type, selectedType = some type →
      (t.catalogBasis settings).snapshot.types.find? (·.code = type.code) = some type := fun type => selectType_found hType
  have hSelected : ∀ room ∈ selectedRoom, room ∈ (t.catalogBasis settings).rooms := by
    rintro room rfl
    rw [selectRoom] at hRoom
    split at hRoom
    case h_1 => cases hRoom
    case h_2 =>
      simp only [map_eq_ok, expect_eq_ok, Option.some.injEq] at hRoom
      obtain ⟨found, hFind, rfl⟩ := hRoom
      exact List.mem_of_find?_eq_some hFind
  have hStored (snapshot : RoomCatalogSnapshot) (hSnapshot : snapshot.types = (t.snapshot settings).types) :
      (t.stored.getD snapshot).types = (t.snapshot settings).types := by
    cases hSome : t.stored with
    | none => exact hSnapshot
    | some stored => exact (stored_snapshot hSome).1
  have hRename {room : ManagedRoom} (h : (t.catalogBasis settings).renameRoom input room = .ok effect) :
      ∃ rename, effect.roomRename = some rename ∧ effect.after.types = (t.snapshot settings).types := by
    simp only [renameRoom, bind_eq_ok, require_eq_ok, expect_eq_ok, pure_eq_ok] at h
    obtain ⟨-, -, code, -, -, -, canonical, -, -, -, -, -, rfl⟩ := h
    exact ⟨_, rfl, hStored _ rfl⟩
  rw [prepareAction] at h
  cases hAction : input.action <;> simp only [hAction, bind_eq_ok, expect_eq_ok] at h
  case saveType => exact .inl (saveType_fits h hFound)
  case deleteType =>
    obtain ⟨type, -, h⟩ := h
    exact .inl (deleteType_fits h)
  case setTypeActive =>
    obtain ⟨type, hSome, h⟩ := h
    exact .inl (setTypeActive_fits hInvariant h (hFound type hSome))
  case saveRoom =>
    split at h
    case isTrue =>
      simp only [bind_eq_ok, expect_eq_ok] at h
      obtain ⟨room, -, h⟩ := h
      exact .inr (hRename h)
    case isFalse =>
      simp only [bind_eq_ok, expect_eq_ok] at h
      obtain ⟨type, hSome, h⟩ := h
      exact .inl (placeRoom_fits h (hFound type hSome) hSelected)
  case renameRoom =>
    obtain ⟨room, -, h⟩ := h
    exact .inr (hRename h)
  case setRoomActive =>
    obtain ⟨room, hSome, h⟩ := h
    simp only [setRoomActive, flag, bind_eq_ok, expect_eq_ok, require_eq_ok] at h
    obtain ⟨activate, -, -, -, h⟩ := h
    cases activate with
    | false =>
      simp only [bind_eq_ok, pure_eq_ok] at h
      obtain ⟨retireUnitIds, -, rfl⟩ := h
      exact .inl ⟨rfl, .of_kept rfl rfl rfl⟩
    | true =>
      simp only [bind_eq_ok, expect_eq_ok] at h
      obtain ⟨type, hTypeFound, h⟩ := h
      have hCode : type.code = room.typeCode := by simpa using List.find?_some hTypeFound
      refine .inl (placeRoom_fits h (by rw [hCode]; exact hTypeFound) fun other hOther => ?_)
      exact hSelected other (hSome.trans (congrArg some (Option.some.inj hOther)))
  case publishRates =>
    obtain ⟨type, -, h⟩ := h
    simp only [publishRates, bind_eq_ok, require_eq_ok, expect_eq_ok, pure_eq_ok] at h
    obtain ⟨-, -, date, -, -, -, anchors, -, rfl⟩ := h
    exact .inl ⟨rfl, .of_kept rfl rfl rfl⟩
  case setBuildingOrder =>
    simp only [setBuildingOrder, bind_eq_ok, require_eq_ok, expect_eq_ok, pure_eq_ok] at h
    obtain ⟨order, -, -, -, -, -, rfl⟩ := h
    exact .inl ⟨rfl, .of_kept rfl rfl rfl⟩
  case setOperatingStatistics =>
    simp only [setOperatingStatistics, bind_eq_ok, require_eq_ok, expect_eq_ok, pure_eq_ok] at h
    obtain ⟨assetIds, -, -, -, included, -, -, -, -, -, rfl⟩ := h
    exact .inl ⟨rfl, .of_kept rfl rfl (hStored _ rfl)⟩

/-! ## Runs -/

def UnitsKept (before after : List CatalogUnit) : Prop :=
  ∀ unit ∈ before, ∃ kept ∈ after, ∃ active, kept = { unit with active }

theorem UnitsKept.refl (units : List CatalogUnit) : UnitsKept units units :=
  fun unit hUnit => ⟨unit, hUnit, unit.active, rfl⟩

theorem UnitsKept.trans {xs ys zs : List CatalogUnit} (h : UnitsKept xs ys) (h' : UnitsKept ys zs) : UnitsKept xs zs := by
  intro unit hUnit
  obtain ⟨kept, hKept, active, rfl⟩ := h unit hUnit
  obtain ⟨later, hLater, active', rfl⟩ := h' _ hKept
  exact ⟨_, hLater, active', rfl⟩

theorem catalog_step {step : CatalogStep} (h : CatalogInvariant settings t) (hStep : t.apply settings step = .ok u) :
    CatalogInvariant settings u ∧ UnitsKept t.units u.units := by
  cases step with
  | manage ctx input =>
    obtain ⟨selectedType, selectedRoom, effect, hType, hRoom, hEffect, hCarried⟩ := manage_prepared hStep
    have hUnits : UnitsKept t.units u.units := fun unit hUnit =>
      ⟨_, (Carried.mem_units hCarried).mpr (.inl ⟨unit, hUnit, rfl⟩), retiredUnit_eq⟩
    obtain ⟨hRename, hFits⟩ | ⟨rename, hRename, hTypes⟩ := prepareAction_fits h hType hRoom hEffect
    · exact ⟨h.carried hCarried ⟨hFits.types, hFits.names, hFits.current, hFits.sameType⟩ hRename, hUnits⟩
    · exact ⟨h.renamed hCarried hRename hTypes, hUnits⟩
  | createClaim claimId unitId =>
    refine ⟨h.createClaim hStep, ?_⟩
    have hClaim : t.createClaim claimId unitId = .ok u := hStep
    simp only [CatalogTables.createClaim, bind_eq_ok, expect_eq_ok, require_eq_ok, pure_eq_ok] at hClaim
    obtain ⟨unit, -, -, -, rfl⟩ := hClaim
    exact .refl t.units
  | releaseClaim claimId =>
    obtain rfl := Except.ok.inj hStep
    exact ⟨h.releaseClaim claimId, .refl t.units⟩

theorem catalog_run {steps : List CatalogStep} (h : CatalogInvariant settings t) (hRun : Run (catalogSystem settings) t steps u) :
    CatalogInvariant settings u ∧ UnitsKept t.units u.units := by
  induction hRun with
  | nil => exact ⟨h, .refl _⟩
  | cons hStep _ ih =>
    obtain ⟨hNext, hKept⟩ := catalog_step h hStep
    obtain ⟨hLast, hRest⟩ := ih hNext
    exact ⟨hLast, hKept.trans hRest⟩

theorem CatalogInvariant.unmanaged {units : List CatalogUnit} {claims : List RoomClaim} (hRows : UnitRows units)
    (hBeds : BedsTyped units) (hSound : CatalogSound settings (.unmanaged units claims)) :
    CatalogInvariant settings (.unmanaged units claims) where
  rows := hRows
  bedsTyped := hBeds
  linkRows := ⟨nofun, nofun, nofun, nofun, nofun⟩
  overlay := nofun
  activeCurrent _ _ _ _ := rfl
  activeCodes := hSound.activeCodes
  roomCodes := hSound.roomCodes
  beds := hSound.beds
  claims := hSound.claims
  types := hSound.types

/-- A catalog over an inventory that is sound, with each bed of its room's type, stays sound in every run, and
no unit of the inventory or of a state on the way changes but for being in use. -/
theorem room_catalog_sound {settings : CatalogSettings} {units : List CatalogUnit} {claims : List RoomClaim}
    (hRows : UnitRows units) (hBeds : BedsTyped units) (hSound : CatalogSound settings (.unmanaged units claims))
    {steps later : List CatalogStep} {t u : CatalogTables} (hRun : Run (catalogSystem settings) (.unmanaged units claims) steps t)
    (hLater : Run (catalogSystem settings) t later u) :
    CatalogSound settings t ∧ CatalogSound settings u ∧ UnitRows u.units ∧ UnitsKept t.units u.units := by
  have hFirst := (catalog_run (.unmanaged hRows hBeds hSound) hRun).1
  obtain ⟨hLast, hKept⟩ := catalog_run hFirst hLater
  exact ⟨hFirst.sound, hLast.sound, hLast.rows, hKept⟩

section Samples

instance : DecidableRel CatalogUnit.Apart := fun a b =>
  inferInstanceAs (Decidable (a.id ≠ b.id ∧ (a.active = true → b.active = true → a.code ≠ b.code)))

/-- A room of the first type with a bed of the second, and a room of the second type. -/
def mixedInventory : CatalogTables :=
  .unmanaged [sampleRoom ['1'] ['a'] ['a', 'p'], sampleRoom ['2'] ['b'] ['b', 'p'],
    { sampleRoom ['3'] ['b'] ['b', 'q'] with kind := .bed, parentRoomId := some ['1'] }] []

theorem mixedInventory_rows : UnitRows mixedInventory.units where
  apart := by decide +kernel
  rooms := by decide +kernel
  beds := by decide +kernel

theorem mixedInventory_sound : CatalogSound openSettings mixedInventory where
  activeCodes := by decide +kernel
  roomCodes := by decide +kernel
  versions := by decide +kernel
  beds := by decide +kernel
  claims := by decide +kernel
  types := by decide +kernel

def secondTypeOff : RoomCatalogInput := { blankInput .setTypeActive with typeCode := some ['b'], active := some false }

def afterSecondTypeOff : CatalogTables :=
  match mixedInventory.manageRoomCatalog openSettings sampleContext secondTypeOff with
  | .ok t => t
  | .error _ => mixedInventory

theorem secondTypeOff_accepted :
    mixedInventory.manageRoomCatalog openSettings sampleContext secondTypeOff = .ok afterSecondTypeOff := by
  decide +kernel

theorem sampleInventory_rows : UnitRows sampleInventory.units where
  apart := by decide +kernel
  rooms := by decide +kernel
  beds := by decide +kernel

theorem sampleInventory_sound : CatalogSound openSettings sampleInventory where
  activeCodes := by decide +kernel
  roomCodes := by decide +kernel
  versions := by decide +kernel
  beds := by decide +kernel
  claims := by decide +kernel
  types := by decide +kernel

def firstRoomClosed : RoomCatalogInput := { blankInput .setRoomActive with roomId := some ['1'], active := some false }

def afterFirstRoomClosed : CatalogTables :=
  match sampleInventory.manageRoomCatalog openSettings sampleContext firstRoomClosed with
  | .ok t => t
  | .error _ => sampleInventory

theorem firstRoomClosed_accepted :
    sampleInventory.manageRoomCatalog openSettings sampleContext firstRoomClosed = .ok afterFirstRoomClosed := by
  decide +kernel

end Samples

theorem room_catalog_sound_sample : CatalogSound openSettings sampleInventory ∧ CatalogSound openSettings afterFirstRoomClosed ∧
    UnitRows afterFirstRoomClosed.units ∧ UnitsKept sampleInventory.units afterFirstRoomClosed.units := by
  have hRun : Run (catalogSystem openSettings) sampleInventory [.manage sampleContext firstRoomClosed] afterFirstRoomClosed :=
    .single firstRoomClosed_accepted
  exact room_catalog_sound sampleInventory_rows (by unfold BedsTyped; decide +kernel) sampleInventory_sound
    (.nil sampleInventory) hRun

/-- Switching off the type of a bed in a room of another type leaves the bed in use. -/
theorem bed_outlives_its_type : ¬ ∀ (settings : CatalogSettings) (units : List CatalogUnit) (claims : List RoomClaim),
    UnitRows units → CatalogSound settings (.unmanaged units claims) → ∀ steps t,
      Run (catalogSystem settings) (.unmanaged units claims) steps t → CatalogSound settings t := by
  intro h
  have hRun : Run (catalogSystem openSettings) mixedInventory [.manage sampleContext secondTypeOff] afterSecondTypeOff :=
    .single secondTypeOff_accepted
  have hSound := h openSettings _ _ mixedInventory_rows mixedInventory_sound _ afterSecondTypeOff hRun
  have hBed : ∃ bed ∈ afterSecondTypeOff.units, bed.active = true ∧ bed.roomTypeCode = some ['b'] := by decide +kernel
  have hOff : ∀ type ∈ (afterSecondTypeOff.snapshot openSettings).types, type.code = ['b'] → type.active = false := by
    decide +kernel
  obtain ⟨bed, hMem, hActive, hCode⟩ := hBed
  obtain ⟨type, hType, hSame, hTypeActive, -⟩ := hSound.types bed hMem hActive ['b'] hCode
  rw [hOff type hType hSame] at hTypeActive
  cases hTypeActive

end GreenPms
