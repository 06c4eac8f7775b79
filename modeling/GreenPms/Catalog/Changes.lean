import GreenPms.Catalog.Machine

/-! # What a catalog action changes

For each stage of an action its effect on the rows, and for the action as a whole what it does to the
room types and their rates.
-/

namespace GreenPms

open Checked

theorem modifyFirst_append {α : Type} {p : α → Bool} {x : α} {xs : List α} (f : α → α) (h : xs.find? p = some x) :
    ∃ as bs, xs = as ++ x :: bs ∧ modifyFirst p f xs = as ++ f x :: bs := by
  induction xs with
  | nil => cases h
  | cons y ys ih =>
    rw [List.find?_cons] at h
    rw [modifyFirst]
    cases hp : p y with
    | true =>
      simp only [hp, Option.some.injEq] at h
      subst h
      exact ⟨[], ys, rfl, by simp⟩
    | false =>
      simp only [hp] at h
      obtain ⟨as, bs, rfl, hModified⟩ := ih h
      exact ⟨y :: as, bs, rfl, by simp [hModified]⟩

namespace CatalogBasis

/-- The products that an action makes up because the catalog has not got them. -/
def newProducts (ctx : CatalogContext) (basis : CatalogBasis) (input : RoomCatalogInput)
    (selectedType : Option ManagedRoomType) (selectedRoom : Option ManagedRoom) : List RoomTypeProduct :=
  match input.action with
  | .saveType =>
      match selectedType with
      | none => input.saleMode.toList.map (.single ctx.typeCode)
      | some type => (input.saleMode.filter (· ≠ type.saleMode)).toList.map (.single type.code)
  | .saveRoom =>
      if codeOnly input selectedRoom then []
      else selectedType.toList.flatMap fun type => input.bedCount.toList.flatMap type.addedProducts
  | .setRoomActive =>
      if input.active = some true then
        selectedRoom.toList.flatMap fun room =>
          (basis.snapshot.types.find? (·.code = room.typeCode)).toList.flatMap (·.addedProducts room.bedCount)
      else []
  | _ => []

def newTypeCode (ctx : CatalogContext) (input : RoomCatalogInput) (selectedType : Option ManagedRoomType) : Option Label :=
  if input.action = .saveType ∧ selectedType = none then some ctx.typeCode else none

/-- What an action that publishes no policies does to the room types: a type whose products change, or
that is deleted, is in no use. -/
inductive SnapshotChange (basis : CatalogBasis) (newCode : Option Label) (made : List RoomTypeProduct)
    (after : RoomCatalogSnapshot) : Prop
  | kept (hTypes : after.types = basis.snapshot.types) (hRates : after.rates = basis.snapshot.rates)
  | added (type : ManagedRoomType) (hCode : newCode = some type.code)
      (hProducts : ∀ product ∈ type.products, product ∈ made)
      (hTypes : after.types = basis.snapshot.types ++ [type]) (hRates : after.rates = basis.snapshot.rates)
  | saved (as bs : List ManagedRoomType) (old new : ManagedRoomType) (hOld : basis.snapshot.types = as ++ old :: bs)
      (hNew : after.types = as ++ new :: bs) (hRates : after.rates = basis.snapshot.rates) (hCode : new.code = old.code)
      (hProducts : new.products = old.products)
  | switched (as bs : List ManagedRoomType) (old new : ManagedRoomType) (hOld : basis.snapshot.types = as ++ old :: bs)
      (hNew : after.types = as ++ new :: bs) (hRates : after.rates = basis.snapshot.rates) (hCode : new.code = old.code)
      (hUnits : ∀ unit ∈ basis.units, unit.roomTypeCode ≠ some old.code)
      (hUnrated : ∀ rate ∈ basis.snapshot.rates, rate.typeCode ≠ old.code)
      (hProducts : ∀ product ∈ new.products, product ∈ made)
  | deleted (code : Label) (hTypes : after.types = basis.snapshot.types.filter (·.code ≠ code))
      (hRates : after.rates = basis.snapshot.rates) (hUnits : ∀ unit ∈ basis.units, unit.roomTypeCode ≠ some code)
      (hUnrated : ∀ rate ∈ basis.snapshot.rates, rate.typeCode ≠ code)

variable {ctx : CatalogContext} {basis : CatalogBasis} {input : RoomCatalogInput} {effect : RoomCatalogEffect}
  {newCode : Option Label} {made : List RoomTypeProduct}

theorem selectType_found {selectedType : Option ManagedRoomType} (h : basis.selectType input = .ok selectedType)
    {type : ManagedRoomType} (hType : selectedType = some type) :
    basis.snapshot.types.find? (·.code = type.code) = some type := by
  subst hType
  rw [selectType] at h
  split at h
  case h_1 => cases h
  case h_2 code _ =>
    simp only [map_eq_ok, expect_eq_ok, Option.some.injEq] at h
    obtain ⟨found, hFound, rfl⟩ := h
    have hCode : found.code = code := by simpa using List.find?_some hFound
    rw [hCode]
    exact hFound

theorem renameRoom_change {room : ManagedRoom} (h : basis.renameRoom input room = .ok effect)
    (hStored : ∀ snapshot ∈ basis.storedSnapshot, snapshot.types = basis.snapshot.types ∧ snapshot.rates = basis.snapshot.rates) :
    effect.roomRename ≠ none ∧ SnapshotChange basis newCode made effect.after := by
  simp only [renameRoom, bind_eq_ok, require_eq_ok, expect_eq_ok, pure_eq_ok] at h
  obtain ⟨-, -, code, -, -, -, canonical, -, -, -, -, -, rfl⟩ := h
  refine ⟨Option.some_ne_none _, ?_⟩
  cases hSnapshot : basis.storedSnapshot with
  | none => exact .kept rfl rfl
  | some snapshot => exact .kept (hStored snapshot hSnapshot).1 (hStored snapshot hSnapshot).2

theorem setOperatingStatistics_change (h : basis.setOperatingStatistics input = .ok effect)
    (hStored : ∀ snapshot ∈ basis.storedSnapshot, snapshot.types = basis.snapshot.types ∧ snapshot.rates = basis.snapshot.rates) :
    SnapshotChange basis newCode made effect.after := by
  simp only [setOperatingStatistics, bind_eq_ok, require_eq_ok, expect_eq_ok, pure_eq_ok] at h
  obtain ⟨assetIds, -, -, -, included, -, -, -, -, -, rfl⟩ := h
  cases hSnapshot : basis.storedSnapshot with
  | none => exact .kept rfl rfl
  | some snapshot => exact .kept (hStored snapshot hSnapshot).1 (hStored snapshot hSnapshot).2

theorem setBuildingOrder_change (h : basis.setBuildingOrder input = .ok effect) :
    SnapshotChange basis newCode made effect.after := by
  simp only [setBuildingOrder, bind_eq_ok, require_eq_ok, expect_eq_ok, pure_eq_ok] at h
  obtain ⟨order, -, -, -, -, -, rfl⟩ := h
  exact .kept rfl rfl

theorem saveType_change {selectedType : Option ManagedRoomType} (h : basis.saveType ctx input selectedType = .ok effect)
    (hFound : ∀ type, selectedType = some type → basis.snapshot.types.find? (·.code = type.code) = some type)
    (hAction : input.action = .saveType) (selectedRoom : Option ManagedRoom) :
    SnapshotChange basis (newTypeCode ctx input selectedType)
      (newProducts ctx basis input selectedType selectedRoom) effect.after := by
  simp only [saveType, bind_eq_ok, require_eq_ok, expect_eq_ok, pure_eq_ok] at h
  obtain ⟨name, -, bathroom, -, saleMode, hSaleMode, -, -, bedCount, -, capacity, -, -, -, -, hMode, rfl⟩ := h
  cases selectedType with
  | none =>
    refine .added _ (by simp [newTypeCode, hAction]) (fun product hProduct => ?_) rfl rfl
    simpa [newProducts, hAction, hSaleMode, savedProducts] using hProduct
  | some type =>
    obtain ⟨as, bs, hOld, hNew⟩ := modifyFirst_append
      (fun _ => (⟨type.code, name, bathroom, saleMode, bedCount, capacity, type.active,
        savedProducts (some type) type.code saleMode⟩ : ManagedRoomType)) (hFound type rfl)
    by_cases hSame : type.saleMode = saleMode
    · exact .saved as bs type _ hOld hNew rfl rfl (by simp [savedProducts, hSame])
    · obtain ⟨hUnits, hUnrated⟩ := hMode type rfl hSame
      refine .switched as bs type _ hOld hNew rfl rfl hUnits hUnrated fun product hProduct => ?_
      obtain rfl : product = .single type.code saleMode := by simpa [savedProducts, hSame] using hProduct
      simp [newProducts, hAction, hSaleMode, Ne.symm hSame]

theorem deleteType_change {type : ManagedRoomType} (h : basis.deleteType ctx input type = .ok effect) :
    SnapshotChange basis newCode made effect.after := by
  simp only [deleteType, bind_eq_ok, require_eq_ok, pure_eq_ok] at h
  obtain ⟨-, ⟨hUnits, hUnrated, -⟩, rfl⟩ := h
  exact .deleted type.code rfl rfl hUnits hUnrated

theorem setTypeActive_change {type : ManagedRoomType} (h : basis.setTypeActive ctx input type = .ok effect)
    (hFound : basis.snapshot.types.find? (·.code = type.code) = some type) : SnapshotChange basis newCode made effect.after := by
  simp only [setTypeActive, bind_eq_ok, require_eq_ok, pure_eq_ok] at h
  obtain ⟨active, -, -, -, retireUnitIds, -, rfl⟩ := h
  obtain ⟨as, bs, hOld, hNew⟩ := modifyFirst_append (fun type : ManagedRoomType => { type with active }) hFound
  exact .saved as bs type _ hOld hNew rfl rfl rfl

/-- A room of a type is placed: the type gets the products that the room needs. -/
structure RoomPlaced (basis : CatalogBasis) (type : ManagedRoomType) (bedCount : Nat) (after : RoomCatalogSnapshot) :
    Prop where
  types : ∃ as bs, basis.snapshot.types = as ++ type :: bs ∧ after.types = as ++ type.withRoom bedCount :: bs
  rates : after.rates = basis.snapshot.rates

theorem placeRoom_placed {type : ManagedRoomType} {old : Option ManagedRoom} {code building : Option Label}
    {bedCount capacity : Option Nat} (h : basis.placeRoom ctx input type old code building bedCount capacity = .ok effect)
    (hFound : basis.snapshot.types.find? (·.code = type.code) = some type) :
    effect.action = input.action ∧ effect.roomRename = none ∧
      ∃ n, bedCount = some n ∧ RoomPlaced basis type n effect.after := by
  simp only [placeRoom, count, bind_eq_ok, require_eq_ok, expect_eq_ok, pure_eq_ok] at h
  obtain ⟨-, -, -, -, -, -, n, ⟨_, hCount, -, -, rfl⟩, -, -, -, -, -, -, -, -, -, -, rfl⟩ := h
  obtain ⟨as, bs, hOld, hNew⟩ := modifyFirst_append (fun type : ManagedRoomType => type.withRoom _) hFound
  exact ⟨rfl, rfl, _, hCount, ⟨as, bs, hOld, hNew⟩, rfl⟩

structure RatePublished (basis : CatalogBasis) (rate : RoomRateChange) (after : RoomCatalogSnapshot) : Prop where
  types : after.types = basis.snapshot.types
  rates : after.rates = basis.snapshot.rates ++ [rate]

theorem publishRates_published {type : ManagedRoomType} (h : basis.publishRates ctx input type = .ok effect) :
    effect.roomRename = none ∧ ∃ rate : RoomRateChange, rate.typeCode = type.code ∧
      input.effectiveFrom = some rate.effectiveFrom ∧ RatePublished basis rate effect.after := by
  simp only [publishRates, bind_eq_ok, require_eq_ok, expect_eq_ok, pure_eq_ok] at h
  obtain ⟨-, -, date, hDate, -, -, anchors, -, rfl⟩ := h
  exact ⟨rfl, _, rfl, hDate, rfl, rfl⟩

/-- What an accepted action prepares: nothing that touches a price, a room with the products that it
needs, or a rate. -/
inductive Prepared (ctx : CatalogContext) (basis : CatalogBasis) (input : RoomCatalogInput)
    (selectedType : Option ManagedRoomType) (selectedRoom : Option ManagedRoom) (effect : RoomCatalogEffect) : Prop
  | quiet (hPublishes : publishes input effect = false)
      (hChange : SnapshotChange basis (newTypeCode ctx input selectedType)
      (newProducts ctx basis input selectedType selectedRoom) effect.after)
  | room (hPublishes : publishes input effect = true) (hAction : input.action = .saveRoom ∨ input.action = .setRoomActive)
      (type : ManagedRoomType) (bedCount : Nat)
      (hNew : newProducts ctx basis input selectedType selectedRoom = type.addedProducts bedCount)
      (hPlaced : RoomPlaced basis type bedCount effect.after)
  | rate (hPublishes : publishes input effect = true) (hAction : input.action = .publishRates) (rate : RoomRateChange)
      (hType : selectedType.map (·.code) = some rate.typeCode) (hDate : input.effectiveFrom = some rate.effectiveFrom)
      (hPublished : RatePublished basis rate effect.after)

theorem not_publishes_of_action {input : RoomCatalogInput} {effect : RoomCatalogEffect}
    (h : input.action ≠ .publishRates) (hSave : input.action ≠ .saveRoom) (hSet : input.action ≠ .setRoomActive) :
    publishes input effect = false := by
  simp [publishes, h, hSave, hSet]

theorem not_publishes_of_rename {input : RoomCatalogInput} {effect : RoomCatalogEffect} (h : effect.roomRename ≠ none) :
    publishes input effect = false := by
  simp [publishes, h]

theorem prepareAction_prepared {selectedType : Option ManagedRoomType} {selectedRoom : Option ManagedRoom}
    (h : basis.prepareAction ctx input selectedType selectedRoom = .ok effect)
    (hType : basis.selectType input = .ok selectedType)
    (hStored : ∀ snapshot ∈ basis.storedSnapshot, snapshot.types = basis.snapshot.types ∧ snapshot.rates = basis.snapshot.rates) :
    Prepared ctx basis input selectedType selectedRoom effect := by
  have hFound : ∀ type, selectedType = some type → basis.snapshot.types.find? (·.code = type.code) = some type :=
    fun type => selectType_found hType
  have quiet := @Prepared.quiet ctx basis input selectedType selectedRoom effect
  have unpublished := fun h₁ h₂ h₃ => quiet (not_publishes_of_action h₁ h₂ h₃)
  rw [prepareAction] at h
  cases hAction : input.action <;> simp only [hAction, bind_eq_ok, expect_eq_ok] at h
  case saveType =>
    exact unpublished (by simp [hAction]) (by simp [hAction]) (by simp [hAction])
      (saveType_change h hFound hAction selectedRoom)
  case deleteType =>
    obtain ⟨type, -, h⟩ := h
    exact unpublished (by simp [hAction]) (by simp [hAction]) (by simp [hAction]) (deleteType_change h)
  case setTypeActive =>
    obtain ⟨type, hSelected, h⟩ := h
    exact unpublished (by simp [hAction]) (by simp [hAction]) (by simp [hAction])
      (setTypeActive_change h (hFound type hSelected))
  case saveRoom =>
    split at h
    case isTrue =>
      simp only [bind_eq_ok, expect_eq_ok] at h
      obtain ⟨room, -, h⟩ := h
      obtain ⟨hRename, hChange⟩ := renameRoom_change h hStored
      exact quiet (not_publishes_of_rename hRename) hChange
    case isFalse hOther =>
      simp only [bind_eq_ok, expect_eq_ok] at h
      obtain ⟨type, hSelected, h⟩ := h
      obtain ⟨hEffect, hRename, bedCount, hCount, hPlaced⟩ := placeRoom_placed h (hFound type hSelected)
      refine .room (by simp [publishes, hRename, hAction]) (.inl hAction) type bedCount ?_ hPlaced
      simp [newProducts, hAction, hSelected, hCount, hOther]
  case renameRoom =>
    obtain ⟨room, -, h⟩ := h
    obtain ⟨hRename, hChange⟩ := renameRoom_change h hStored
    exact quiet (not_publishes_of_rename hRename) hChange
  case setRoomActive =>
    obtain ⟨room, hSelected, h⟩ := h
    simp only [setRoomActive, flag, bind_eq_ok, expect_eq_ok, require_eq_ok] at h
    obtain ⟨activate, hActive, -, -, h⟩ := h
    cases activate with
    | false =>
      simp only [bind_eq_ok, pure_eq_ok] at h
      obtain ⟨retireUnitIds, -, rfl⟩ := h
      exact quiet (by simp [publishes, hAction, hActive]) (.kept rfl rfl)
    | true =>
      simp only [bind_eq_ok, expect_eq_ok] at h
      obtain ⟨type, hType, h⟩ := h
      have hCode : type.code = room.typeCode := by simpa using List.find?_some hType
      obtain ⟨hEffect, hRename, bedCount, hCount, hPlaced⟩ := placeRoom_placed h (by rw [hCode]; exact hType)
      obtain rfl : room.bedCount = bedCount := by simpa using hCount
      refine .room (by simp [publishes, hRename, hAction, hActive]) (.inr hAction) type _ ?_ hPlaced
      simp [newProducts, hAction, hSelected, hType, hActive]
  case publishRates =>
    obtain ⟨type, hSelected, h⟩ := h
    obtain ⟨hRename, rate, hRate, hDate, hPublished⟩ := publishRates_published h
    exact .rate (by simp [publishes, hRename, hAction]) hAction rate (by rw [hSelected, hRate]; rfl) hDate hPublished
  case setBuildingOrder =>
    exact unpublished (by simp [hAction]) (by simp [hAction]) (by simp [hAction]) (setBuildingOrder_change h)
  case setOperatingStatistics =>
    exact unpublished (by simp [hAction]) (by simp [hAction]) (by simp [hAction])
      (setOperatingStatistics_change h hStored)

end CatalogBasis

namespace CatalogTables

variable {settings : CatalogSettings} {ctx : CatalogContext} {t u : CatalogTables} {effect : RoomCatalogEffect}

theorem insertUnit_ok {inserted after : CatalogTables × Option Label} {item : CatalogUnit}
    (h : insertUnit effect inserted item = .ok after) :
    after.1 = { inserted.1 with units := inserted.1.units ++ [item] } := by
  simp only [insertUnit, bind_eq_ok, require_eq_ok, expect_eq_ok, pure_eq_ok] at h
  obtain ⟨-, -, -, -, type, -, -, -, -, -, -, -, -, -, rfl⟩ := h
  rfl

theorem insertUnits_ok {items : List CatalogUnit} {inserted after : CatalogTables × Option Label}
    (h : items.foldlM (insertUnit effect) inserted = .ok after) :
    after.1 = { inserted.1 with units := inserted.1.units ++ items } := by
  induction items generalizing inserted with
  | nil =>
    simp only [List.foldlM_nil, pure_eq_ok] at h
    simp [← h]
  | cons item items ih =>
    simp only [List.foldlM_cons, bind_eq_ok] at h
    obtain ⟨next, hItem, hRest⟩ := h
    rw [ih hRest, insertUnit_ok hItem]
    simp

theorem insertLink_ok {link : RoomCatalogLink} (h : t.insertLink link = .ok u) :
    u = { t with links := t.links ++ [link] } := by
  simp only [insertLink, bind_eq_ok, require_eq_ok, pure_eq_ok] at h
  obtain ⟨-, -, rfl⟩ := h
  rfl

theorem linkOldRoom_ok {retiring : List Label} {link : RoomLink} (h : t.linkOldRoom retiring link = .ok u) :
    ∃ links, u = { t with links } := by
  rw [linkOldRoom] at h
  split at h
  case h_1 =>
    simp only [bind_eq_ok, require_eq_ok, pure_eq_ok] at h
    obtain ⟨-, -, rfl⟩ := h
    exact ⟨t.links, rfl⟩
  case h_2 =>
    simp only [bind_eq_ok, require_eq_ok] at h
    obtain ⟨-, -, -, -, -, -, h⟩ := h
    split at h
    case isTrue =>
      obtain rfl : t = u := by simpa using h
      exact ⟨t.links, rfl⟩
    case isFalse => exact ⟨_, insertLink_ok h⟩

theorem linkRoom_ok {target : Option Label} (h : t.linkRoom effect target = .ok u) : ∃ links, u = { t with links } := by
  cases target with
  | none =>
    obtain rfl : t = u := by simpa [linkRoom] using h
    exact ⟨t.links, rfl⟩
  | some target =>
    simp only [linkRoom, bind_eq_ok, expect_eq_ok, require_eq_ok] at h
    obtain ⟨link, -, -, -, -, -, linked, hOld, hNew⟩ := h
    obtain ⟨links, rfl⟩ := linkOldRoom_ok hOld
    obtain rfl := insertLink_ok hNew
    exact ⟨_, rfl⟩

theorem publishPolicies_ok {policies : List CatalogPolicy} (h : policies.foldlM (publishPolicy settings) t = .ok u) :
    ∃ published heads, u = { t with policies := published, heads } := by
  induction policies generalizing t with
  | nil =>
    obtain rfl : t = u := by simpa using h
    exact ⟨t.policies, t.heads, rfl⟩
  | cons policy policies ih =>
    simp only [List.foldlM_cons, bind_eq_ok] at h
    obtain ⟨next, hFirst, hRest⟩ := h
    obtain ⟨published, heads, rfl⟩ := ih hRest
    simp only [publishPolicy, bind_eq_ok, require_eq_ok, pure_eq_ok] at hFirst
    obtain ⟨-, -, rfl⟩ := hFirst
    exact ⟨published, heads, rfl⟩

/-- An effect that was carried out, with the checks that it passed and the rows after it. -/
structure Carried (settings : CatalogSettings) (ctx : CatalogContext) (t : CatalogTables) (effect : RoomCatalogEffect)
    (u : CatalogTables) : Prop where
  version : effect.beforeVersion = t.catalogVersion ∧ effect.after.version = effect.beforeVersion + 1
  renamed : t.checkRename effect = .ok ()
  retired : t.checkRetirement ctx effect = .ok ()
  placed : ∃ placed target linked, effect.insertUnits.foldlM (insertUnit effect) (t.retireUnits effect.retireUnitIds, none) =
    .ok (placed, target) ∧ placed.linkRoom effect target = .ok linked ∧ u.links = linked.links
  units : u.units = (t.retireUnits effect.retireUnitIds).units ++ effect.insertUnits
  stored : u.stored = some effect.after
  claims : u.claims = t.claims
  published : ∃ base published, base.policies = t.policies ∧ base.heads = t.heads ∧
    effect.policies.foldlM (publishPolicy settings) base = .ok published ∧ u.policies = published.policies ∧
    u.heads = published.heads

theorem recordStatistics_eq (change : Option OperatingStatisticsChange) :
    ∃ statistics, t.recordStatistics change = { t with statistics } := by
  cases change with
  | none => exact ⟨t.statistics, rfl⟩
  | some change => exact ⟨_, rfl⟩

theorem applyRoomCatalog_carried (h : t.applyRoomCatalog settings ctx effect = .ok u) :
    Carried settings ctx t effect u := by
  simp only [applyRoomCatalog, bind_eq_ok, require_eq_ok, pure_eq_ok] at h
  obtain ⟨-, hVersion, -, -, _, hRename, -, -, -, -, _, hRetired, ⟨placed, target⟩, hPlaced, linked, hLinked, -, -, published,
    hPublished, rfl⟩ := h
  have hUnits : placed = _ := insertUnits_ok hPlaced
  obtain ⟨links, hLinks⟩ := linkRoom_ok hLinked
  obtain ⟨statistics, hStatistics⟩ := recordStatistics_eq (t := published) effect.operatingStatisticsChange
  obtain ⟨policies, heads, hPolicies⟩ := publishPolicies_ok hPublished
  rw [hStatistics]
  refine ⟨hVersion, hRename, hRetired, ⟨placed, target, linked, hPlaced, hLinked, ?_⟩, ?_, rfl, ?_, linked, published, ?_, ?_,
    hPublished, rfl, rfl⟩
  · rw [hPolicies]
  · rw [hPolicies, hLinks, hUnits]
  · rw [hPolicies, hLinks, hUnits]
    rfl
  all_goals
    rw [hLinks, hUnits]
    rfl

end CatalogTables

end GreenPms
