import GreenPms.Catalog.Changes

/-! # The current version of a physical room

The links of an asset number its versions, and the latest one is current. A placed room becomes the
latest version of its asset, and the links of every other asset stay.
-/

namespace GreenPms

open Checked Versions

/-- The links of a property: one for a unit, each to a room, and the first room of a linked asset is linked
to it. -/
structure LinkRows (t : CatalogTables) : Prop where
  unique : ∀ a ∈ t.links, ∀ b ∈ t.links, a.unitId = b.unitId → a = b
  rooms : ∀ link ∈ t.links, ∃ unit ∈ t.units, unit.id = link.unitId ∧ unit.kind = .room
  assets : ∀ link ∈ t.links, ∃ unit ∈ t.units, unit.id = link.assetId
  rooted : ∀ link ∈ t.links, ∃ root ∈ t.links, root.unitId = link.assetId ∧ root.assetId = link.assetId
  numbered : ∀ link ∈ t.links, link.version ≤ t.catalogVersion

namespace CatalogTables

variable {t u : CatalogTables} {id other : Label} {link : RoomCatalogLink}

theorem linkByUnit_some (h : t.linkByUnit id = some link) : link ∈ t.links ∧ link.unitId = id :=
  ⟨List.mem_of_find?_eq_some h, by simpa using List.find?_some h⟩

theorem linkByUnit_none (h : t.linkByUnit id = none) : ∀ link ∈ t.links, link.unitId ≠ id := by
  intro link hLink
  simpa using List.find?_eq_none.mp h link hLink

theorem linkByUnit_of_mem (hRows : LinkRows t) (h : link ∈ t.links) : t.linkByUnit link.unitId = some link := by
  cases hFind : t.linkByUnit link.unitId with
  | none => exact absurd rfl (linkByUnit_none hFind link h)
  | some found =>
    obtain ⟨hFound, hSame⟩ := linkByUnit_some hFind
    rw [hRows.unique found hFound link h hSame]

theorem assetId_of_linked (h : t.linkByUnit id = some link) : t.assetId id = link.assetId := by
  rw [assetId, h]
  rfl

theorem assetId_of_unlinked (h : t.linkByUnit id = none) : t.assetId id = id := by
  rw [assetId, h]
  rfl

theorem isCurrent_of_unlinked (h : t.linkByUnit id = none) : t.isCurrent id = true := by
  rw [isCurrent, h]

theorem isCurrent_of_linked (h : t.linkByUnit id = some link) :
    t.isCurrent id = true ↔ ∃ latest, t.latestByAsset link.assetId = some latest ∧ latest.unitId = id := by
  rw [isCurrent, h]
  simp

theorem current_unique (hRows : LinkRows t) (h : t.isCurrent id = true) (hOther : t.isCurrent other = true)
    (hAsset : t.assetId id = t.assetId other) : id = other := by
  -- an asset whose own room has no link has no links at all
  have hUnlinked : ∀ {x y : Label} {link : RoomCatalogLink}, t.linkByUnit x = none → t.linkByUnit y = some link →
      t.assetId x ≠ t.assetId y := by
    intro x y link hx hy hSame
    rw [assetId_of_unlinked hx, assetId_of_linked hy] at hSame
    obtain ⟨root, hRoot, hUnit, -⟩ := hRows.rooted link (linkByUnit_some hy).1
    exact linkByUnit_none hx root hRoot (hUnit.trans hSame.symm)
  cases hId : t.linkByUnit id with
  | none =>
    cases hOtherLink : t.linkByUnit other with
    | none => rwa [assetId_of_unlinked hId, assetId_of_unlinked hOtherLink] at hAsset
    | some link => exact absurd hAsset (hUnlinked hId hOtherLink)
  | some link =>
    cases hOtherLink : t.linkByUnit other with
    | none => exact absurd hAsset.symm (hUnlinked hOtherLink hId)
    | some second =>
      rw [assetId_of_linked hId, assetId_of_linked hOtherLink] at hAsset
      obtain ⟨latest, hLatest, rfl⟩ := (isCurrent_of_linked hId).mp h
      obtain ⟨same, hSame, rfl⟩ := (isCurrent_of_linked hOtherLink).mp hOther
      rw [hAsset, hSame] at hLatest
      rw [Option.some.inj hLatest]

theorem current_exists (hRows : LinkRows t) {room : CatalogUnit} (hRoom : room ∈ t.units) (hKind : room.kind = .room) :
    ∃ current ∈ t.units, current.kind = .room ∧ t.isCurrent current.id = true ∧
      t.assetId current.id = t.assetId room.id := by
  cases hLink : t.linkByUnit room.id with
  | none => exact ⟨room, hRoom, hKind, isCurrent_of_unlinked hLink, rfl⟩
  | some link =>
    obtain ⟨hMem, -⟩ := linkByUnit_some hLink
    obtain ⟨latest, hLatest⟩ : ∃ latest, t.latestByAsset link.assetId = some latest := latest_isSome hMem rfl
    obtain ⟨hLatestMem, hAsset, -⟩ := latest_eq_some hLatest
    have hFound := linkByUnit_of_mem hRows hLatestMem
    obtain ⟨current, hCurrent, hId, hCurrentKind⟩ := hRows.rooms latest hLatestMem
    refine ⟨current, hCurrent, hCurrentKind, ?_, ?_⟩
    · rw [hId]
      refine (isCurrent_of_linked hFound).mpr ⟨latest, ?_, rfl⟩
      rw [hAsset]
      exact hLatest
    · rw [hId, assetId_of_linked hFound, assetId_of_linked hLink]
      exact hAsset

/-- The links that a placed room adds: that of the version before it, where it has none, and its own. -/
structure LinksPlaced (t u : CatalogTables) (target asset : Label) (old : Option Label) : Prop where
  links : ∃ before, u.links = t.links ++ before ++ [⟨target, asset, u.catalogVersion⟩] ∧
    ((before = [] ∧ ∀ id ∈ old, t.linkByUnit id ≠ none) ∨
      (old = some asset ∧ t.linkByUnit asset = none ∧ before = [⟨asset, asset, 0⟩]))
  version : u.catalogVersion = t.catalogVersion + 1
  own : old = none → asset = target
  shared : ∀ id ∈ old, t.assetId id = asset ∧ ∃ unit ∈ t.units, unit.id = id ∧ unit.kind = .room
  new : ∀ unit ∈ t.units, unit.id ≠ target
  kept : ∀ unit ∈ t.units, ∃ same ∈ u.units, same.id = unit.id ∧ same.kind = unit.kind
  room : ∃ unit ∈ u.units, unit.id = target ∧ unit.kind = .room
  known : ∃ unit ∈ u.units, unit.id = asset

namespace LinksPlaced

variable {target asset : Label} {old : Option Label}

theorem mem_links (h : LinksPlaced t u target asset old) (hLink : link ∈ u.links) : link ∈ t.links ∨ link.assetId = asset := by
  obtain ⟨before, hLinks, hBefore⟩ := h.links
  rw [hLinks] at hLink
  obtain hOld | rfl := (List.mem_append.mp hLink).imp_right List.mem_singleton.mp
  · refine (List.mem_append.mp hOld).imp_right fun hLink => ?_
    obtain ⟨rfl, -⟩ | ⟨-, -, rfl⟩ := hBefore
    · cases hLink
    · rw [List.mem_singleton.mp hLink]
  · exact .inr rfl

theorem links_kept (h : LinksPlaced t u target asset old) (hLink : link ∈ t.links) : link ∈ u.links := by
  obtain ⟨before, hLinks, -⟩ := h.links
  rw [hLinks, List.append_assoc]
  exact List.mem_append_left _ hLink

theorem linkRows (h : LinksPlaced t u target asset old) (hRows : LinkRows t) : LinkRows u := by
  obtain ⟨before, hLinks, hBefore⟩ := h.links
  have hMem : ∀ link ∈ u.links, link ∈ t.links ∨ (old = some asset ∧ t.linkByUnit asset = none ∧ link = ⟨asset, asset, 0⟩) ∨
      link = ⟨target, asset, u.catalogVersion⟩ := by
    intro link hLink
    rw [hLinks] at hLink
    obtain hLink | hNew := (List.mem_append.mp hLink).imp_right List.mem_singleton.mp
    · refine (List.mem_append.mp hLink).imp_right fun hLink => ?_
      obtain ⟨rfl, -⟩ | ⟨hOld, hUnlinked, rfl⟩ := hBefore
      · cases hLink
      · exact .inl ⟨hOld, hUnlinked, List.mem_singleton.mp hLink⟩
    · exact .inr (.inr hNew)
  have hUnit : ∀ link ∈ t.links, link.unitId ≠ target := by
    intro link hLink hTarget
    obtain ⟨unit, hUnit, hId, -⟩ := hRows.rooms link hLink
    exact h.new unit hUnit (hId.trans hTarget)
  have hAsset : old = some asset → asset ≠ target := by
    intro hOld hTarget
    obtain ⟨-, unit, hUnit, hId, -⟩ := h.shared asset hOld
    exact h.new unit hUnit (hId.trans hTarget)
  refine ⟨?_, ?_, ?_, ?_, ?_⟩
  · intro a ha b hb hSame
    obtain ha | ⟨hOld, hUnlinked, rfl⟩ | rfl := hMem a ha <;> obtain hb | ⟨hOld', hUnlinked', rfl⟩ | rfl := hMem b hb
    · exact hRows.unique a ha b hb hSame
    · exact absurd hSame (linkByUnit_none hUnlinked' a ha)
    · exact absurd hSame (hUnit a ha)
    · exact absurd hSame.symm (linkByUnit_none hUnlinked b hb)
    · rfl
    · exact absurd hSame (hAsset hOld)
    · exact absurd hSame.symm (hUnit b hb)
    · exact absurd hSame.symm (hAsset hOld')
    · rfl
  · intro link hLink
    obtain hLink | ⟨hOld, -, rfl⟩ | rfl := hMem link hLink
    · obtain ⟨unit, hUnit, hId, hKind⟩ := hRows.rooms link hLink
      obtain ⟨same, hSame, hSameId, hSameKind⟩ := h.kept unit hUnit
      exact ⟨same, hSame, hSameId.trans hId, hSameKind.trans hKind⟩
    · obtain ⟨-, unit, hUnit, hId, hKind⟩ := h.shared asset hOld
      obtain ⟨same, hSame, hSameId, hSameKind⟩ := h.kept unit hUnit
      exact ⟨same, hSame, hSameId.trans hId, hSameKind.trans hKind⟩
    · exact h.room
  · intro link hLink
    obtain hLink | ⟨-, -, rfl⟩ | rfl := hMem link hLink
    · obtain ⟨unit, hUnit, hId⟩ := hRows.assets link hLink
      obtain ⟨same, hSame, hSameId, -⟩ := h.kept unit hUnit
      exact ⟨same, hSame, hSameId.trans hId⟩
    · exact h.known
    · exact h.known
  · have hRoot : ∃ root ∈ u.links, root.unitId = asset ∧ root.assetId = asset := by
      cases hOld : old with
      | none =>
        refine ⟨⟨target, asset, u.catalogVersion⟩, ?_, (h.own hOld).symm, rfl⟩
        rw [hLinks]
        exact List.mem_append_right _ (List.mem_singleton.mpr rfl)
      | some id =>
        obtain ⟨rfl, hLinked⟩ | ⟨hSame, -, rfl⟩ := hBefore
        · obtain ⟨hAssetId, -⟩ := h.shared id hOld
          obtain ⟨link, hLink⟩ := Option.ne_none_iff_exists'.mp (hLinked id hOld)
          rw [assetId_of_linked hLink] at hAssetId
          obtain ⟨root, hRoot, hUnitId, hRootAsset⟩ := hRows.rooted link (linkByUnit_some hLink).1
          exact ⟨root, h.links_kept hRoot, hUnitId.trans hAssetId, hRootAsset.trans hAssetId⟩
        · refine ⟨⟨asset, asset, 0⟩, ?_, rfl, rfl⟩
          rw [hLinks]
          simp
    intro link hLink
    obtain hLink | ⟨-, -, rfl⟩ | rfl := hMem link hLink
    · obtain ⟨root, hMemRoot, hIds⟩ := hRows.rooted link hLink
      exact ⟨root, h.links_kept hMemRoot, hIds⟩
    · exact hRoot
    · exact hRoot
  · intro link hLink
    obtain hLink | ⟨-, -, rfl⟩ | rfl := hMem link hLink
    · exact (hRows.numbered link hLink).trans (by rw [h.version]; omega)
    · exact Nat.zero_le _
    · exact le_rfl

theorem latest_target (h : LinksPlaced t u target asset old) (hRows : LinkRows t) :
    u.latestByAsset asset = some ⟨target, asset, u.catalogVersion⟩ := by
  obtain ⟨before, hLinks, hBefore⟩ := h.links
  have hVersion := h.version
  rw [CatalogTables.latestByAsset, hLinks]
  refine latest_append_newer rfl fun link hLink _ => ?_
  have hOlder : link.version ≤ t.catalogVersion := by
    obtain hLink | hLink := List.mem_append.mp hLink
    · exact hRows.numbered link hLink
    · obtain ⟨rfl, -⟩ | ⟨-, -, rfl⟩ := hBefore
      · cases hLink
      · rw [List.mem_singleton.mp hLink]
        exact Nat.zero_le _
  dsimp only
  omega

theorem latest_other (h : LinksPlaced t u target asset old) {group : Label} (hOther : group ≠ asset) :
    u.latestByAsset group = t.latestByAsset group := by
  obtain ⟨before, hLinks, hBefore⟩ := h.links
  rw [CatalogTables.latestByAsset, CatalogTables.latestByAsset, hLinks, latest_append_other hOther.symm]
  obtain ⟨rfl, -⟩ | ⟨-, -, rfl⟩ := hBefore
  · rw [List.append_nil]
  · exact latest_append_other hOther.symm

theorem current_target (h : LinksPlaced t u target asset old) (hRows : LinkRows t) : u.isCurrent target = true := by
  have hLatest := h.latest_target hRows
  have hFound := linkByUnit_of_mem (h.linkRows hRows) (latest_eq_some hLatest).1
  exact (isCurrent_of_linked hFound).mpr ⟨_, hLatest, rfl⟩

/-- A room that is current after a room was placed is that room, or it was current before and belongs to
another asset. -/
theorem current_before (h : LinksPlaced t u target asset old) (hRows : LinkRows t) (hId : id ≠ target)
    (hCurrent : u.isCurrent id = true) : t.isCurrent id = true ∧ t.assetId id ≠ asset := by
  have hRowsAfter := h.linkRows hRows
  cases hLink : u.linkByUnit id with
  | none =>
    have hUnlinked : t.linkByUnit id = none := by
      refine List.find?_eq_none.mpr fun link hMem => ?_
      simpa using linkByUnit_none hLink link (h.links_kept hMem)
    refine ⟨isCurrent_of_unlinked hUnlinked, ?_⟩
    rw [assetId_of_unlinked hUnlinked]
    rintro rfl
    obtain ⟨root, hRoot, hUnitId, -⟩ := hRowsAfter.rooted _ (latest_eq_some (h.latest_target hRows)).1
    exact linkByUnit_none hLink root hRoot hUnitId
  | some link =>
    obtain ⟨hMem, rfl⟩ := linkByUnit_some hLink
    obtain ⟨latest, hLatest, hUnitId⟩ := (isCurrent_of_linked hLink).mp hCurrent
    have hOther : link.assetId ≠ asset := by
      intro hSame
      rw [hSame, h.latest_target hRows] at hLatest
      obtain rfl := Option.some.inj hLatest
      exact hId hUnitId.symm
    have hBefore := (h.mem_links hMem).resolve_right hOther
    have hFound := linkByUnit_of_mem hRows hBefore
    refine ⟨(isCurrent_of_linked hFound).mpr ⟨latest, ?_, hUnitId⟩, ?_⟩
    · rw [← h.latest_other hOther, hLatest]
    · rwa [assetId_of_linked hFound]

theorem current_after (h : LinksPlaced t u target asset old) (hRows : LinkRows t) (hId : id ≠ target)
    (hCurrent : t.isCurrent id = true) (hAsset : t.assetId id ≠ asset) : u.isCurrent id = true := by
  cases hLink : t.linkByUnit id with
  | none =>
    rw [assetId_of_unlinked hLink] at hAsset
    refine isCurrent_of_unlinked (List.find?_eq_none.mpr fun link hMem => ?_)
    obtain ⟨before, hLinks, hBefore⟩ := h.links
    rw [hLinks] at hMem
    obtain hMem | rfl := (List.mem_append.mp hMem).imp_right List.mem_singleton.mp
    · obtain hMem | hMem := List.mem_append.mp hMem
      · simpa using linkByUnit_none hLink link hMem
      · obtain ⟨rfl, -⟩ | ⟨-, -, rfl⟩ := hBefore
        · cases hMem
        · rw [List.mem_singleton.mp hMem]
          simpa using hAsset.symm
    · simpa using hId.symm
  | some link =>
    obtain ⟨hMem, rfl⟩ := linkByUnit_some hLink
    rw [assetId_of_linked hLink] at hAsset
    obtain ⟨latest, hLatest, hUnitId⟩ := (isCurrent_of_linked hLink).mp hCurrent
    have hFound := linkByUnit_of_mem (h.linkRows hRows) (h.links_kept hMem)
    exact (isCurrent_of_linked hFound).mpr ⟨latest, by rw [h.latest_other hAsset, hLatest], hUnitId⟩

end LinksPlaced

end CatalogTables

end GreenPms
