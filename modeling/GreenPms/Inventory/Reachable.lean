import GreenPms.Inventory.Exclusive

/-! # The inventory under interleaved transactions

The invariant of the tables is the conjunction of clauses about single room days, claim
identities and orders, so locking carries it to every reachable state.
-/

namespace GreenPms

open Checked TransitionSystem

def RoomDayView.activeOn (v : RoomDayView) (unitId : Nat) : List Claim :=
  v.claims.filter fun c => c.active && c.unitId = unitId

structure RoomDayOk (cat : UnitCatalog) (roomId : Nat) (v : RoomDayView) : Prop where
  room : ∀ c ∈ v.claims, roomId = cat.roomId c.unitId
  whole : cat.kind roomId = .room → (v.activeOn roomId).map Claim.id = v.whole.join.toList
  beds : ∀ b, cat.kind b = .bed → cat.roomId b = roomId →
    (v.activeOn b).map Claim.id = (v.beds b).join.toList
  exclusive : ∀ b, cat.kind b = .bed → cat.roomId b = roomId → v.whole.join ≠ none → (v.beds b).join = none

def InventoryResource.Ok (cat : UnitCatalog) : (r : InventoryResource) → r.View → Prop
  | .roomDay roomId _, v => RoomDayOk cat roomId v
  | .claim _, claims => claims.length ≤ 1
  | .order orderId, (row, claims) => ∀ c ∈ claims, c.active = true →
      ∃ stay, row = some stay ∧ stay.occupying = true ∧ c.source ∈ stay.sources orderId

variable {cat : UnitCatalog} {t : InventoryTables}

theorem mem_roomDayView {roomId date : Nat} {c : Claim} :
    c ∈ (roomDayView cat roomId date t).claims ↔ c ∈ t.claims ∧ c.roomId = roomId ∧ c.serviceDate = date := by
  simp [roomDayView, InventoryResource.sees]

theorem activeOn_roomDayView (hRoom : ∀ c ∈ t.claims, c.roomId = cat.roomId c.unitId) (unitId date : Nat) :
    (roomDayView cat (cat.roomId unitId) date t).activeOn unitId = t.activeOn unitId date := by
  simp only [RoomDayView.activeOn, roomDayView, List.filter_filter, InventoryTables.activeOn,
    InventoryResource.sees]
  refine List.filter_congr fun c hc => Bool.eq_iff_iff.mpr ?_
  simp only [Bool.and_eq_true, decide_eq_true_eq]
  constructor
  · rintro ⟨⟨hActive, hUnit⟩, -, hDate⟩
    exact ⟨⟨hActive, hUnit⟩, hDate⟩
  · rintro ⟨⟨hActive, hUnit⟩, hDate⟩
    refine ⟨⟨hActive, hUnit⟩, ?_, hDate⟩
    rw [hRoom c hc, hUnit]

theorem keys_nodup_iff {claims : List Claim} :
    (claims.map Claim.id).Nodup ↔ ∀ id, (claims.filter (InventoryResource.sees (.claim id))).length ≤ 1 := by
  rw [List.nodup_iff_count_le_one]
  refine forall_congr' fun id => ?_
  rw [List.count_eq_countP, List.countP_map, List.countP_eq_length_filter]
  rfl

theorem inventoryOk_iff :
    InventoryOk cat t ↔ ∀ r, InventoryResource.Ok cat r ((inventoryAccess cat).observe r t) := by
  constructor
  · rintro ⟨hPointers, hOwners⟩ (⟨roomId, date⟩ | id | orderId)
    · refine ⟨?_, ?_, ?_, ?_⟩
      · intro c hc
        obtain ⟨hMem, rfl, -⟩ := mem_roomDayView.mp hc
        exact hPointers.room c hMem
      · intro hKind
        have hView := activeOn_roomDayView hPointers.room roomId date
        rw [cat.roomId_of_room hKind] at hView
        exact (congrArg (List.map Claim.id) hView).trans (hPointers.whole roomId date hKind)
      · rintro b hKind rfl
        have hBed : (roomDayView cat (cat.roomId b) date t).beds b = t.bedClaimId b date := if_pos rfl
        have hView := activeOn_roomDayView hPointers.room b date
        refine (congrArg (List.map Claim.id) hView).trans ((hPointers.beds b date hKind).trans ?_)
        exact congrArg (fun p => (Option.join p).toList) hBed.symm
      · rintro b hKind rfl hWhole
        have hBed : (roomDayView cat (cat.roomId b) date t).beds b = t.bedClaimId b date := if_pos rfl
        exact (congrArg Option.join hBed).trans (hPointers.exclusive b date hKind hWhole)
    · exact keys_nodup_iff.mp hPointers.keys id
    · intro c hc hActive
      obtain ⟨hMem, hSees⟩ := List.mem_filter.mp hc
      exact hOwners c hMem hActive orderId (of_decide_eq_true hSees)
  · intro h
    have hDay : ∀ roomId date, RoomDayOk cat roomId (roomDayView cat roomId date t) :=
      fun roomId date => h (.roomDay roomId date)
    have hRoom : ∀ c ∈ t.claims, c.roomId = cat.roomId c.unitId :=
      fun c hc => (hDay c.roomId c.serviceDate).room c (mem_roomDayView.mpr ⟨hc, rfl, rfl⟩)
    have hBed : ∀ b date, (roomDayView cat (cat.roomId b) date t).beds b = t.bedClaimId b date :=
      fun b date => if_pos rfl
    refine ⟨⟨hRoom, keys_nodup_iff.mpr fun id => h (.claim id), ?_, ?_, ?_⟩, ?_⟩
    · intro r date hKind
      have hView := activeOn_roomDayView hRoom r date
      rw [cat.roomId_of_room hKind] at hView
      rw [← hView]
      exact (hDay r date).whole hKind
    · intro b date hKind
      rw [← activeOn_roomDayView hRoom b date, (hDay _ date).beds b hKind rfl, hBed]
      rfl
    · intro b date hKind hWhole
      have hFree := (hDay (cat.roomId b) date).exclusive b hKind rfl hWhole
      rwa [hBed] at hFree
    · intro c hc hActive orderId hOwner
      exact h (.order orderId) c (List.mem_filter.mpr ⟨hc, decide_eq_true hOwner⟩) hActive

theorem inventoryCall_keeps :
    LockedStore.KeepsInvariant (inventoryAccess cat) (InventoryCall cat) (InventoryResource.Ok cat) := by
  rintro t held ws hOk ⟨program, blockers, hRun, -⟩
  exact inventoryOk_iff.mp (program.run_keeps (inventoryOk_iff.mpr hOk) hRun)

variable {s : LockedStore.State InventoryTables InventoryWrite InventoryResource}

theorem inventory_consistent (h : Reachable (inventorySystem cat) s) :
    LockedStore.Consistent (inventoryAccess cat) (InventoryResource.Ok cat) s := by
  refine LockedStore.reachable_consistent ?_ inventoryCall_keeps h
  rintro _ rfl
  refine inventoryOk_iff.mp ⟨⟨?_, List.nodup_nil, ?_, ?_, ?_⟩, ?_⟩
  · intro c hc
    cases hc
  · intro r date _
    rfl
  · intro b date _
    rfl
  · intro b date _ _
    rfl
  · intro c hc
    cases hc

theorem committed_ok (h : Reachable (inventorySystem cat) s) : InventoryOk cat s.store :=
  inventoryOk_iff.mpr (inventory_consistent h).store

theorem view_ok (h : Reachable (inventorySystem cat) s) {tx : Nat} (hIdle : (s.txs tx).todo = []) :
    InventoryOk cat (s.view (inventoryAccess cat) tx) := by
  rw [← LockedStore.State.outcome_eq_view hIdle]
  exact inventoryOk_iff.mpr ((inventory_consistent h).outcome tx)

/-! ## What is claimed once -/

theorem single_of_pointer {claims : List Claim} {pointer : Option Nat}
    (h : claims.map Claim.id = pointer.toList) :
    claims.length ≤ 1 ∧ pointer = claims.head?.map Claim.id := by
  cases pointer with
  | none => simp [List.map_eq_nil_iff.mp h]
  | some id =>
    obtain ⟨c, rfl, rfl⟩ := List.map_eq_singleton_iff.mp h
    exact ⟨Nat.le_refl 1, rfl⟩

/-- In every committed state a room is claimed at most once, a claimed room has no claimed bed, a
bed is claimed at most once and the pointers name the active claims; and no release that a
transaction runs on what it sees meets a damaged pointer. -/
theorem inventory_exclusive (h : Reachable (inventorySystem cat) s) :
    (∀ r date, cat.kind r = .room →
      (s.store.activeOn r date).length ≤ 1 ∧
      s.store.wholePointer r date = (s.store.activeOn r date).head?.map Claim.id ∧
      (s.store.activeOn r date ≠ [] → ∀ b, cat.kind b = .bed → cat.roomId b = r →
        s.store.activeOn b date = [])) ∧
    (∀ b date, cat.kind b = .bed →
      (s.store.activeOn b date).length ≤ 1 ∧
      s.store.bedPointer b date = (s.store.activeOn b date).head?.map Claim.id) ∧
    (∀ tx, (s.txs tx).todo = [] → ∀ sourceType sources,
      (∀ fromDate, ∃ ws, releaseInventoryClaims cat (s.view (inventoryAccess cat) tx) sourceType sources
        fromDate = .ok ws) ∧
      ∀ dates, ∃ ws, releaseInventoryClaimsOnDates cat (s.view (inventoryAccess cat) tx) sourceType sources
        dates = .ok ws) := by
  have hOk := (committed_ok h).pointers
  refine ⟨fun r date hKind => ?_, fun b date hKind => single_of_pointer (hOk.beds b date hKind),
    fun tx hIdle sourceType sources => ?_⟩
  · obtain ⟨hOne, hPointer⟩ := single_of_pointer (hOk.whole r date hKind)
    refine ⟨hOne, hPointer, fun hClaimed b hBed hParent => ?_⟩
    subst hParent
    have hWhole : s.store.wholePointer (cat.roomId b) date ≠ none := by
      rw [hPointer]
      simpa using hClaimed
    have hFree := hOk.beds b date hBed
    rw [hOk.exclusive b date hBed hWhole] at hFree
    exact List.map_eq_nil_iff.mp hFree
  · have hView := (view_ok h hIdle).pointers
    refine ⟨fun fromDate => ?_, fun dates => ?_⟩
    · obtain ⟨ws, hWs, -⟩ := releaseInventoryClaims_releases hView sourceType sources fromDate
      exact ⟨ws, hWs⟩
    · obtain ⟨ws, hWs, -⟩ := releaseInventoryClaimsOnDates_releases hView sourceType sources dates
      exact ⟨ws, hWs⟩

def sampleCatalog : UnitCatalog where
  kind u := if u = 2 then .bed else .room
  parentRoomId _ := 1
  beds := [2]
  mem_beds b := by
    split
    · next hBed => simp [hBed]
    · next hRoom => simp [hRoom]
  parentRoom_kind _ _ := rfl

/-- A transaction takes a room into maintenance for one night. -/
theorem inventory_exclusive_sample : ∃ s, Reachable (inventorySystem sampleCatalog) s ∧
    (s.store.activeOn 1 10).map Claim.id = [5] ∧
    s.store.wholePointer 1 10 = (s.store.activeOn 1 10).head?.map Claim.id ∧
    s.store.activeOn 2 10 = [] := by
  let ready : UnitBlockers := ⟨fun _ => false, fun _ => false⟩
  have hStart : Reachable (inventorySystem sampleCatalog) (.quiet .empty) := .of_init ⟨rfl, fun _ => rfl⟩
  have hLock : InventoryCall sampleCatalog .empty [.roomDay 1 10] [.insertRoomDay 1 10] :=
    ⟨.lockRoomDay 1 10, ready, rfl, by simp [InventoryWrite.touches]⟩
  have hLocked := LockedStore.reachable_commit hStart hLock
  have hClaim : InventoryCall sampleCatalog ((InventoryWrite.insertRoomDay 1 10).apply .empty)
      [.roomDay 1 10] (claimNight sampleCatalog 1 (.maintenance 7) (fun _ => 5) 10) :=
    ⟨.createClaims 1 (.maintenance 7) 10 11 (fun _ => true) (fun _ => 5), ready, rfl,
      by simp [claimNight, newClaim, sampleCatalog, UnitCatalog.roomId, InventoryWrite.touches, Claim.touches,
        ClaimSource.orderId?]⟩
  have hClaimed := LockedStore.reachable_commit hLocked hClaim
  obtain ⟨hRooms, -, -⟩ := inventory_exclusive hClaimed
  obtain ⟨-, hPointer, hBeds⟩ := hRooms 1 10 rfl
  exact ⟨_, hClaimed, rfl, hPointer, hBeds (by decide) 2 rfl rfl⟩

end GreenPms
