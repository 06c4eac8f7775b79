import GreenPms.Inventory.Pointers
import GreenPms.Library.Indexes

/-! # Exclusivity of the inventory

Every program of the inventory keeps the pointers right on the view it runs on, with the claims
of an order lying in its occupying segments. Both are facts about single room days, claim
identities and orders, so they survive every interleaving of transactions that lock what they
write.
-/

namespace GreenPms

open Checked TransitionSystem

/-- The active claims of an order lie in its segments, and its stay occupies the inventory. -/
def OwnersOk (t : InventoryTables) : Prop :=
  ∀ c ∈ t.claims, c.active = true → ∀ orderId, c.source.orderId? = some orderId →
    ∃ row, t.orders orderId = some row ∧ row.occupying = true ∧ c.source ∈ row.sources orderId

structure InventoryOk (cat : UnitCatalog) (t : InventoryTables) : Prop where
  pointers : PointersOk cat t
  owners : OwnersOk t

variable {cat : UnitCatalog} {t t' : InventoryTables}

theorem ClaimSource.type_of_orderId? {source : ClaimSource} {orderId : Nat}
    (h : source.orderId? = some orderId) : source.type = .orderSegment := by
  cases source <;> first | rfl | cases h

theorem OrderStay.orderId?_of_mem {row : OrderStay} {orderId : Nat} {source : ClaimSource}
    (h : source ∈ row.sources orderId) : source.orderId? = some orderId := by
  obtain ⟨segmentId, -, rfl⟩ := List.mem_map.mp h
  rfl

theorem OwnersOk.idle (h : OwnersOk t) {orderId : Nat}
    (hIdle : ∀ row, t.orders orderId = some row → row.occupying = false) {c : Claim} (hc : c ∈ t.claims)
    (hActive : c.active = true) : c.source.orderId? ≠ some orderId := by
  intro hOwner
  obtain ⟨row, hRow, hOccupying, -⟩ := h c hc hActive orderId hOwner
  rw [hIdle row hRow] at hOccupying
  cases hOccupying

theorem Releases.inventoryOk {gone : List Claim} (h : Releases cat t t' gone) (hOk : InventoryOk cat t) :
    InventoryOk cat t' := by
  refine ⟨h.pointers, fun c hc hActive orderId hOwner => ?_⟩
  rw [h.orders]
  exact hOk.owners c ((h.claims c hActive).mp hc).1 hActive orderId hOwner

theorem PointersOk.putOrder (h : PointersOk cat t) (orderId : Nat) (row : OrderStay) :
    PointersOk cat ((InventoryWrite.putOrder orderId row).apply t) :=
  ⟨h.room, h.keys, h.whole, h.beds, h.exclusive⟩

/-- The owners after an order row was written over the tables `t`. -/
theorem OwnersOk.putOrder (h : OwnersOk t) {orderId : Nat} {row : OrderStay}
    (hOrders : t'.orders = Function.update t.orders orderId (some row))
    (hClaims : ∀ c ∈ t'.claims, c.active = true → c.source.orderId? ≠ some orderId → c ∈ t.claims)
    (hOwn : ∀ c ∈ t'.claims, c.active = true → c.source.orderId? = some orderId →
      row.occupying = true ∧ c.source ∈ row.sources orderId) : OwnersOk t' := by
  intro c hc hActive owner hOwner
  rw [hOrders]
  by_cases hSame : owner = orderId
  · subst hSame
    exact ⟨row, Function.update_self .., hOwn c hc hActive hOwner⟩
  · rw [Function.update_of_ne hSame]
    refine h c (hClaims c hc hActive ?_) hActive owner hOwner
    rw [hOwner, Ne, Option.some.injEq]
    exact hSame

/-! ## Creating claims -/

/-- What the creation of claims of one source on some dates changes. -/
structure Creates (cat : UnitCatalog) (t t' : InventoryTables) (source : ClaimSource)
    (dates : List Nat) : Prop where
  pointers : PointersOk cat t'
  orders : t'.orders = t.orders
  claims : ∀ c ∈ t'.claims, c ∈ t.claims ∨ (c.source = source ∧ c.serviceDate ∈ dates)

theorem createInventoryClaims_creates {blockers : UnitBlockers} {unitId : Nat} {dates : List Nat}
    {source : ClaimSource} {exclude : List ClaimSource} {newId : Nat → Nat} {ws : List InventoryWrite}
    (hOk : PointersOk cat t) (hDates : dates.Nodup)
    (hExclude : ∀ date ∈ dates, ExcludedElsewhere t exclude date)
    (h : createInventoryClaims cat blockers t unitId dates source exclude newId = .ok ws) :
    Creates cat t ((inventoryAccess cat).applyAll ws t) source dates := by
  obtain ⟨hPointers, hClaims, hOrders⟩ := createInventoryClaims_ok hOk hDates hExclude h
  refine ⟨hPointers, hOrders, fun c hc => ?_⟩
  rw [hClaims, List.mem_append] at hc
  obtain hOld | hNew := hc
  · exact .inl hOld
  · obtain ⟨date, hDate, rfl⟩ := List.mem_map.mp hNew
    exact .inr ⟨rfl, hDate⟩

theorem createEach_creates {blockers : UnitBlockers} {source : ClaimSource} {exclude : List ClaimSource}
    {newId : Nat → Nat} {groups : List (Nat × List Nat)} {ws : List InventoryWrite} (hOk : PointersOk cat t)
    (hDates : (groups.flatMap Prod.snd).Nodup)
    (hExclude : ∀ date ∈ groups.flatMap Prod.snd, ExcludedElsewhere t exclude date)
    (h : createEach cat blockers source exclude newId t groups = .ok ws) :
    Creates cat t ((inventoryAccess cat).applyAll ws t) source (groups.flatMap Prod.snd) := by
  induction groups generalizing t ws with
  | nil =>
    obtain rfl : ([] : List InventoryWrite) = ws := by simpa [createEach] using h
    exact ⟨hOk, rfl, fun c hc => .inl hc⟩
  | cons group rest ih =>
    obtain ⟨unitId, dates⟩ := group
    rw [List.flatMap_cons] at hDates hExclude ⊢
    obtain ⟨hHere, hRest, hApart⟩ := List.nodup_append.mp hDates
    simp only [createEach, bind_eq_ok, pure_eq_ok] at h
    obtain ⟨first, hFirst, more, hMore, rfl⟩ := h
    have hOne := createInventoryClaims_creates hOk hHere
      (fun date hDate => hExclude date (List.mem_append_left _ hDate)) hFirst
    have hAll := ih hOne.pointers hRest (fun date hDate c hc hActive hSource => ?_) hMore
    · rw [LockedStore.Access.applyAll_append]
      refine ⟨hAll.pointers, hAll.orders.trans hOne.orders, fun c hc => ?_⟩
      obtain hOld | ⟨hSource, hDate⟩ := hAll.claims c hc
      · obtain hOlder | ⟨hSource, hDate⟩ := hOne.claims c hOld
        · exact .inl hOlder
        · exact .inr ⟨hSource, List.mem_append_left _ hDate⟩
      · exact .inr ⟨hSource, List.mem_append_right _ hDate⟩
    · obtain hOld | ⟨-, hNew⟩ := hOne.claims c hc
      · exact hExclude date (List.mem_append_right _ hDate) c hOld hActive hSource
      · exact hApart _ hNew _ hDate

/-! ## The nights of a stay change -/

theorem loadActiveStayTimeline_mem {orderId : Nat} {row : OrderStay} {before : List StayTimelineItem}
    (h : loadActiveStayTimeline t orderId row = .ok before) {c : Claim} (hc : c ∈ t.claims)
    (hActive : c.active = true) (hSource : c.source ∈ row.sources orderId) :
    ⟨c.serviceDate, c.unitId⟩ ∈ before := by
  simp only [loadActiveStayTimeline, bind_eq_ok, require_eq_ok] at h
  obtain ⟨-, -, -, hInside, hEach⟩ := h
  have hOwn : c ∈ t.activeClaims .orderSegment (row.sources orderId) fun _ => true :=
    mem_activeClaims.mpr
      ⟨hc, ClaimSource.type_of_orderId? (OrderStay.orderId?_of_mem hSource), hSource, hActive, rfl⟩
  obtain ⟨item, hItem, hNight⟩ := mapM_eq_ok_mem hEach (hInside c hOwn)
  split at hNight
  · next claim hSingle =>
    have hOn : c ∈ (t.activeClaims .orderSegment (row.sources orderId) fun _ => true).filter
        fun x => x.serviceDate = c.serviceDate := List.mem_filter.mpr ⟨hOwn, by simp⟩
    rw [hSingle, List.mem_singleton] at hOn
    rw [hOn]
    cases hNight
    rwa [hOn] at hItem
  · cases hNight

theorem completeOrThrow_dates {timeline : List StayTimelineItem} {arrivalDate departureDate : Nat}
    (h : completeOrThrow timeline arrivalDate departureDate = .ok ()) :
    timeline.map StayTimelineItem.serviceDate = serviceDates arrivalDate departureDate := by
  rw [completeOrThrow, mapError_eq_ok] at h
  exact assertCompleteTimeline_dates h

theorem mem_addedByUnit {added : List StayTimelineItem} {date : Nat} :
    date ∈ (addedByUnit added).flatMap Prod.snd ↔ ∃ item ∈ added, item.serviceDate = date := by
  simp only [addedByUnit, List.flatMap_map, List.mem_flatMap, List.mem_eraseDups, List.mem_map,
    List.mem_filter, decide_eq_true_eq]
  constructor
  · rintro ⟨_, -, item, ⟨hItem, -⟩, rfl⟩
    exact ⟨item, hItem, rfl⟩
  · rintro ⟨item, hItem, rfl⟩
    exact ⟨_, ⟨item, hItem, rfl⟩, item, ⟨hItem, rfl⟩, rfl⟩

theorem addedByUnit_nodup {added : List StayTimelineItem}
    (h : (added.map StayTimelineItem.serviceDate).Nodup) :
    ((addedByUnit added).flatMap Prod.snd).Nodup := by
  rw [addedByUnit, List.flatMap_map, List.nodup_flatMap]
  refine ⟨fun unitId _ => h.sublist (List.filter_sublist.map _), ?_⟩
  refine (Indexes.nodup_eraseDups _).imp fun {a b} hNe date hA hB => ?_
  simp only [List.mem_map, List.mem_filter, decide_eq_true_eq] at hA hB
  obtain ⟨x, ⟨hx, hxUnit⟩, hxDate⟩ := hA
  obtain ⟨y, ⟨hy, hyUnit⟩, hyDate⟩ := hB
  have hSame : x = y := List.inj_on_of_nodup_map h hx hy (hxDate.trans hyDate.symm)
  exact hNe (by rw [← hxUnit, ← hyUnit, hSame])

theorem added_excluded {before after : List StayTimelineItem} (hAfter : (after.map StayTimelineItem.serviceDate).Nodup)
    {item left : StayTimelineItem} (hItem : item ∈ (timelinePairDiff before after).added)
    (hLeft : left ∈ before) (hDate : left.serviceDate = item.serviceDate) :
    left ∈ (timelinePairDiff before after).released := by
  obtain ⟨hNow, hNew⟩ := mem_added.mp hItem
  refine mem_released.mpr ⟨hLeft, fun hStays => hNew ?_⟩
  rwa [← List.inj_on_of_nodup_map hAfter hStays hNow hDate]

/-! ## The programs -/

theorem releaseInventoryClaims_releases (hOk : PointersOk cat t) (sourceType : ClaimSourceType)
    (sources : List ClaimSource) (fromDate : Option Nat) :
    ∃ ws, releaseInventoryClaims cat t sourceType sources fromDate = .ok ws ∧
      Releases cat t ((inventoryAccess cat).applyAll ws t)
        (t.activeClaims sourceType sources fun date => fromDate.all (· ≤ date)) :=
  activeClaims_releases hOk _ sourceType sources _

theorem releaseInventoryClaimsOnDates_releases (hOk : PointersOk cat t) (sourceType : ClaimSourceType)
    (sources : List ClaimSource) (dates : List Nat) :
    ∃ ws, releaseInventoryClaimsOnDates cat t sourceType sources dates = .ok ws ∧
      Releases cat t ((inventoryAccess cat).applyAll ws t)
        (t.activeClaims sourceType sources fun date => dates.contains date) :=
  activeClaims_releases hOk _ sourceType sources _

section

variable {blockers : UnitBlockers} {ws : List InventoryWrite}

theorem lockRoomDay_keeps (hOk : InventoryOk cat t) (roomId date : Nat) :
    InventoryOk cat ((InventoryWrite.insertRoomDay roomId date).apply t) := by
  have hWhole : ∀ r d, ((InventoryWrite.insertRoomDay roomId date).apply t).wholePointer r d =
      t.wholePointer r d := fun r d => join_setRow_or t.wholeClaimId roomId date r d
  obtain ⟨hPointers, hOwners⟩ := hOk
  refine ⟨⟨hPointers.room, hPointers.keys, fun r d hKind => ?_, hPointers.beds, fun b d hKind => ?_⟩, hOwners⟩
  · rw [hWhole]
    exact hPointers.whole r d hKind
  · rw [hWhole]
    exact hPointers.exclusive b d hKind

theorem putOrder_keeps (hOk : InventoryOk cat t) {orderId : Nat} {row : OrderStay}
    (hNone : ∀ c ∈ t.claims, c.active = true → c.source.orderId? ≠ some orderId) :
    InventoryOk cat ((InventoryWrite.putOrder orderId row).apply t) :=
  ⟨hOk.pointers.putOrder orderId row,
    hOk.owners.putOrder rfl (fun _ hc _ _ => hc) fun c hc hActive hOwner => absurd hOwner (hNone c hc hActive)⟩

theorem closeOrder_keeps (hOk : InventoryOk cat t) {orderId : Nat}
    (h : InventoryProgram.run cat blockers t (.closeOrder orderId) = .ok ws) :
    InventoryOk cat ((inventoryAccess cat).applyAll ws t) := by
  simp only [InventoryProgram.run, bind_eq_ok, expect_eq_ok, pure_eq_ok] at h
  obtain ⟨row, hRow, released, hReleased, rfl⟩ := h
  obtain ⟨ws, hWs, hReleases⟩ := releaseInventoryClaims_releases hOk.pointers .orderSegment
    (row.sources orderId) none
  rw [hReleased] at hWs
  cases hWs
  rw [LockedStore.Access.applyAll_append]
  refine putOrder_keeps (hReleases.inventoryOk hOk) fun c hc hActive hOwner => ?_
  obtain ⟨hOld, hKept⟩ := (hReleases.claims c hActive).mp hc
  obtain ⟨row', hRow', -, hSource⟩ := hOk.owners c hOld hActive orderId hOwner
  rw [hRow, Option.some.injEq] at hRow'
  subst hRow'
  exact hKept (mem_activeClaims.mpr ⟨hOld, ClaimSource.type_of_orderId? hOwner, hSource, hActive, rfl⟩)

theorem shortenStay_keeps (hOk : InventoryOk cat t) {orderId departureDate : Nat}
    (h : InventoryProgram.run cat blockers t (.shortenStay orderId departureDate) = .ok ws) :
    InventoryOk cat ((inventoryAccess cat).applyAll ws t) := by
  simp only [InventoryProgram.run, bind_eq_ok, expect_eq_ok, pure_eq_ok] at h
  obtain ⟨row, hRow, released, hReleased, rfl⟩ := h
  obtain ⟨ws, hWs, hReleases⟩ := releaseInventoryClaimsOnDates_releases hOk.pointers .orderSegment
    (row.sources orderId) (serviceDates departureDate row.departureDate)
  rw [hReleased] at hWs
  cases hWs
  rw [LockedStore.Access.applyAll_append]
  have hNext := hReleases.inventoryOk hOk
  refine ⟨hNext.pointers.putOrder _ _, hNext.owners.putOrder rfl (fun _ hc _ _ => hc) ?_⟩
  intro c hc hActive hOwner
  obtain ⟨row', hRow', hStay⟩ := hNext.owners c hc hActive orderId hOwner
  rw [hReleases.orders, hRow, Option.some.injEq] at hRow'
  subst hRow'
  exact hStay

theorem createClaims_keeps (hOk : InventoryOk cat t) {unitId arrivalDate departureDate : Nat}
    {source : ClaimSource} {chosen : Nat → Bool} {newId : Nat → Nat}
    (h : InventoryProgram.run cat blockers t
      (.createClaims unitId source arrivalDate departureDate chosen newId) = .ok ws) :
    InventoryOk cat ((inventoryAccess cat).applyAll ws t) := by
  simp only [InventoryProgram.run, bind_eq_ok] at h
  obtain ⟨_, hOccupying, hCreated⟩ := h
  have hCreates := createInventoryClaims_creates hOk.pointers ((serviceDates_nodup _ _).filter _)
    (fun date _ c _ _ hSource => absurd hSource List.not_mem_nil) hCreated
  refine ⟨hCreates.pointers, fun c hc hActive orderId hOwner => ?_⟩
  rw [hCreates.orders]
  obtain hOld | ⟨rfl, -⟩ := hCreates.claims c hc
  · exact hOk.owners c hOld hActive orderId hOwner
  · cases hSource : c.source with
    | segment owner segmentId =>
      rw [hSource] at hOccupying hOwner
      cases hOwner
      simp only [assertSourceOccupying, bind_eq_ok, expect_eq_ok, require_eq_ok] at hOccupying
      obtain ⟨row, hRow, hStay, hSegment⟩ := hOccupying
      exact ⟨row, hRow, hStay, List.mem_map_of_mem hSegment⟩
    | maintenance | internalUse =>
      rw [hSource] at hOwner
      cases hOwner

theorem changeStay_keeps (hOk : InventoryOk cat t) {inexact : String}
    {orderId segmentId arrivalDate departureDate : Nat} {after : List StayTimelineItem} {newId : Nat → Nat}
    (h : changeStay cat blockers inexact t orderId segmentId arrivalDate departureDate after newId = .ok ws) :
    InventoryOk cat ((inventoryAccess cat).applyAll ws t) := by
  simp only [changeStay, bind_eq_ok, expect_eq_ok, require_eq_ok, pure_eq_ok] at h
  obtain ⟨row, hRow, _, hStay, _, hSegment, before, hBefore, _, hComplete, released, hReleased, _, -, added,
    hAdded, rfl⟩ := h
  have hNodup : (after.map StayTimelineItem.serviceDate).Nodup := by
    rw [completeOrThrow_dates hComplete]
    exact serviceDates_nodup _ _
  -- the order's active claims all lie in the segments it had before
  have hOwned : ∀ c ∈ t.claims, c.active = true → c.source.orderId? = some orderId →
      c.source ∈ row.sources orderId := by
    intro c hc hActive hOwner
    obtain ⟨row', hRow', -, hSource⟩ := hOk.owners c hc hActive orderId hOwner
    rw [hRow, Option.some.injEq] at hRow'
    rwa [hRow']
  obtain ⟨ws, hWs, hReleases⟩ := releaseInventoryClaimsOnDates_releases
    (hOk.pointers.putOrder orderId { row with
      arrivalDate := arrivalDate, departureDate := departureDate, segments := segmentId :: row.segments })
    .orderSegment (row.sources orderId)
    ((timelinePairDiff before after).released.map StayTimelineItem.serviceDate)
  rw [hReleased] at hWs
  cases hWs
  have hCreates := createEach_creates hReleases.pointers
    (addedByUnit_nodup (hNodup.sublist (List.filter_sublist.map _))) (fun date hDate c hc hActive hSource hOn => ?_)
    hAdded
  · rw [List.cons_append, LockedStore.Access.applyAll_cons, LockedStore.Access.applyAll_append]
    refine ⟨hCreates.pointers, hOk.owners.putOrder (hCreates.orders.trans hReleases.orders) ?_ ?_⟩
    · intro c hc hActive hOther
      obtain hOld | ⟨hSource, -⟩ := hCreates.claims c hc
      · exact ((hReleases.claims c hActive).mp hOld).1
      · rw [hSource] at hOther
        exact absurd rfl hOther
    · intro c hc hActive hOwner
      refine ⟨hStay, ?_⟩
      obtain hOld | ⟨hSource, -⟩ := hCreates.claims c hc
      · exact List.mem_cons_of_mem _ (hOwned c ((hReleases.claims c hActive).mp hOld).1 hActive hOwner)
      · rw [hSource]
        exact List.mem_cons_self
  · obtain ⟨item, hItem, hItemDate⟩ := mem_addedByUnit.mp hDate
    obtain ⟨hOld, hKept⟩ := (hReleases.claims c hActive).mp hc
    have hOwner : c.source.orderId? = some orderId := by
      obtain hNew | hOwn := List.mem_cons.mp hSource
      · rw [hNew]
        rfl
      · exact OrderStay.orderId?_of_mem hOwn
    have hOwn := hOwned c hOld hActive hOwner
    have hLeft := added_excluded hNodup hItem (loadActiveStayTimeline_mem hBefore hOld hActive hOwn)
      (hOn.trans hItemDate.symm)
    refine hKept (mem_activeClaims.mpr ⟨hOld, ClaimSource.type_of_orderId? hOwner, hOwn, hActive, ?_⟩)
    exact List.contains_iff_mem.mpr (List.mem_map.mpr ⟨_, hLeft, rfl⟩)

theorem correctHistoricalStay_keeps (hOk : InventoryOk cat t)
    {orderId segmentId unitId arrivalDate departureDate : Nat} {newId : Nat → Nat}
    (h : correctHistoricalStay cat blockers t orderId segmentId unitId arrivalDate departureDate newId =
      .ok ws) : InventoryOk cat ((inventoryAccess cat).applyAll ws t) := by
  simp only [correctHistoricalStay, bind_eq_ok, expect_eq_ok, require_eq_ok, pure_eq_ok] at h
  obtain ⟨row, hRow, _, hIdle, _, -, _, -, created, hCreated, released, hReleased, rfl⟩ := h
  have hNone : ∀ c ∈ t.claims, c.active = true → c.source.orderId? ≠ some orderId := fun c hc hActive =>
    hOk.owners.idle (fun row' hRow' => by
      rw [hRow, Option.some.injEq] at hRow'
      rwa [← hRow']) hc hActive
  have hCreates := createInventoryClaims_creates (hOk.pointers.putOrder orderId _) (serviceDates_nodup _ _)
    (fun date _ c hc hActive hSource _ => hNone c hc hActive ?_) hCreated
  · obtain ⟨ws, hWs, hReleases⟩ := releaseInventoryClaims_releases hCreates.pointers .orderSegment
      [.segment orderId segmentId] none
    rw [hReleased] at hWs
    cases hWs
    rw [List.cons_append, LockedStore.Access.applyAll_cons, LockedStore.Access.applyAll_append]
    refine ⟨hReleases.pointers, hOk.owners.putOrder (hReleases.orders.trans hCreates.orders) ?_ ?_⟩
    · intro c hc hActive hOther
      obtain hOld | ⟨hSource, -⟩ := hCreates.claims c ((hReleases.claims c hActive).mp hc).1
      · exact hOld
      · rw [hSource] at hOther
        exact absurd rfl hOther
    · intro c hc hActive hOwner
      obtain ⟨hWas, hKept⟩ := (hReleases.claims c hActive).mp hc
      obtain hOld | ⟨hSource, -⟩ := hCreates.claims c hWas
      · exact absurd hOwner (hNone c hOld hActive)
      · exact absurd (mem_activeClaims.mpr
          ⟨hWas, ClaimSource.type_of_orderId? hOwner, by simp [hSource], hActive, rfl⟩) hKept
  · obtain hNew | hOwn := List.mem_cons.mp hSource
    · rw [hNew]
      rfl
    · exact OrderStay.orderId?_of_mem hOwn

theorem InventoryProgram.run_keeps (hOk : InventoryOk cat t) {program : InventoryProgram}
    (h : program.run cat blockers t = .ok ws) : InventoryOk cat ((inventoryAccess cat).applyAll ws t) := by
  cases program with
  | lockRoomDay roomId date =>
    cases h
    exact lockRoomDay_keeps hOk roomId date
  | createOrder orderId segmentId arrivalDate departureDate =>
    simp only [run, bind_eq_ok, require_eq_ok, pure_eq_ok] at h
    obtain ⟨_, hAbsent, rfl⟩ := h
    exact putOrder_keeps hOk fun c hc hActive =>
      hOk.owners.idle (fun row hRow => by simp [hAbsent] at hRow) hc hActive
  | reopenOrder orderId segmentId arrivalDate departureDate =>
    simp only [run, bind_eq_ok, expect_eq_ok, require_eq_ok, pure_eq_ok] at h
    obtain ⟨row, hRow, _, hIdle, rfl⟩ := h
    refine putOrder_keeps hOk fun c hc hActive => hOk.owners.idle (fun row' hRow' => ?_) hc hActive
    rw [hRow, Option.some.injEq] at hRow'
    rwa [← hRow']
  | closeOrder orderId => exact closeOrder_keeps hOk h
  | shortenStay orderId departureDate => exact shortenStay_keeps hOk h
  | createClaims unitId source arrivalDate departureDate chosen newId => exact createClaims_keeps hOk h
  | releaseClaims sourceType sources fromDate =>
    obtain ⟨ws, hWs, hReleases⟩ := releaseInventoryClaims_releases hOk.pointers sourceType sources fromDate
    rw [show releaseInventoryClaims cat t sourceType sources fromDate = .ok _ from h] at hWs
    cases hWs
    exact hReleases.inventoryOk hOk
  | releaseClaimsOnDates sourceType sources dates =>
    obtain ⟨ws, hWs, hReleases⟩ := releaseInventoryClaimsOnDates_releases hOk.pointers sourceType sources dates
    rw [show releaseInventoryClaimsOnDates cat t sourceType sources dates = .ok _ from h] at hWs
    cases hWs
    exact hReleases.inventoryOk hOk
  | changeStay inexact orderId segmentId arrivalDate departureDate after newId =>
    exact changeStay_keeps hOk h
  | correctHistoricalStay orderId segmentId unitId arrivalDate departureDate newId =>
    exact correctHistoricalStay_keeps hOk h

end

end GreenPms
