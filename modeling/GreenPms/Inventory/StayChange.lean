import GreenPms.Order.Runs
import GreenPms.Inventory.Reachable

/-! # The claims of a stay change

The released nights of a timeline are released by date, the added nights are claimed unit by unit
for a new segment. What the two leave are claims of exactly the nights of the new timeline, with
the claims of the preserved nights and of every other source as they were.
-/

namespace GreenPms

open Checked

def Claim.night (claim : Claim) : StayTimelineItem := ⟨claim.serviceDate, claim.unitId⟩

def InventoryTables.heldBy (t : InventoryTables) (orderId : Nat) : List Claim :=
  t.claims.filter fun c => c.active && c.source.orderId? = some orderId

/-- All claims of other orders, of maintenance and of internal use. -/
def InventoryTables.claimsOfOthers (t : InventoryTables) (orderId : Nat) : List Claim :=
  t.claims.filter fun c => c.source.orderId? ≠ some orderId

/-- The order holds each night of the timeline by one active claim, and has no other. -/
def HoldsNights (t : InventoryTables) (orderId : Nat) (timeline : List StayTimelineItem) : Prop :=
  ((t.heldBy orderId).map Claim.night).Perm timeline

variable {cat : UnitCatalog} {t t' : InventoryTables} {orderId : Nat}

theorem mem_heldBy {c : Claim} : c ∈ t.heldBy orderId ↔
    c ∈ t.claims ∧ c.active = true ∧ c.source.orderId? = some orderId := by
  simp [InventoryTables.heldBy]

theorem HoldsNights.mem {timeline : List StayTimelineItem} (h : HoldsNights t orderId timeline) {c : Claim}
    (hc : c ∈ t.heldBy orderId) : c.night ∈ timeline :=
  h.mem_iff.mp (List.mem_map_of_mem hc)

/-! ## Rows after a release and after a creation -/

def releaseRows (gone claims : List Claim) : List Claim :=
  gone.foldl (fun claims claim => claims.map claim.released) claims

theorem releaseEach_claims {message : String} {gone : List Claim} {ws : List InventoryWrite}
    (h : releaseEach cat message t gone = .ok ws) :
    ((inventoryAccess cat).applyAll ws t).claims = releaseRows gone t.claims := by
  induction gone generalizing t ws with
  | nil =>
    cases h
    rfl
  | cons claim rest ih =>
    simp only [releaseEach, bind_eq_ok, pure_eq_ok] at h
    obtain ⟨first, hFirst, more, hMore, rfl⟩ := h
    rw [LockedStore.Access.applyAll_append, ih hMore, releaseRows, releaseRows, List.foldl_cons]
    congr 1
    unfold releaseClaim at hFirst
    split at hFirst
    · simp only [bind_eq_ok, pure_eq_ok] at hFirst
      obtain ⟨-, -, rfl⟩ := hFirst
      rfl
    · simp only [bind_eq_ok, pure_eq_ok] at hFirst
      obtain ⟨-, -, rfl⟩ := hFirst
      rfl

theorem filter_releaseRows_active (P : Claim → Bool) (gone claims : List Claim) :
    (releaseRows gone claims).filter (fun c => c.active && P c) =
      (claims.filter fun c => c.active && P c).filter fun c => c ∉ gone := by
  induction gone generalizing claims with
  | nil => simp [releaseRows]
  | cons claim rest ih =>
    rw [releaseRows, List.foldl_cons, ← releaseRows, ih, filter_map_released_active, List.filter_filter]
    refine List.filter_congr fun c _ => ?_
    simp [not_or, Bool.and_comm]

theorem filter_releaseRows_of_not {P : Claim → Bool} (hKey : Claim.Keyed P) {gone : List Claim}
    (hGone : ∀ c ∈ gone, P c = false) (claims : List Claim) :
    (releaseRows gone claims).filter P = claims.filter P := by
  induction gone generalizing claims with
  | nil => rfl
  | cons claim rest ih =>
    obtain ⟨hHere, hRest⟩ := List.forall_mem_cons.mp hGone
    rw [releaseRows, List.foldl_cons, ← releaseRows, ih hRest, filter_deactivate hKey hHere]

theorem claimNights_claims (unitId : Nat) (source : ClaimSource) (newId : Nat → Nat) (dates : List Nat) :
    ((inventoryAccess cat).applyAll (dates.flatMap (claimNight cat unitId source newId)) t).claims =
      t.claims ++ dates.map (newClaim cat unitId source newId) := by
  induction dates generalizing t with
  | nil => simp
  | cons date dates ih =>
    rw [List.flatMap_cons, LockedStore.Access.applyAll_append, ih, List.map_cons, List.append_cons]
    congr 1
    unfold claimNight
    split <;> rfl

def groupClaims (cat : UnitCatalog) (source : ClaimSource) (newId : Nat → Nat) (groups : List (Nat × List Nat)) :
    List Claim :=
  groups.flatMap fun group => group.2.map (newClaim cat group.1 source newId)

theorem createEach_claims {blockers : UnitBlockers} {source : ClaimSource} {exclude : List ClaimSource}
    {newId : Nat → Nat} {groups : List (Nat × List Nat)} {ws : List InventoryWrite}
    (h : createEach cat blockers source exclude newId t groups = .ok ws) :
    ((inventoryAccess cat).applyAll ws t).claims = t.claims ++ groupClaims cat source newId groups := by
  induction groups generalizing t ws with
  | nil =>
    cases h
    exact (List.append_nil _).symm
  | cons group rest ih =>
    obtain ⟨unitId, dates⟩ := group
    simp only [createEach, bind_eq_ok, pure_eq_ok] at h
    obtain ⟨first, hFirst, more, hMore, rfl⟩ := h
    simp only [createInventoryClaims, bind_eq_ok, pure_eq_ok] at hFirst
    obtain ⟨-, -, -, -, rfl⟩ := hFirst
    rw [LockedStore.Access.applyAll_append, ih hMore, claimNights_claims, List.append_assoc]
    rfl

theorem groupClaims_nights (source : ClaimSource) (newId : Nat → Nat) (added : List StayTimelineItem) :
    ((groupClaims cat source newId (addedByUnit added)).map Claim.night).Perm added := by
  have hUnits : ∀ item ∈ added, item.inventoryUnitId ∈ (added.map StayTimelineItem.inventoryUnitId).eraseDups :=
    fun item hItem => List.mem_eraseDups.mpr (List.mem_map_of_mem hItem)
  refine List.Perm.trans (List.Perm.of_eq ?_) (Indexes.flatMap_filter_perm (Indexes.nodup_eraseDups _) hUnits)
  rw [groupClaims, addedByUnit, List.flatMap_map, List.map_flatMap]
  simp only [List.flatMap_def]
  congr 1
  refine List.map_congr_left fun unitId _ => ?_
  rw [List.map_map, List.map_map]
  -- a night is rebuilt from its date and the unit of its group
  refine (List.map_congr_left fun item hItem => ?_).trans (List.map_id _)
  have hUnit : item.inventoryUnitId = unitId := by simpa using (List.mem_filter.mp hItem).2
  simp only [Function.comp_apply, newClaim, Claim.night, ← hUnit, id]

theorem mem_groupClaims {source : ClaimSource} {newId : Nat → Nat} {groups : List (Nat × List Nat)} {c : Claim}
    (hc : c ∈ groupClaims cat source newId groups) : c.source = source ∧ c.active = true := by
  obtain ⟨group, -, hGroup⟩ := List.mem_flatMap.mp hc
  obtain ⟨date, -, rfl⟩ := List.mem_map.mp hGroup
  exact ⟨rfl, rfl⟩

/-! ## The nights that are replaced -/

def releasedDates (before after : List StayTimelineItem) : List Nat :=
  (timelinePairDiff before after).released.map StayTimelineItem.serviceDate

def segmentSources (orderId : Nat) (segments : List Nat) : List ClaimSource := segments.map (.segment orderId)

/-- The active claims of the order change from the nights before to those after: the claims of the
preserved nights are the same rows, all others are new rows of the new segment, and no row of
another source is written. -/
structure NightsReplaced (t t' : InventoryTables) (orderId segmentId : Nat) (before after : List StayTimelineItem) :
    Prop where
  nights : HoldsNights t' orderId after
  preserved : ∀ c ∈ t.heldBy orderId, c.night ∈ (timelinePairDiff before after).preserved → c ∈ t'.heldBy orderId
  added : ∀ c ∈ t'.heldBy orderId, c ∈ t.heldBy orderId ∧ c.night ∈ (timelinePairDiff before after).preserved ∨
    c.source = .segment orderId segmentId ∧ c.night ∈ (timelinePairDiff before after).added
  others : t'.claimsOfOthers orderId = t.claimsOfOthers orderId

section

variable {before : List StayTimelineItem} {segments : List Nat}

theorem mem_released_claims (after : List StayTimelineItem) (hDates : (before.map StayTimelineItem.serviceDate).Nodup)
    (hHeld : HoldsNights t orderId before)
    (hSegments : ∀ c ∈ t.heldBy orderId, c.source ∈ segmentSources orderId segments) {c : Claim} :
    c ∈ t.activeClaims .orderSegment (segmentSources orderId segments) (releasedDates before after).contains ↔
      c ∈ t.heldBy orderId ∧ c.night ∉ after := by
  rw [mem_activeClaims]
  constructor
  · rintro ⟨hc, -, hSource, hActive, hDate⟩
    have hOwner : c.source.orderId? = some orderId := by
      obtain ⟨segmentId, -, hSame⟩ := List.mem_map.mp hSource
      rw [← hSame]
      rfl
    have hOwn : c ∈ t.heldBy orderId := mem_heldBy.mpr ⟨hc, hActive, hOwner⟩
    obtain ⟨item, hItem, hSameDate⟩ := List.mem_map.mp (List.contains_iff_mem.mp hDate)
    obtain ⟨hWas, hLeft⟩ := mem_released.mp hItem
    have hSame : item = c.night := List.inj_on_of_nodup_map hDates hWas (hHeld.mem hOwn) hSameDate
    exact ⟨hOwn, hSame ▸ hLeft⟩
  · rintro ⟨hOwn, hLeft⟩
    obtain ⟨hc, hActive, hOwner⟩ := mem_heldBy.mp hOwn
    refine ⟨hc, ClaimSource.type_of_orderId? hOwner, hSegments c hOwn, hActive, List.contains_iff_mem.mpr ?_⟩
    exact List.mem_map.mpr ⟨c.night, mem_released.mpr ⟨hHeld.mem hOwn, hLeft⟩, rfl⟩

theorem released_claims_length {after : List StayTimelineItem} (hDates : (before.map StayTimelineItem.serviceDate).Nodup)
    (hHeld : HoldsNights t orderId before)
    (hSegments : ∀ c ∈ t.heldBy orderId, c.source ∈ segmentSources orderId segments) :
    (t.activeClaims .orderSegment (segmentSources orderId segments) (releasedDates before after).contains).length =
      (timelinePairDiff before after).released.length := by
  have hRows : t.claims.filter (fun c => c.source.type = .orderSegment &&
      (segmentSources orderId segments).contains c.source && c.active &&
      (releasedDates before after).contains c.serviceDate) =
      (t.heldBy orderId).filter fun c => !after.contains c.night := by
    rw [InventoryTables.heldBy, List.filter_filter]
    refine List.filter_congr fun c hc => ?_
    have hIff := mem_released_claims after hDates hHeld hSegments (c := c)
    rw [mem_activeClaims, mem_heldBy] at hIff
    rw [Bool.eq_iff_iff]
    simpa [hc, and_assoc, and_comm, and_left_comm] using hIff
  have hNights : (((t.heldBy orderId).filter fun c => !after.contains c.night).map Claim.night).Perm
      (timelinePairDiff before after).released := by
    rw [← Function.comp_def (fun item => !after.contains item), ← List.filter_map]
    exact hHeld.filter _
  rw [InventoryTables.activeClaims, (List.mergeSort_perm _ _).length_eq, hRows, ← hNights.length_eq, List.length_map]

theorem nightsReplaced (cat : UnitCatalog) (newId : Nat → Nat) {after : List StayTimelineItem} (hBefore : (before.map StayTimelineItem.serviceDate).Nodup)
    (hAfter : (after.map StayTimelineItem.serviceDate).Nodup) (hHeld : HoldsNights t orderId before)
    (hSegments : ∀ c ∈ t.heldBy orderId, c.source ∈ segmentSources orderId segments)
    {segmentId : Nat}
    (hClaims : t'.claims = releaseRows
        (t.activeClaims .orderSegment (segmentSources orderId segments) (releasedDates before after).contains) t.claims ++
      groupClaims cat (.segment orderId segmentId) newId (addedByUnit (timelinePairDiff before after).added)) :
    NightsReplaced t t' orderId segmentId before after := by
  set created := groupClaims cat (.segment orderId segmentId) newId (addedByUnit (timelinePairDiff before after).added)
  have hCreated : (created.map Claim.night).Perm (timelinePairDiff before after).added := groupClaims_nights _ _ _
  have hKept : t'.heldBy orderId = (t.heldBy orderId).filter (fun c => after.contains c.night) ++ created := by
    have hNew : created.filter (fun c => c.active && c.source.orderId? = some orderId) = created := by
      refine List.filter_eq_self.mpr fun c hc => ?_
      obtain ⟨hSource, hActive⟩ := mem_groupClaims hc
      simp [hSource, hActive, ClaimSource.orderId?]
    rw [InventoryTables.heldBy, hClaims, List.filter_append, filter_releaseRows_active, hNew]
    congr 1
    refine List.filter_congr fun c hc => ?_
    have hIff := mem_released_claims after hBefore hHeld hSegments (c := c)
    rw [Bool.eq_iff_iff, decide_eq_true_eq, hIff, List.contains_iff_mem]
    exact ⟨fun h => by_contra fun hLeft => h ⟨hc, hLeft⟩, fun hStays h => h.2 hStays⟩
  have hOld : (((t.heldBy orderId).filter fun c => after.contains c.night).map Claim.night).Perm
      (timelinePairDiff before after).preserved := by
    rw [← Function.comp_def after.contains, ← List.filter_map]
    exact hHeld.filter _
  refine ⟨?_, fun c hc hNight => ?_, fun c hc => ?_, ?_⟩
  · rw [HoldsNights, hKept, List.map_append]
    exact (hOld.append hCreated).trans (timelinePairDiff_exact hBefore hAfter).after_perm
  · rw [hKept]
    exact List.mem_append_left _ (List.mem_filter.mpr ⟨hc, (List.mem_filter.mp hNight).2⟩)
  · rw [hKept] at hc
    obtain hStays | hNew := List.mem_append.mp hc
    · obtain ⟨hOwn, -⟩ := List.mem_filter.mp hStays
      exact .inl ⟨hOwn, hOld.mem_iff.mp (List.mem_map_of_mem hStays)⟩
    · exact .inr ⟨(mem_groupClaims hNew).1, hCreated.mem_iff.mp (List.mem_map_of_mem hNew)⟩
  · have hNone : created.filter (fun c => c.source.orderId? ≠ some orderId) = [] := by
      refine List.filter_eq_nil_iff.mpr fun c hc => ?_
      simp [(mem_groupClaims hc).1, ClaimSource.orderId?]
    rw [InventoryTables.claimsOfOthers, hClaims, List.filter_append, hNone, List.append_nil]
    refine filter_releaseRows_of_not (fun claim c => by rw [(claim.released_key c).2.2.2.2]) (fun c hc => ?_) _
    have hOwn := ((mem_released_claims after hBefore hHeld hSegments).mp hc).1
    simp [(mem_heldBy.mp hOwn).2.2]

/-- Once the released nights are released, the order has no active claim on an added night, so the
check of the creation skips nothing and no pointer of the order is overwritten. -/
theorem added_excludedElsewhere {after : List StayTimelineItem} (hBefore : (before.map StayTimelineItem.serviceDate).Nodup)
    (hAfter : (after.map StayTimelineItem.serviceDate).Nodup) (hHeld : HoldsNights t orderId before)
    (hSegments : ∀ c ∈ t.heldBy orderId, c.source ∈ segmentSources orderId segments) {segmentId : Nat}
    (hReleases : Releases cat t t'
      (t.activeClaims .orderSegment (segmentSources orderId segments) (releasedDates before after).contains)) :
    ∀ date ∈ (addedByUnit (timelinePairDiff before after).added).flatMap Prod.snd,
      ExcludedElsewhere t' (segmentSources orderId (segmentId :: segments)) date := by
  intro date hDate c hc hActive hSource hOn
  obtain ⟨item, hItem, hItemDate⟩ := mem_addedByUnit.mp hDate
  obtain ⟨hNow, hNew⟩ := mem_added.mp hItem
  obtain ⟨hOld, hKept⟩ := (hReleases.claims c hActive).mp hc
  have hOwner : c.source.orderId? = some orderId := by
    obtain ⟨owner, -, hSame⟩ := List.mem_map.mp hSource
    rw [← hSame]
    rfl
  have hOwn : c ∈ t.heldBy orderId := mem_heldBy.mpr ⟨hOld, hActive, hOwner⟩
  have hStays : c.night ∈ after := by_contra fun hLeft =>
    hKept ((mem_released_claims after hBefore hHeld hSegments).mpr ⟨hOwn, hLeft⟩)
  have hSame : c.night = item := List.inj_on_of_nodup_map hAfter hStays hNow (hOn.trans hItemDate.symm)
  exact hNew (hSame ▸ hHeld.mem hOwn)

end

/-- The lists of the difference split the nights of either timeline, the runs are maximal and spell
out the timeline, and the release by dates with the creation by units leaves the order with exactly
the nights of the new timeline. -/
theorem timeline_change_agrees {before after : List StayTimelineItem}
    {arrivalDate departureDate newArrivalDate newDepartureDate : Nat}
    (hBefore : assertCompleteTimeline before arrivalDate departureDate = .ok ())
    (hAfter : assertCompleteTimeline after newArrivalDate newDepartureDate = .ok ()) :
    DiffExact before after (timelinePairDiff before after) ∧
    MaximalRuns before (timelineRuns before) ∧ MaximalRuns after (timelineRuns after) ∧
    ∀ (cat : UnitCatalog) (t : InventoryTables) (orderId : Nat) (segments : List Nat), HoldsNights t orderId before →
      (∀ c ∈ t.heldBy orderId, c.source ∈ segmentSources orderId segments) →
      (PointersOk cat t → ∃ released, releaseInventoryClaimsOnDates cat t .orderSegment
        (segmentSources orderId segments) (releasedDates before after) = .ok released) ∧
      ∀ released, releaseInventoryClaimsOnDates cat t .orderSegment (segmentSources orderId segments)
          (releasedDates before after) = .ok released →
        (t.activeClaims .orderSegment (segmentSources orderId segments) (releasedDates before after).contains).length =
          (timelinePairDiff before after).released.length ∧
        ∀ blockers segmentId newId added, createEach cat blockers (.segment orderId segmentId)
            (segmentSources orderId (segmentId :: segments)) newId ((inventoryAccess cat).applyAll released t)
            (addedByUnit (timelinePairDiff before after).added) = .ok added →
          NightsReplaced t ((inventoryAccess cat).applyAll (released ++ added) t) orderId segmentId before after ∧
          (PointersOk cat t → PointersOk cat ((inventoryAccess cat).applyAll (released ++ added) t)) := by
  have hSorted : ∀ {timeline : List StayTimelineItem} {a b : Nat}, assertCompleteTimeline timeline a b = .ok () →
      (timeline.map StayTimelineItem.serviceDate).Pairwise (· < ·) := by
    intro timeline a b hComplete
    rw [assertCompleteTimeline_dates hComplete]
    exact serviceDates_sorted a b
  have hBeforeDates := (hSorted hBefore).imp Nat.ne_of_lt
  have hAfterDates := (hSorted hAfter).imp Nat.ne_of_lt
  refine ⟨timelinePairDiff_exact hBeforeDates hAfterDates, timelineRuns_maximal (hSorted hBefore),
    timelineRuns_maximal (hSorted hAfter), fun cat t orderId segments hHeld hSegments => ⟨fun hOk => ?_,
      fun released hReleased => ⟨released_claims_length hBeforeDates hHeld hSegments,
        fun blockers segmentId newId added hAdded => ⟨?_, fun hOk => ?_⟩⟩⟩⟩
  · obtain ⟨ws, hWs, -⟩ := releaseInventoryClaimsOnDates_releases hOk .orderSegment
      (segmentSources orderId segments) (releasedDates before after)
    exact ⟨ws, hWs⟩
  · refine nightsReplaced cat newId hBeforeDates hAfterDates hHeld hSegments ?_
    rw [LockedStore.Access.applyAll_append, createEach_claims hAdded, releaseEach_claims hReleased]
  · obtain ⟨ws, hWs, hReleases⟩ := releaseInventoryClaimsOnDates_releases hOk .orderSegment
      (segmentSources orderId segments) (releasedDates before after)
    rw [hReleased] at hWs
    cases hWs
    have hAddedDates : ((timelinePairDiff before after).added.map StayTimelineItem.serviceDate).Nodup :=
      hAfterDates.sublist (List.filter_sublist.map _)
    rw [LockedStore.Access.applyAll_append]
    exact (createEach_creates hReleases.pointers (addedByUnit_nodup hAddedDates)
      (added_excludedElsewhere hBeforeDates hAfterDates hHeld hSegments hReleases) hAdded).pointers

/-- An order holds rooms 3 and 4 on two nights, in two segments; room 5 is under maintenance. -/
def sampleHeld : InventoryTables where
  claims := [⟨1, 3, 3, 10, .segment 7 1, true⟩, ⟨2, 4, 4, 11, .segment 7 2, true⟩, ⟨9, 5, 5, 11, .maintenance 1, true⟩]
  wholeClaimId roomId date :=
    if roomId = 3 ∧ date = 10 then some (some 1)
    else if roomId = 4 ∧ date = 11 then some (some 2)
    else if roomId = 5 ∧ date = 11 then some (some 9)
    else some none
  bedClaimId _ _ := none
  orders _ := none

theorem sampleHeld_pointers : PointersOk sampleCatalog sampleHeld where
  room := by decide
  keys := by decide
  whole := by
    intro r date _
    simp only [InventoryTables.activeOn, InventoryTables.wholePointer, sampleHeld]
    by_cases hFirst : r = 3 ∧ date = 10
    · obtain ⟨rfl, rfl⟩ := hFirst
      decide
    by_cases hSecond : r = 4 ∧ date = 11
    · obtain ⟨rfl, rfl⟩ := hSecond
      decide
    by_cases hThird : r = 5 ∧ date = 11
    · obtain ⟨rfl, rfl⟩ := hThird
      decide
    rw [if_neg hFirst, if_neg hSecond, if_neg hThird]
    simp only [List.filter_cons, Bool.true_and, Bool.and_eq_true, decide_eq_true_eq, List.filter_nil]
    rw [if_neg fun h => hFirst ⟨h.1.symm, h.2.symm⟩, if_neg fun h => hSecond ⟨h.1.symm, h.2.symm⟩,
      if_neg fun h => hThird ⟨h.1.symm, h.2.symm⟩]
    rfl
  beds := by
    intro b date hKind
    have hBed : b = 2 := by
      by_contra hOther
      rw [show sampleCatalog.kind b = .room from if_neg hOther] at hKind
      cases hKind
    subst hBed
    simp [InventoryTables.activeOn, InventoryTables.bedPointer, sampleHeld]
  exclusive _ _ _ _ := rfl

/-- The second night moves from room 4 to room 3, and a third is added there. -/
theorem timeline_change_agrees_sample :
    let before : List StayTimelineItem := [⟨10, 3⟩, ⟨11, 4⟩]
    let after : List StayTimelineItem := [⟨10, 3⟩, ⟨11, 3⟩, ⟨12, 3⟩]
    MaximalRuns after [⟨3, 10, 13⟩] ∧ HoldsNights sampleHeld 7 before ∧ ∃ released added,
      NightsReplaced sampleHeld ((inventoryAccess sampleCatalog).applyAll (released ++ added) sampleHeld) 7 3 before after ∧
      PointersOk sampleCatalog ((inventoryAccess sampleCatalog).applyAll (released ++ added) sampleHeld) := by
  intro before after
  have hHeld : HoldsNights sampleHeld 7 before := List.Perm.refl _
  obtain ⟨-, -, hRuns, hChange⟩ := timeline_change_agrees
    (show assertCompleteTimeline before 10 12 = .ok () by decide)
    (show assertCompleteTimeline after 10 13 = .ok () by decide)
  obtain ⟨-, hReplaced⟩ := hChange sampleCatalog sampleHeld 7 [2, 1] hHeld (by decide)
  have hReleased : releaseInventoryClaimsOnDates sampleCatalog sampleHeld .orderSegment (segmentSources 7 [2, 1])
      (releasedDates before after) = .ok [.setWhole 4 11 none, .deactivate ⟨2, 4, 4, 11, .segment 7 2, true⟩] := by
    have hActive : sampleHeld.activeClaims .orderSegment (segmentSources 7 [2, 1])
        (releasedDates before after).contains = [⟨2, 4, 4, 11, .segment 7 2, true⟩] := List.mergeSort_singleton _
    exact (congrArg (releaseEach sampleCatalog _ sampleHeld) hActive).trans rfl
  obtain ⟨-, hNights⟩ := hReplaced _ hReleased
  obtain ⟨hNights, hPointers⟩ := hNights ⟨fun _ => false, fun _ => false⟩ 3 (· + 100)
    [.insertClaim ⟨111, 3, 3, 11, .segment 7 3, true⟩, .setWhole 3 11 (some 111),
      .insertClaim ⟨112, 3, 3, 12, .segment 7 3, true⟩, .setWhole 3 12 (some 112)] rfl
  exact ⟨hRuns, hHeld, _, _, hNights, hPointers sampleHeld_pointers⟩

end GreenPms
