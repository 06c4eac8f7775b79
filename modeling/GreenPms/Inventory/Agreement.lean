import GreenPms.Inventory.Availability

/-! # Agreement of the three readers

A night of a unit is blocked by an active claim that is not excluded, by a stay that awaits its
departure, or by a range that an older release left. Each reader finds exactly the blocked nights:
the list and the fingerprint from the claims, the assertion from the pointers.
-/

namespace GreenPms

open Checked

theorem affectsUnit_eq_true {cat : UnitCatalog} {roomId unitId target : Nat} :
    affectsUnit cat roomId unitId target = true ↔
      roomId = cat.roomId target ∧ (cat.kind target = .room ∨ unitId = roomId ∨ unitId = target) := by
  simp [affectsUnit, or_assoc]

namespace PropertyInventory

variable (cat : UnitCatalog) (inv : PropertyInventory)

structure ClaimBlocks (unitId : Nat) (exclude : List ClaimSource) (date : Nat) (c : Claim) : Prop where
  mem : c ∈ inv.tables.claims
  active : c.active = true
  date : c.serviceDate = date
  foreign : c.source ∉ exclude
  affects : affectsUnit cat c.roomId c.unitId unitId = true

def departureBlocker (o : OrderRow) (s : StaySegment) : DepartureDayStayBlocker :=
  ⟨o.id, o.stayId, s.id, s.unitId, cat.roomId s.unitId, inv.businessDate⟩

structure StayBlocks (unitId : Nat) (exclude : List ClaimSource) (purpose : InventoryPurpose) (date : Nat)
    (o : OrderRow) (s : StaySegment) : Prop where
  mem : o ∈ inv.orders
  inHouse : o.checkedIn = true
  departs : o.departureDate = inv.businessDate
  today : inv.businessDate = date
  latest : o.latestSegment = some s
  foreign : .segment o.id s.id ∉ exclude
  affects : affectsUnit cat (cat.roomId s.unitId) s.unitId unitId = true
  damaged : purpose = .lodgingNights → inv.damaged (inv.departureBlocker cat o s) = true

structure RangeBlocks (unitId date : Nat) (b : InternalUseBlock) : Prop where
  mem : b ∈ inv.blocks
  active : b.active = true
  arrival : b.arrivalDate ≤ date
  departure : date < b.departureDate
  affects : affectsUnit cat b.roomId b.unitId unitId = true

def NightBlocked (unitId : Nat) (exclude : List ClaimSource) (purpose : InventoryPurpose) (date : Nat) : Prop :=
  (∃ c, inv.ClaimBlocks cat unitId exclude date c) ∨ (∃ o s, inv.StayBlocks cat unitId exclude purpose date o s) ∨
    ∃ b, inv.RangeBlocks cat unitId date b

variable {cat inv} {unitId date arrivalDate departureDate : Nat} {dates : List Nat} {exclude : List ClaimSource}
  {purpose : InventoryPurpose}

/-! ## What the shared readers return -/

theorem mem_departureBlockers {unit : Option Nat} {b : DepartureDayStayBlocker} :
    b ∈ inv.loadInventoryDepartureBlockers cat dates purpose unit exclude ↔ inv.businessDate ∈ dates ∧
      ∃ o s, o ∈ inv.orders ∧ o.checkedIn = true ∧ o.departureDate = inv.businessDate ∧
        o.latestSegment = some s ∧ b = inv.departureBlocker cat o s ∧ .segment o.id s.id ∉ exclude ∧
        unit.all (affectsUnit cat (cat.roomId s.unitId) s.unitId) = true ∧
        (purpose = .lodgingNights → inv.damaged b = true) := by
  have hLoad : b ∈ inv.loadDepartureDayStayBlockers cat dates ↔ inv.businessDate ∈ dates ∧
      ∃ o s, o ∈ inv.orders ∧ o.checkedIn = true ∧ o.departureDate = inv.businessDate ∧
        o.latestSegment = some s ∧ b = inv.departureBlocker cat o s := by
    unfold loadDepartureDayStayBlockers
    split
    · next hMem =>
      have hMem : inv.businessDate ∈ dates := by simpa using hMem
      simp only [List.mem_filterMap, List.mem_filter, Option.map_eq_some_iff, Bool.and_eq_true,
        decide_eq_true_eq, departureBlocker]
      constructor
      · rintro ⟨o, ⟨ho, hIn, hDeparts⟩, s, hs, rfl⟩
        exact ⟨hMem, o, s, ho, hIn, hDeparts, hs, rfl⟩
      · rintro ⟨-, o, s, ho, hIn, hDeparts, hs, rfl⟩
        exact ⟨o, ⟨ho, hIn, hDeparts⟩, s, hs, rfl⟩
    · next hMem =>
      have hMem : inv.businessDate ∉ dates := by simpa using hMem
      simp [hMem]
  have hRead : b ∈ inv.loadInventoryDepartureBlockers cat dates purpose unit exclude ↔
      b ∈ inv.loadDepartureDayStayBlockers cat dates ∧ .segment b.orderId b.segmentId ∉ exclude ∧
        unit.all (affectsUnit cat b.roomId b.unitId) = true ∧ (purpose = .lodgingNights → inv.damaged b = true) := by
    cases purpose with
    | lodgingNights =>
      simp only [loadInventoryDepartureBlockers, List.mem_filter, Bool.and_eq_true, Bool.not_eq_true',
        List.contains_eq_mem, decide_eq_false_iff_not, true_imp_iff, and_assoc]
    | physicalUse => simp [loadInventoryDepartureBlockers]
  rw [hRead, hLoad]
  constructor
  · rintro ⟨⟨hToday, o, s, ho, hIn, hDeparts, hs, rfl⟩, hForeign, hAffects, hDamaged⟩
    exact ⟨hToday, o, s, ho, hIn, hDeparts, hs, rfl, hForeign, hAffects, hDamaged⟩
  · rintro ⟨hToday, o, s, ho, hIn, hDeparts, hs, rfl, hForeign, hAffects, hDamaged⟩
    exact ⟨⟨hToday, o, s, ho, hIn, hDeparts, hs, rfl⟩, hForeign, hAffects, hDamaged⟩

theorem stay_blocks (hDate : date ∈ dates) :
    (∃ b ∈ inv.loadInventoryDepartureBlockers cat dates purpose (some unitId) exclude, b.serviceDate = date) ↔
      ∃ o s, inv.StayBlocks cat unitId exclude purpose date o s := by
  constructor
  · rintro ⟨b, hb, hToday⟩
    obtain ⟨-, o, s, ho, hIn, hDeparts, hs, rfl, hForeign, hAffects, hDamaged⟩ := mem_departureBlockers.mp hb
    exact ⟨o, s, ho, hIn, hDeparts, hToday, hs, hForeign, by simpa using hAffects, hDamaged⟩
  · rintro ⟨o, s, h⟩
    refine ⟨inv.departureBlocker cat o s, mem_departureBlockers.mpr ?_, h.today⟩
    exact ⟨h.today ▸ hDate, o, s, h.mem, h.inHouse, h.departs, h.latest, rfl, h.foreign, by simpa using h.affects,
      h.damaged⟩

theorem mem_deferredBlockers (hDate : date ∈ dates) {b : InternalUseBlock} (hArrival : b.arrivalDate ≤ date)
    (hDeparture : date < b.departureDate) :
    b ∈ inv.loadDeferredUnavailableBlockers dates ↔ b ∈ inv.blocks ∧ b.active = true := by
  unfold loadDeferredUnavailableBlockers
  have hNe : dates ≠ [] := List.ne_nil_of_mem hDate
  cases hMin : dates.min? with
  | none => exact absurd (List.min?_eq_none_iff.mp hMin) hNe
  | some firstDate =>
    cases hMax : dates.max? with
    | none => exact absurd (List.max?_eq_none_iff.mp hMax) hNe
    | some lastDate =>
      have hFirst : firstDate ≤ date := (List.le_min?_iff hMin).mp (Nat.le_refl _) date hDate
      have hLast : date ≤ lastDate := (List.max?_le_iff hMax).mp (Nat.le_refl _) date hDate
      have hInside : b.arrivalDate ≤ lastDate ∧ firstDate < b.departureDate := by omega
      simp [hInside]

theorem range_blocks (hDate : date ∈ dates) :
    (∃ b ∈ inv.loadDeferredUnavailableBlockers dates, b.arrivalDate ≤ date ∧ date < b.departureDate ∧
      affectsUnit cat b.roomId b.unitId unitId = true) ↔ ∃ b, inv.RangeBlocks cat unitId date b := by
  constructor
  · rintro ⟨b, hb, hArrival, hDeparture, hAffects⟩
    obtain ⟨hMem, hActive⟩ := (mem_deferredBlockers hDate hArrival hDeparture).mp hb
    exact ⟨b, hMem, hActive, hArrival, hDeparture, hAffects⟩
  · rintro ⟨b, h⟩
    exact ⟨b, (mem_deferredBlockers hDate h.arrival h.departure).mpr ⟨h.mem, h.active⟩, h.arrival, h.departure,
      h.affects⟩

/-! ## The fingerprint -/

variable (cat inv unitId date exclude) in
theorem claim_blocks (hDates : serviceDates arrivalDate departureDate = dates) :
    (∃ c ∈ inv.tables.claims, c.active = true ∧ arrivalDate ≤ c.serviceDate ∧ c.serviceDate < departureDate ∧
      c.source ∉ exclude ∧ affectsUnit cat c.roomId c.unitId unitId = true ∧ c.serviceDate = date) ↔
      date ∈ dates ∧ ∃ c, inv.ClaimBlocks cat unitId exclude date c := by
  subst hDates
  rw [mem_serviceDates]
  constructor
  · rintro ⟨c, hc, hActive, hFrom, hUntil, hForeign, hAffects, rfl⟩
    exact ⟨⟨hFrom, hUntil⟩, c, hc, hActive, rfl, hForeign, hAffects⟩
  · rintro ⟨⟨hFrom, hUntil⟩, c, h⟩
    exact ⟨c, h.mem, h.active, h.date ▸ hFrom, h.date ▸ hUntil, h.foreign, h.affects, h.date⟩

theorem fingerprint_dates {entries : List FingerprintEntry}
    (h : inv.inventoryFingerprint cat unitId arrivalDate departureDate exclude purpose = .ok entries) :
    date ∈ entries.map FingerprintEntry.serviceDate ↔
      date ∈ serviceDates arrivalDate departureDate ∧ inv.NightBlocked cat unitId exclude purpose date := by
  simp only [inventoryFingerprint, bind_eq_ok, pure_eq_ok] at h
  obtain ⟨_, -, dates, hNights, rfl⟩ := h
  have hDates := (enumerateServiceDates_eq_ok.mp (nightsOf_eq_ok.mp hNights)).2.2
  rw [hDates, NightBlocked, and_or_left, and_or_left, ← claim_blocks cat inv unitId date exclude hDates]
  simp only [List.map_append, List.mem_append, or_assoc]
  refine or_congr ?_ (or_congr ?_ ?_)
  · simp only [List.mem_map, List.mem_filter, List.mem_mergeSort, Bool.and_eq_true, Bool.or_eq_true,
      decide_eq_true_eq, Bool.not_eq_true', List.contains_eq_mem, decide_eq_false_iff_not, affectsUnit_eq_true]
    constructor
    · rintro ⟨_, ⟨c, ⟨⟨hc, ⟨⟨⟨hRoom, hActive⟩, hFrom⟩, hUntil⟩, hForeign⟩, hAffects⟩, rfl⟩, hDate⟩
      rw [or_assoc, ← hRoom] at hAffects
      exact ⟨c, hc, hActive, hFrom, hUntil, hForeign, ⟨hRoom, hAffects⟩, hDate⟩
    · rintro ⟨c, hc, hActive, hFrom, hUntil, hForeign, ⟨hRoom, hAffects⟩, hDate⟩
      rw [← or_assoc, hRoom] at hAffects
      exact ⟨_, ⟨c, ⟨⟨hc, ⟨⟨⟨hRoom, hActive⟩, hFrom⟩, hUntil⟩, hForeign⟩, hAffects⟩, rfl⟩, hDate⟩
  · simp only [List.map_map, List.mem_map, Function.comp_apply]
    constructor
    · rintro ⟨b, hb, hDate⟩
      have hMem : date ∈ dates := by
        obtain ⟨hToday, o, s, -, -, -, -, rfl, -⟩ := mem_departureBlockers.mp hb
        exact hDate ▸ hToday
      exact ⟨hMem, (stay_blocks hMem).mp ⟨b, hb, hDate⟩⟩
    · rintro ⟨hMem, hStay⟩
      exact (stay_blocks hMem).mpr hStay
  · simp only [List.mem_map, List.mem_flatMap, List.mem_filter, Bool.and_eq_true, decide_eq_true_eq]
    constructor
    · rintro ⟨_, ⟨b, ⟨hb, hAffects⟩, d, ⟨hMem, hArrival, hDeparture⟩, rfl⟩, rfl⟩
      exact ⟨hMem, (range_blocks hMem).mp ⟨b, hb, hArrival, hDeparture, hAffects⟩⟩
    · rintro ⟨hMem, hRange⟩
      obtain ⟨b, hb, hArrival, hDeparture, hAffects⟩ := (range_blocks hMem).mpr hRange
      exact ⟨_, ⟨b, ⟨hb, hAffects⟩, date, ⟨hMem, hArrival, hDeparture⟩, rfl⟩, rfl⟩

theorem fingerprint_eq_nil {entries : List FingerprintEntry}
    (h : inv.inventoryFingerprint cat unitId arrivalDate departureDate exclude purpose = .ok entries) :
    entries = [] ↔ ∀ date ∈ serviceDates arrivalDate departureDate,
      ¬ inv.NightBlocked cat unitId exclude purpose date := by
  constructor
  · rintro rfl date hDate hBlocked
    exact absurd ((fingerprint_dates h).mpr ⟨hDate, hBlocked⟩) (List.not_mem_nil)
  · intro hFree
    rw [← List.map_eq_nil_iff (f := FingerprintEntry.serviceDate), List.eq_nil_iff_forall_not_mem]
    intro date hDate
    obtain ⟨hMem, hBlocked⟩ := (fingerprint_dates h).mp hDate
    exact hFree date hMem hBlocked

/-! ## The list -/

theorem latestSegment_mem {o : OrderRow} {s : StaySegment} (h : o.latestSegment = some s) : s ∈ o.segments := by
  have hKeep : ∀ (latest : Option StaySegment), (∀ l ∈ latest, l ∈ o.segments) → ∀ xs ⊆ o.segments,
      ∀ l ∈ xs.foldl (fun latest s => if latest.any fun l => s.sequence ≤ l.sequence then latest else some s) latest,
        l ∈ o.segments := by
    intro latest hLatest xs hxs
    induction xs generalizing latest with
    | nil => exact hLatest
    | cons x xs ih =>
      obtain ⟨hx, hRest⟩ := List.cons_subset.mp hxs
      rw [List.foldl_cons]
      refine ih _ ?_ hRest
      split
      · exact hLatest
      · rintro l ⟨⟩
        exact hx
  exact hKeep none (by simp) o.segments (List.Subset.refl _) s h

theorem order_of_excluded {excludeOrderId : Option Nat} {given : InventoryPurpose} {o : OrderRow}
    {s : StaySegment} (h : inv.excludedOrder excludeOrderId given = .ok (exclude, purpose)) (ho : o ∈ inv.orders)
    (hs : s ∈ o.segments) (hForeign : .segment o.id s.id ∉ exclude) : some o.id ≠ excludeOrderId := by
  rintro rfl
  simp only [excludedOrder, bind_eq_ok, expect_eq_ok, pure_eq_ok, Prod.mk.injEq] at h
  obtain ⟨found, hFind, rfl, -⟩ := h
  have hSame : found = o :=
    List.inj_on_of_nodup_map inv.order_keys (List.mem_of_find?_eq_some hFind) ho (by simpa using List.find?_some hFind)
  rw [hSame] at hForeign
  exact hForeign (List.mem_map.mpr ⟨s, hs, rfl⟩)

theorem availabilityNight_available {excludeOrderId : Option Nat} {given : InventoryPurpose}
    (hExcluded : inv.excludedOrder excludeOrderId given = .ok (exclude, purpose))
    (hDates : serviceDates arrivalDate departureDate = dates) (hDate : date ∈ dates) :
    (availabilityNight cat (inv.tables.claims.filter fun c =>
        c.active && arrivalDate ≤ c.serviceDate && c.serviceDate < departureDate)
      (inv.loadInventoryDepartureBlockers cat dates purpose none exclude)
      (inv.loadDeferredUnavailableBlockers dates) exclude excludeOrderId unitId date).available = true ↔
      ¬ inv.NightBlocked cat unitId exclude purpose date := by
  have hClaims := claim_blocks cat inv unitId date exclude hDates
  simp only [hDate, true_and] at hClaims
  rw [NightBlocked, ← hClaims, ← stay_blocks hDate, ← range_blocks hDate, not_or, not_or]
  simp only [availabilityNight, Bool.and_eq_true, List.isEmpty_iff, List.filter_eq_nil_iff, and_assoc]
  refine and_congr ?_ (and_congr ?_ ?_)
  · simp only [List.mem_filter]
    grind
  · constructor
    · rintro hFree ⟨b, hb, hToday⟩
      obtain ⟨hMem, o, s, ho, hIn, hDeparts, hs, rfl, hForeign, hAffects, hDamaged⟩ := mem_departureBlockers.mp hb
      have hOther := order_of_excluded hExcluded ho (latestSegment_mem hs) hForeign
      refine hFree _ (mem_departureBlockers.mpr
        ⟨hMem, o, s, ho, hIn, hDeparts, hs, rfl, hForeign, rfl, hDamaged⟩) ?_
      exact ⟨decide_eq_true hOther, decide_eq_true hToday, hAffects⟩
    · intro hFree b hb hBlocks
      obtain ⟨hMem, o, s, ho, hIn, hDeparts, hs, rfl, hForeign, -, hDamaged⟩ := mem_departureBlockers.mp hb
      refine hFree ⟨_, mem_departureBlockers.mpr
        ⟨hMem, o, s, ho, hIn, hDeparts, hs, rfl, hForeign, ?_, hDamaged⟩, of_decide_eq_true hBlocks.2.1⟩
      exact hBlocks.2.2
  · simp only [not_exists, not_and, decide_eq_true_eq]

/-! ## The assertion -/

end PropertyInventory

namespace PointersExact

variable {cat : UnitCatalog} {t : InventoryTables} {date : Nat}

theorem claim?_of_ids (h : PointersExact cat t) {unitId : Nat} {pointer : Option Nat}
    (hIds : (t.activeOn unitId date).map Claim.id = pointer.toList) :
    (pointer.bind t.claim?).toList = t.activeOn unitId date := by
  cases pointer with
  | none => exact (List.map_eq_nil_iff.mp hIds).symm
  | some id =>
    obtain ⟨c, hc, rfl⟩ := List.map_eq_singleton_iff.mp hIds
    have hMem : c ∈ t.claims := (mem_activeOn.mp (hc ▸ List.mem_singleton_self c)).1
    rw [hc, Option.bind_some, h.claim?_eq hMem]
    rfl

theorem whole_free (h : PointersExact cat t) {roomId : Nat} (hKind : cat.kind roomId = .room)
    (exclude : List ClaimSource) :
    ((t.wholePointer roomId date).bind t.claim?).all (fun c => exclude.contains c.source) = true ↔
      ∀ c ∈ t.activeOn roomId date, c.source ∈ exclude := by
  rw [← h.claim?_of_ids (h.whole roomId date hKind)]
  cases (t.wholePointer roomId date).bind t.claim? <;> simp

theorem bed_occupied (h : PointersExact cat t) {bedId : Nat} (hKind : cat.kind bedId = .bed)
    (exclude : List ClaimSource) :
    ((t.bedPointer bedId date).bind t.claim?).any (fun c => c.active && !exclude.contains c.source) = false ↔
      ∀ c ∈ t.activeOn bedId date, c.source ∈ exclude := by
  have hIds := h.claim?_of_ids (h.beds bedId date hKind)
  have hActive : ∀ c ∈ t.activeOn bedId date, c.active = true := fun c hc => (mem_activeOn.mp hc).2.1
  rw [← hIds] at hActive ⊢
  cases hClaim : (t.bedPointer bedId date).bind t.claim? with
  | none => simp
  | some c => simp [hActive c (by simp [hClaim])]

theorem bedFree_eq_true (h : PointersExact cat t) {bedId : Nat} (hKind : cat.kind bedId = .bed)
    (exclude : List ClaimSource) :
    bedFree t bedId exclude date = true ↔ ∀ c ∈ t.activeOn bedId date, c.source ∈ exclude := by
  have hJoin : (t.bedClaimId bedId date).join = t.bedPointer bedId date := rfl
  rw [bedFree, hJoin]
  cases hPointer : t.bedPointer bedId date with
  | none =>
    have hIds := h.beds bedId date hKind
    rw [hPointer] at hIds
    simp [List.map_eq_nil_iff.mp hIds]
  | some id =>
    obtain ⟨c, hFound, hc⟩ := h.bed_claim hKind hPointer
    rw [← h.claim?_of_ids (h.beds bedId date hKind), hPointer]
    simp [hFound]

end PointersExact

/-- A night passes when no other table blocks it and every claim that touches the unit is excluded. -/
theorem PointersExact.night_ok {cat : UnitCatalog} {t : InventoryTables} (h : PointersExact cat t)
    {blockers : UnitBlockers} {unitId date : Nat} {exclude : List ClaimSource}
    (hRow : t.wholeClaimId (cat.roomId unitId) date ≠ none) :
    assertNightAvailable cat blockers t unitId exclude date = .ok () ↔
      blockers.awaitingDeparture date = false ∧ blockers.deferredUnavailable date = false ∧
        ∀ c ∈ t.claims, c.active = true → c.serviceDate = date → affectsUnit cat c.roomId c.unitId unitId = true →
          c.source ∈ exclude := by
  obtain ⟨pointer, hPointer⟩ := Option.ne_none_iff_exists'.mp hRow
  have hJoin : pointer = t.wholePointer (cat.roomId unitId) date := by
    simp [InventoryTables.wholePointer, hPointer]
  simp only [assertNightAvailable, bind_eq_ok, require_eq_ok, expect_eq_ok, hPointer, Option.some.injEq,
    exists_eq_left', exists_and_left, exists_const]
  refine and_congr_right fun _ => and_congr_right fun _ => ?_
  rw [hJoin, h.whole_free (cat.kind_roomId unitId)]
  cases hKind : cat.kind unitId with
  | room =>
    have hRoom := cat.roomId_of_room hKind
    simp only [hRoom, require_eq_ok, occupiedBeds, List.filter_eq_nil_iff, Bool.and_eq_true, decide_eq_true_eq,
      not_and, Bool.not_eq_true, affectsUnit_eq_true, hKind, true_or, and_true]
    constructor
    · rintro ⟨hWhole, hBeds⟩ c hc hActive hDate hSame
      have hUnit := h.room c hc
      cases hClaimed : cat.kind c.unitId with
      | room =>
        rw [cat.roomId_of_room hClaimed, hSame] at hUnit
        exact hWhole c (mem_activeOn.mpr ⟨hc, hActive, hUnit.symm, hDate⟩)
      | bed =>
        have hFree := hBeds c.unitId ((cat.mem_beds _).mpr hClaimed) (hUnit.symm.trans hSame)
        exact (h.bed_occupied hClaimed exclude).mp hFree c (mem_activeOn.mpr ⟨hc, hActive, rfl, hDate⟩)
    · intro hFree
      refine ⟨fun c hc => ?_, fun b hb hParent => (h.bed_occupied ((cat.mem_beds b).mp hb) exclude).mpr fun c hc => ?_⟩
      · obtain ⟨hMem, hActive, hUnit, hDate⟩ := mem_activeOn.mp hc
        exact hFree c hMem hActive hDate (by rw [h.room c hMem, hUnit, hRoom])
      · obtain ⟨hMem, hActive, hUnit, hDate⟩ := mem_activeOn.mp hc
        exact hFree c hMem hActive hDate (by rw [h.room c hMem, hUnit, hParent])
  | bed =>
    simp only [require_eq_ok, h.bedFree_eq_true hKind, affectsUnit_eq_true, hKind, reduceCtorEq, false_or]
    constructor
    · rintro ⟨hWhole, hBed⟩ c hc hActive hDate ⟨hSame, hUnit | hUnit⟩
      · exact hWhole c (mem_activeOn.mpr ⟨hc, hActive, hUnit.trans hSame, hDate⟩)
      · exact hBed c (mem_activeOn.mpr ⟨hc, hActive, hUnit, hDate⟩)
    · intro hFree
      refine ⟨fun c hc => ?_, fun c hc => ?_⟩
      · obtain ⟨hMem, hActive, hUnit, hDate⟩ := mem_activeOn.mp hc
        have hSame : c.roomId = cat.roomId unitId := by
          rw [h.room c hMem, hUnit, cat.roomId_of_room (cat.kind_roomId unitId)]
        exact hFree c hMem hActive hDate ⟨hSame, .inl (hUnit.trans hSame.symm)⟩
      · obtain ⟨hMem, hActive, hUnit, hDate⟩ := mem_activeOn.mp hc
        exact hFree c hMem hActive hDate ⟨by rw [h.room c hMem, hUnit], .inr hUnit⟩

namespace PropertyInventory

variable {cat : UnitCatalog} {inv : PropertyInventory} {unitId arrivalDate departureDate : Nat} {dates : List Nat}
  {exclude : List ClaimSource} {purpose : InventoryPurpose}

theorem wholeClaimId_lock {t : InventoryTables} {r date : Nat} (rows : List Nat) (roomId : Nat)
    (h : t.wholeClaimId r date ≠ none) :
    ((inventoryAccess cat).applyAll (rows.map (.insertRoomDay roomId)) t).wholeClaimId r date ≠ none := by
  induction rows generalizing t with
  | nil => exact h
  | cons d rows ih =>
    refine ih (t := (InventoryWrite.insertRoomDay roomId d).apply t) ?_
    simp only [InventoryWrite.apply, setRow]
    split
    · simp
    · exact h

variable (cat) in
theorem lockUnitDates_spec (inv : PropertyInventory) (unitId : Nat) (dates : List Nat) :
    (inv.lockUnitDates cat unitId dates).claims = inv.tables.claims ∧
      (inv.lockUnitDates cat unitId dates).bedClaimId = inv.tables.bedClaimId ∧
      (∀ r date, (inv.lockUnitDates cat unitId dates).wholePointer r date = inv.tables.wholePointer r date) ∧
      ∀ date ∈ dates, (inv.lockUnitDates cat unitId dates).wholeClaimId (cat.roomId unitId) date ≠ none := by
  unfold lockUnitDates
  generalize inv.tables = t
  induction dates generalizing t with
  | nil => exact ⟨rfl, rfl, fun _ _ => rfl, fun _ h => absurd h List.not_mem_nil⟩
  | cons d dates ih =>
    obtain ⟨hClaims, hBeds, hWhole, hRows⟩ := ih ((InventoryWrite.insertRoomDay (cat.roomId unitId) d).apply t)
    refine ⟨hClaims, hBeds, fun r date => (hWhole r date).trans (join_setRow_or _ _ _ _ _), ?_⟩
    intro date hDate
    obtain rfl | hDate := List.mem_cons.mp hDate
    · exact wholeClaimId_lock dates _ (setRow_or_ne_none _ _ _)
    · exact hRows date hDate

theorem lockUnitDates_exact (h : PointersExact cat inv.tables) :
    PointersExact cat (inv.lockUnitDates cat unitId dates) := by
  obtain ⟨hClaims, hBeds, hWhole, -⟩ := lockUnitDates_spec cat inv unitId dates
  have hActive : ∀ u date, (inv.lockUnitDates cat unitId dates).activeOn u date = inv.tables.activeOn u date := by
    intro u date
    simp only [InventoryTables.activeOn, hClaims]
  constructor
  · rw [hClaims]
    exact h.room
  · rw [hClaims]
    exact h.keys
  · intro r date hKind
    rw [hActive, hWhole, h.whole r date hKind]
  · intro b date hKind
    rw [hActive, InventoryTables.bedPointer, hBeds]
    exact h.beds b date hKind

theorem assertUnitAvailable_ok (h : PointersExact cat inv.tables)
    (hDates : serviceDates arrivalDate departureDate = dates)
    (hOwn : ∀ s ∈ exclude, s.type = .orderSegment) :
    inv.assertUnitAvailable cat unitId dates exclude purpose = .ok () ↔
      ∀ date ∈ dates, ¬ inv.NightBlocked cat unitId exclude purpose date := by
  obtain ⟨hClaims, -, -, hRows⟩ := lockUnitDates_spec cat inv unitId dates
  rw [assertUnitAvailable, GreenPms.assertUnitAvailable, checkAll_eq_ok]
  refine forall₂_congr fun date hDate => ?_
  have hBlocks := claim_blocks cat inv unitId date exclude hDates
  simp only [hDate, true_and] at hBlocks
  rw [(lockUnitDates_exact h).night_ok (hRows date hDate), hClaims, NightBlocked, ← hBlocks, ← stay_blocks hDate,
    ← range_blocks hDate, not_or, not_or]
  have hStays : (inv.unitBlockers cat unitId exclude purpose dates).awaitingDeparture date = false ↔
      ¬ ∃ b ∈ inv.loadInventoryDepartureBlockers cat dates purpose (some unitId) exclude, b.serviceDate = date := by
    simp [unitBlockers]
  have hRanges : (inv.unitBlockers cat unitId exclude purpose dates).deferredUnavailable date = false ↔
      ¬ ∃ b ∈ inv.loadDeferredUnavailableBlockers dates, b.arrivalDate ≤ date ∧ date < b.departureDate ∧
        affectsUnit cat b.roomId b.unitId unitId = true := by
    have hKept : ∀ b : InternalUseBlock, ClaimSource.internalUse b.id ∉ exclude := by
      intro b hb
      cases hOwn _ hb
    simp only [unitBlockers, List.any_eq_false, List.mem_filter, Bool.and_eq_true, Bool.not_eq_true',
      List.contains_eq_mem, decide_eq_false_iff_not, decide_eq_true_eq]
    constructor
    · rintro hFree ⟨b, hb, hArrival, hDeparture, hAffects⟩
      exact hFree b ⟨hb, hKept b, hAffects⟩ ⟨hArrival, hDeparture⟩
    · rintro hFree b ⟨hb, -, hAffects⟩ ⟨hArrival, hDeparture⟩
      exact hFree ⟨b, hb, hArrival, hDeparture, hAffects⟩
  rw [hStays, hRanges]
  constructor
  · rintro ⟨hStay, hRange, hFree⟩
    refine ⟨?_, hStay, hRange⟩
    rintro ⟨c, hc, hActive, -, -, hForeign, hAffects, hNight⟩
    exact hForeign (hFree c hc hActive hNight hAffects)
  · rintro ⟨hClaim, hStay, hRange⟩
    refine ⟨hStay, hRange, fun c hc hActive hNight hAffects => ?_⟩
    by_contra hForeign
    obtain ⟨hFrom, hUntil⟩ := mem_serviceDates.mp (hDates ▸ hNight ▸ hDate)
    exact hClaim ⟨c, hc, hActive, hFrom, hUntil, hForeign, hAffects, hNight⟩

/-! ## Agreement -/

/-- The segments to leave out: none, or those of one order of the property. -/
def ownSources (own : Option OrderRow) : List ClaimSource := (own.map OrderRow.sources).getD []

/-- The purpose of a reading for an order: a stay in house is always read for physical use. -/
def ownPurpose (own : Option OrderRow) (purpose : InventoryPurpose) : InventoryPurpose :=
  if own.any OrderRow.checkedIn then .physicalUse else purpose

theorem excludedOrder_own {own : Option OrderRow} (hOwn : ∀ o ∈ own, o ∈ inv.orders) (given : InventoryPurpose) :
    inv.excludedOrder (own.map OrderRow.id) given = .ok (ownSources own, ownPurpose own given) := by
  cases own with
  | none => rfl
  | some o =>
    have ho : o ∈ inv.orders := hOwn o rfl
    have hFind : inv.orders.find? (fun x => decide (x.id = o.id)) = some o := by
      cases hFound : inv.orders.find? fun x => decide (x.id = o.id) with
      | none => simpa using List.find?_eq_none.mp hFound o ho
      | some x =>
        have hSame : x.id = o.id := by simpa using List.find?_some hFound
        rw [List.inj_on_of_nodup_map inv.order_keys (List.mem_of_find?_eq_some hFound) ho hSame]
    simp [excludedOrder, ownSources, ownPurpose, hFind]

theorem ownSources_segments (own : Option OrderRow) : ∀ s ∈ ownSources own, s.type = .orderSegment := by
  cases own with
  | none => simp [ownSources]
  | some o => simp [ownSources, OrderRow.sources, ClaimSource.type]

theorem fingerprint_returns (hUnit : unitId ∈ inv.units) (hSellable : inv.sellable cat unitId = true)
    (hNights : enumerateServiceDates arrivalDate departureDate = .ok dates) (exclude : List ClaimSource)
    (purpose : InventoryPurpose) :
    ∃ entries, inv.inventoryFingerprint cat unitId arrivalDate departureDate exclude purpose = .ok entries := by
  simp [inventoryFingerprint, hUnit, hSellable, nightsOf_eq_ok.mpr hNights]

theorem listAvailability_returns {kind : Option InventoryUnitKind} {excludeOrderId : Option Nat}
    {given : InventoryPurpose} (hUnit : unitId ∈ inv.units) (hSellable : inv.sellable cat unitId = true)
    (hNights : enumerateServiceDates arrivalDate departureDate = .ok dates)
    (hKind : kind.all (· = cat.kind unitId) = true)
    (hExcluded : inv.excludedOrder excludeOrderId given = .ok (exclude, purpose)) :
    ∃ rows, inv.listAvailability cat arrivalDate departureDate kind excludeOrderId given = .ok rows ∧
      (∃ row ∈ rows, row.unitId = unitId) ∧ ∀ row ∈ rows, row.unitId = unitId →
        row.nights.map AvailabilityNight.serviceDate = dates ∧
        row.available = row.nights.all AvailabilityNight.available ∧
        ∀ night ∈ row.nights, night.available = true ↔
          ¬ inv.NightBlocked cat unitId exclude purpose night.serviceDate := by
  have hDates := (enumerateServiceDates_eq_ok.mp hNights).2.2
  simp only [listAvailability, nightsOf_eq_ok.mpr hNights, hExcluded]
  refine ⟨_, rfl, ⟨_, List.mem_map.mpr ⟨unitId, ?_, rfl⟩, rfl⟩, ?_⟩
  · simpa [hUnit, hSellable] using hKind
  · rintro row hRow hSame
    obtain ⟨u, -, rfl⟩ := List.mem_map.mp hRow
    obtain rfl : u = unitId := hSame
    refine ⟨?_, rfl, ?_⟩
    · rw [List.map_map]
      exact List.map_id _
    · rintro night hNight
      obtain ⟨date, hDate, rfl⟩ := List.mem_map.mp hNight
      exact availabilityNight_available hExcluded hDates hDate

/-- For every unit on sale and all nights, with the segments of an order left out or none: the list,
the fingerprint and the assertion agree. With any segments left out, the last two do. -/
theorem availability_readers_agree {cat : UnitCatalog} {inv : PropertyInventory}
    (hPointers : PointersExact cat inv.tables) {unitId arrivalDate departureDate : Nat} (hUnit : unitId ∈ inv.units)
    (hSellable : inv.sellable cat unitId = true) {dates : List Nat}
    (hNights : enumerateServiceDates arrivalDate departureDate = .ok dates) :
    (∀ (own : Option OrderRow) (purpose : InventoryPurpose) (kind : Option InventoryUnitKind),
      (∀ o ∈ own, o ∈ inv.orders) → kind.all (· = cat.kind unitId) = true →
      ∃ rows entries,
        inv.listAvailability cat arrivalDate departureDate kind (own.map OrderRow.id) purpose = .ok rows ∧
        inv.inventoryFingerprint cat unitId arrivalDate departureDate (ownSources own) (ownPurpose own purpose) =
          .ok entries ∧
        (entries = [] ↔ inv.assertUnitAvailable cat unitId dates (ownSources own) (ownPurpose own purpose) = .ok ()) ∧
        (∃ row ∈ rows, row.unitId = unitId) ∧
        ∀ row ∈ rows, row.unitId = unitId → (row.available = true ↔ entries = []) ∧
          ∀ date, (∃ night ∈ row.nights, night.serviceDate = date ∧ night.available = false) ↔
            date ∈ entries.map FingerprintEntry.serviceDate) ∧
    ∀ (exclude : List ClaimSource) (purpose : InventoryPurpose), (∀ s ∈ exclude, s.type = .orderSegment) →
      ∃ entries,
        inv.inventoryFingerprint cat unitId arrivalDate departureDate exclude purpose = .ok entries ∧
        (entries = [] ↔ inv.assertUnitAvailable cat unitId dates exclude purpose = .ok ()) := by
  have hDates := (enumerateServiceDates_eq_ok.mp hNights).2.2
  have hPair : ∀ (exclude : List ClaimSource) (purpose : InventoryPurpose),
      (∀ s ∈ exclude, s.type = .orderSegment) → ∃ entries,
        inv.inventoryFingerprint cat unitId arrivalDate departureDate exclude purpose = .ok entries ∧
        (entries = [] ↔ inv.assertUnitAvailable cat unitId dates exclude purpose = .ok ()) := by
    intro exclude purpose hOwn
    obtain ⟨entries, hEntries⟩ := fingerprint_returns hUnit hSellable hNights exclude purpose
    refine ⟨entries, hEntries, ?_⟩
    rw [fingerprint_eq_nil hEntries, hDates, assertUnitAvailable_ok hPointers hDates hOwn]
  refine ⟨fun own purpose kind hOwn hKind => ?_, hPair⟩
  obtain ⟨entries, hEntries, hAssert⟩ := hPair _ (ownPurpose own purpose) (ownSources_segments own)
  obtain ⟨rows, hRows, hSome, hAll⟩ :=
    listAvailability_returns hUnit hSellable hNights hKind (excludedOrder_own hOwn purpose)
  refine ⟨rows, entries, hRows, hEntries, hAssert, hSome, fun row hRow hSame => ?_⟩
  obtain ⟨hList, hAvailable, hNight⟩ := hAll row hRow hSame
  have hMem : ∀ date, date ∈ dates ↔ ∃ night ∈ row.nights, night.serviceDate = date := by
    intro date
    rw [← hList, List.mem_map]
  constructor
  · rw [hAvailable, List.all_eq_true, fingerprint_eq_nil hEntries, hDates]
    constructor
    · intro hFree date hDate
      obtain ⟨night, hIn, rfl⟩ := (hMem date).mp hDate
      exact (hNight night hIn).mp (hFree night hIn)
    · intro hFree night hIn
      exact (hNight night hIn).mpr (hFree _ ((hMem _).mpr ⟨night, hIn, rfl⟩))
  · intro date
    rw [fingerprint_dates hEntries, hDates]
    constructor
    · rintro ⟨night, hIn, rfl, hTaken⟩
      refine ⟨(hMem _).mpr ⟨night, hIn, rfl⟩, ?_⟩
      by_contra hFree
      rw [(hNight night hIn).mpr hFree] at hTaken
      cases hTaken
    · rintro ⟨hDate, hBlocked⟩
      obtain ⟨night, hIn, rfl⟩ := (hMem date).mp hDate
      refine ⟨night, hIn, rfl, ?_⟩
      cases hFree : night.available with
      | false => rfl
      | true => exact absurd hBlocked ((hNight night hIn).mp hFree)

/-! ## A stay in house beside one that departs today -/

def sampleRooms : UnitCatalog where
  kind _ := .room
  parentRoomId := id
  beds := []
  mem_beds := by simp
  parentRoom_kind := by simp

/-- The first order stays in room 2 tonight; the second departs today from room 1. -/
def sampleInHouse : PropertyInventory where
  tables := { InventoryTables.empty with
    claims := [⟨1, 2, 2, 10, .segment 1 11, true⟩]
    wholeClaimId := fun r date => if r = 2 ∧ date = 10 then some (some 1) else none }
  units := [1, 2]
  active _ := true
  orders := [⟨1, 1, 11, true, [⟨11, 1, 2⟩]⟩, ⟨2, 2, 10, true, [⟨21, 1, 1⟩]⟩]
  order_keys := by decide
  blocks := []
  businessDate := 10
  damaged _ := false

theorem sampleInHouse_exact : PointersExact sampleRooms sampleInHouse.tables := by
  constructor
  · simp [sampleInHouse, sampleRooms, UnitCatalog.roomId]
  · simp [sampleInHouse]
  · intro r date _
    by_cases h : r = 2 ∧ date = 10
    · simp [sampleInHouse, InventoryTables.activeOn, InventoryTables.wholePointer, h]
    · have hNot : ¬ (2 = r ∧ 10 = date) := fun hEq => h ⟨hEq.1.symm, hEq.2.symm⟩
      simp [sampleInHouse, InventoryTables.activeOn, InventoryTables.wholePointer, h, hNot]
  · simp [sampleRooms]

/-- With lodging nights as the purpose of all three, the list blocks the room that the second order
leaves today and the other two do not: the list reads a stay in house for physical use. -/
theorem lodging_purpose_splits_readers :
    PointersExact sampleRooms sampleInHouse.tables ∧ 1 ∈ sampleInHouse.units ∧
      sampleInHouse.sellable sampleRooms 1 = true ∧ enumerateServiceDates 10 11 = .ok [10] ∧
      (∃ rows, sampleInHouse.listAvailability sampleRooms 10 11 none (some 1) .lodgingNights = .ok rows ∧
        rows.map (fun row => (row.unitId, row.available)) = [(1, false), (2, true)]) ∧
      sampleInHouse.inventoryFingerprint sampleRooms 1 10 11 [.segment 1 11] .lodgingNights = .ok [] ∧
      sampleInHouse.assertUnitAvailable sampleRooms 1 [10] [.segment 1 11] .lodgingNights = .ok () := by
  have hFingerprint : sampleInHouse.inventoryFingerprint sampleRooms 1 10 11 [.segment 1 11] .lodgingNights =
      .ok [] := by
    have hNights : nightsOf 10 11 = .ok [10] := rfl
    have hStays : sampleInHouse.loadInventoryDepartureBlockers sampleRooms [10] .lodgingNights (some 1)
        [.segment 1 11] = [] := rfl
    have hUnit : 1 ∈ sampleInHouse.units ∧ sampleInHouse.sellable sampleRooms 1 = true := ⟨by decide, rfl⟩
    simp [inventoryFingerprint, hNights, hStays, hUnit, loadDeferredUnavailableBlockers]
    simp [sampleInHouse, sampleRooms, UnitCatalog.roomId]
  exact ⟨sampleInHouse_exact, by decide, rfl, rfl, ⟨_, rfl, by decide⟩, hFingerprint, rfl⟩

theorem availability_readers_agree_sample :
    ∃ rows entries,
      sampleInHouse.listAvailability sampleRooms 10 11 (some .room) (some 1) .lodgingNights = .ok rows ∧
      sampleInHouse.inventoryFingerprint sampleRooms 1 10 11 [.segment 1 11] .physicalUse = .ok entries ∧
      (entries = [] ↔ sampleInHouse.assertUnitAvailable sampleRooms 1 [10] [.segment 1 11] .physicalUse = .ok ()) ∧
      (∃ row ∈ rows, row.unitId = 1) ∧
      ∀ row ∈ rows, row.unitId = 1 → (row.available = true ↔ entries = []) ∧
        ∀ date, (∃ night ∈ row.nights, night.serviceDate = date ∧ night.available = false) ↔
          date ∈ entries.map FingerprintEntry.serviceDate :=
  (availability_readers_agree sampleInHouse_exact (by decide : 1 ∈ sampleInHouse.units) rfl
    (rfl : enumerateServiceDates 10 11 = .ok [10])).1 (some ⟨1, 1, 11, true, [⟨11, 1, 2⟩]⟩) .lodgingNights
    (some .room) (by simp [sampleInHouse]) rfl

end PropertyInventory

end GreenPms
