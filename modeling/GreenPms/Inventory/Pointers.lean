import GreenPms.Inventory.Programs

/-! # Pointers and active claims

The pointer of a room or bed on a date is exactly its active claim, and a claimed room has no
claimed bed. Claiming a vacant night and releasing an active claim keep this, and a release
always finds the pointer it expects.
-/

namespace GreenPms

open Checked

def InventoryTables.activeOn (t : InventoryTables) (unitId date : Nat) : List Claim :=
  t.claims.filter fun c => c.active && c.unitId = unitId && c.serviceDate = date

def InventoryTables.wholePointer (t : InventoryTables) (roomId date : Nat) : Option Nat :=
  (t.wholeClaimId roomId date).join

def InventoryTables.bedPointer (t : InventoryTables) (bedId date : Nat) : Option Nat :=
  (t.bedClaimId bedId date).join

structure PointersExact (cat : UnitCatalog) (t : InventoryTables) : Prop where
  room : ∀ c ∈ t.claims, c.roomId = cat.roomId c.unitId
  keys : (t.claims.map Claim.id).Nodup
  whole : ∀ r date, cat.kind r = .room → (t.activeOn r date).map Claim.id = (t.wholePointer r date).toList
  beds : ∀ b date, cat.kind b = .bed → (t.activeOn b date).map Claim.id = (t.bedPointer b date).toList

structure PointersOk (cat : UnitCatalog) (t : InventoryTables) : Prop where
  room : ∀ c ∈ t.claims, c.roomId = cat.roomId c.unitId
  keys : (t.claims.map Claim.id).Nodup
  whole : ∀ r date, cat.kind r = .room → (t.activeOn r date).map Claim.id = (t.wholePointer r date).toList
  beds : ∀ b date, cat.kind b = .bed → (t.activeOn b date).map Claim.id = (t.bedPointer b date).toList
  exclusive : ∀ b date, cat.kind b = .bed → t.wholePointer (cat.roomId b) date ≠ none →
    t.bedPointer b date = none

theorem PointersOk.exact {cat : UnitCatalog} {t : InventoryTables} (h : PointersOk cat t) : PointersExact cat t :=
  ⟨h.room, h.keys, h.whole, h.beds⟩

/-- Nothing occupies the unit on the date, and the room day exists. -/
structure Vacant (cat : UnitCatalog) (t : InventoryTables) (unitId date : Nat) : Prop where
  row : t.wholeClaimId (cat.roomId unitId) date ≠ none
  whole : t.wholePointer (cat.roomId unitId) date = none
  beds : cat.kind unitId = .room → ∀ b, cat.kind b = .bed → cat.roomId b = unitId → t.bedPointer b date = none
  bed : cat.kind unitId = .bed → t.bedPointer unitId date = none

variable {cat : UnitCatalog} {t : InventoryTables}

theorem mem_activeOn {unitId date : Nat} {c : Claim} :
    c ∈ t.activeOn unitId date ↔ c ∈ t.claims ∧ c.active = true ∧ c.unitId = unitId ∧ c.serviceDate = date := by
  simp [InventoryTables.activeOn, and_assoc]

namespace PointersExact

theorem claim?_eq (h : PointersExact cat t) {c : Claim} (hc : c ∈ t.claims) : t.claim? c.id = some c := by
  unfold InventoryTables.claim?
  cases hFind : t.claims.find? fun x => x.id = c.id with
  | none => simpa using List.find?_eq_none.mp hFind c hc
  | some x =>
    have hId : x.id = c.id := by simpa using List.find?_some hFind
    rw [List.inj_on_of_nodup_map h.keys (List.mem_of_find?_eq_some hFind) hc hId]

theorem claims_nodup (h : PointersExact cat t) : t.claims.Nodup := h.keys.of_map _

theorem whole_claim (h : PointersExact cat t) {r date id : Nat} (hKind : cat.kind r = .room)
    (hPointer : t.wholePointer r date = some id) : ∃ c, t.claim? id = some c ∧ c ∈ t.activeOn r date := by
  have hIds := h.whole r date hKind
  rw [hPointer] at hIds
  have hMem : id ∈ (t.activeOn r date).map Claim.id := by simp [hIds]
  obtain ⟨c, hc, rfl⟩ := List.mem_map.mp hMem
  exact ⟨c, h.claim?_eq (mem_activeOn.mp hc).1, hc⟩

theorem bed_claim (h : PointersExact cat t) {b date id : Nat} (hKind : cat.kind b = .bed)
    (hPointer : t.bedPointer b date = some id) : ∃ c, t.claim? id = some c ∧ c ∈ t.activeOn b date := by
  have hIds := h.beds b date hKind
  rw [hPointer] at hIds
  have hMem : id ∈ (t.activeOn b date).map Claim.id := by simp [hIds]
  obtain ⟨c, hc, rfl⟩ := List.mem_map.mp hMem
  exact ⟨c, h.claim?_eq (mem_activeOn.mp hc).1, hc⟩

end PointersExact

/-! ## The availability check -/

def ExcludedElsewhere (t : InventoryTables) (exclude : List ClaimSource) (date : Nat) : Prop :=
  ∀ c ∈ t.claims, c.active = true → c.source ∈ exclude → c.serviceDate ≠ date

theorem assertNightAvailable_vacant {blockers : UnitBlockers} {unitId date : Nat}
    {exclude : List ClaimSource} (hOk : PointersOk cat t) (hExclude : ExcludedElsewhere t exclude date)
    (h : assertNightAvailable cat blockers t unitId exclude date = .ok ()) : Vacant cat t unitId date := by
  simp only [assertNightAvailable, bind_eq_ok, require_eq_ok, expect_eq_ok] at h
  obtain ⟨-, -, -, -, pointer, hRow, -, hWhole, hKind⟩ := h
  have hForeign : ∀ c u, c ∈ t.activeOn u date → exclude.contains c.source = false := by
    intro c u hc
    obtain ⟨hMem, hActive, -, hDate⟩ := mem_activeOn.mp hc
    by_contra hSource
    rw [Bool.not_eq_false] at hSource
    exact hExclude c hMem hActive (by simpa using hSource) hDate
  have hNone : t.wholePointer (cat.roomId unitId) date = none := by
    cases hPointer : t.wholePointer (cat.roomId unitId) date with
    | none => rfl
    | some id =>
      obtain ⟨c, hFound, hc⟩ := hOk.exact.whole_claim (cat.kind_roomId unitId) hPointer
      have hEq : pointer = some id := by simpa [InventoryTables.wholePointer, hRow] using hPointer
      simp only [hEq, Option.bind_some, hFound, Option.all_some, hForeign c _ hc] at hWhole
      cases hWhole
  refine ⟨by simp [hRow], hNone, ?_, ?_⟩
  · intro hRoom b hBed hParent
    rw [hRoom, cat.roomId_of_room hRoom] at hKind
    simp only [require_eq_ok, occupiedBeds, List.filter_eq_nil_iff] at hKind
    cases hPointer : t.bedPointer b date with
    | none => rfl
    | some id =>
      obtain ⟨c, hFound, hc⟩ := hOk.exact.bed_claim hBed hPointer
      refine absurd ?_ (hKind b ((cat.mem_beds b).mpr hBed))
      have hJoin : (t.bedClaimId b date).join = some id := hPointer
      simp [hParent, hJoin, hFound, hForeign c _ hc, (mem_activeOn.mp hc).2.1, - List.contains_eq_mem]
  · intro hBed
    rw [hBed] at hKind
    simp only [bedFree] at hKind
    cases hPointer : t.bedPointer unitId date with
    | none => rfl
    | some id =>
      obtain ⟨c, hFound, hc⟩ := hOk.exact.bed_claim hBed hPointer
      have hJoin : (t.bedClaimId unitId date).join = some id := hPointer
      simp only [hJoin, hFound, Option.any_some, hForeign c _ hc] at hKind
      cases hKind

/-! ## Claiming a night -/

structure ClaimsNight (cat : UnitCatalog) (t t' : InventoryTables) (claim : Claim) : Prop where
  claims : t'.claims = t.claims ++ [claim]
  orders : t'.orders = t.orders
  row : ∀ r date, t.wholeClaimId r date ≠ none → t'.wholeClaimId r date ≠ none
  whole : ∀ r date, t'.wholePointer r date =
    if cat.kind claim.unitId = .room ∧ r = claim.unitId ∧ date = claim.serviceDate then some claim.id
    else t.wholePointer r date
  bed : ∀ b date, t'.bedPointer b date =
    if cat.kind claim.unitId = .bed ∧ b = claim.unitId ∧ date = claim.serviceDate then some claim.id
    else t.bedPointer b date

theorem join_setRow {f : Nat → Nat → Option (Option Nat)} {a b x y : Nat} {id : Option Nat}
    (h : f a b ≠ none) : (setRow f a b (Option.map fun _ => id) x y).join =
      if x = a ∧ y = b then id else (f x y).join := by
  unfold setRow
  split
  · next hSame =>
    obtain ⟨row, hRow⟩ := Option.ne_none_iff_exists'.mp h
    simp [hSame.1, hSame.2, hRow]
  · rfl

theorem setRow_or_ne_none (f : Nat → Nat → Option (Option Nat)) (a b : Nat) :
    setRow f a b (fun row => row.or (some none)) a b ≠ none := by
  simp only [setRow, and_self, if_true]
  cases f a b <;> simp

theorem join_setRow_or (f : Nat → Nat → Option (Option Nat)) (a b x y : Nat) :
    (setRow f a b (fun row => row.or (some none)) x y).join = (f x y).join := by
  unfold setRow
  split
  · cases f x y <;> simp
  · rfl

theorem claimNight_claims {unitId date : Nat} (source : ClaimSource) (newId : Nat → Nat)
    (h : Vacant cat t unitId date) :
    ClaimsNight cat t ((inventoryAccess cat).applyAll (claimNight cat unitId source newId date) t)
      (newClaim cat unitId source newId date) := by
  unfold claimNight
  cases hKind : cat.kind unitId with
  | room =>
    have hRow := h.row
    have hRoom := cat.roomId_of_room hKind
    rw [hRoom] at hRow
    refine ⟨rfl, rfl, ?_, ?_, ?_⟩
    · intro r d hOld
      simp only [inventoryAccess, LockedStore.Access.applyAll_cons, LockedStore.Access.applyAll_nil,
        InventoryWrite.apply, setRow]
      split <;> simpa using hOld
    · intro r d
      simp only [inventoryAccess, LockedStore.Access.applyAll_cons, LockedStore.Access.applyAll_nil,
        InventoryWrite.apply, InventoryTables.wholePointer, newClaim, hKind, hRoom, true_and, join_setRow hRow]
    · intro b d
      simp [newClaim, hKind, inventoryAccess, InventoryWrite.apply, InventoryTables.bedPointer]
  | bed =>
    refine ⟨rfl, rfl, fun r d hOld => hOld, ?_, ?_⟩
    · intro r d
      simp [newClaim, hKind, inventoryAccess, InventoryWrite.apply, InventoryTables.wholePointer]
    · intro b d
      simp only [inventoryAccess, LockedStore.Access.applyAll_cons, LockedStore.Access.applyAll_nil,
        InventoryWrite.apply, InventoryTables.bedPointer, newClaim, hKind, true_and,
        join_setRow (setRow_or_ne_none _ _ _), join_setRow_or]

namespace ClaimsNight

variable {t' : InventoryTables} {claim : Claim}

theorem activeOn (h : ClaimsNight cat t t' claim) (hActive : claim.active = true) (unitId date : Nat) :
    t'.activeOn unitId date =
      t.activeOn unitId date ++ if claim.unitId = unitId ∧ claim.serviceDate = date then [claim] else [] := by
  simp only [InventoryTables.activeOn, h.claims, List.filter_append, List.filter_cons, List.filter_nil,
    hActive, Bool.true_and, Bool.and_eq_true, decide_eq_true_eq]

theorem claim?_eq (h : ClaimsNight cat t t' claim) {id : Nat} (hId : claim.id ≠ id) :
    t'.claim? id = t.claim? id := by
  simp [InventoryTables.claim?, h.claims, List.find?_append, hId]

theorem vacant (h : ClaimsNight cat t t' claim) {unitId date : Nat} (hDate : date ≠ claim.serviceDate)
    (hVacant : Vacant cat t unitId date) : Vacant cat t' unitId date := by
  refine ⟨h.row _ _ hVacant.row, ?_, fun hRoom b hBed hParent => ?_, fun hBed => ?_⟩
  · rw [h.whole, if_neg fun hSame => hDate hSame.2.2]
    exact hVacant.whole
  · rw [h.bed, if_neg fun hSame => hDate hSame.2.2]
    exact hVacant.beds hRoom b hBed hParent
  · rw [h.bed, if_neg fun hSame => hDate hSame.2.2]
    exact hVacant.bed hBed

theorem pointersOk (h : ClaimsNight cat t t' claim) (hOk : PointersOk cat t)
    (hVacant : Vacant cat t claim.unitId claim.serviceDate) (hActive : claim.active = true)
    (hRoom : claim.roomId = cat.roomId claim.unitId) (hNew : t.claim? claim.id = none) :
    PointersOk cat t' where
  room := by
    intro c hc
    rw [h.claims, List.mem_append, List.mem_singleton] at hc
    obtain hc | rfl := hc
    · exact hOk.room c hc
    · exact hRoom
  keys := by
    rw [h.claims, List.map_append]
    refine List.nodup_append.mpr ⟨hOk.keys, List.nodup_singleton _, ?_⟩
    intro id hOld id' hId hSame
    obtain ⟨c, hc, rfl⟩ := List.mem_map.mp hOld
    rw [List.map_singleton, List.mem_singleton] at hId
    have := List.find?_eq_none.mp hNew c hc
    exact this (by simpa using hSame.trans hId)
  whole := by
    intro r date hKind
    rw [h.activeOn hActive, h.whole, List.map_append, hOk.whole r date hKind]
    by_cases hSame : claim.unitId = r ∧ claim.serviceDate = date
    · obtain ⟨rfl, rfl⟩ := hSame
      have hNone := hVacant.whole
      rw [cat.roomId_of_room hKind] at hNone
      simp [hKind, hNone]
    · have hOther : ¬ (cat.kind claim.unitId = .room ∧ r = claim.unitId ∧ date = claim.serviceDate) :=
        fun hEq => hSame ⟨hEq.2.1.symm, hEq.2.2.symm⟩
      simp [hSame, hOther]
  beds := by
    intro b date hKind
    rw [h.activeOn hActive, h.bed, List.map_append, hOk.beds b date hKind]
    by_cases hSame : claim.unitId = b ∧ claim.serviceDate = date
    · obtain ⟨rfl, rfl⟩ := hSame
      simp [hKind, hVacant.bed hKind]
    · have hOther : ¬ (cat.kind claim.unitId = .bed ∧ b = claim.unitId ∧ date = claim.serviceDate) :=
        fun hEq => hSame ⟨hEq.2.1.symm, hEq.2.2.symm⟩
      simp [hSame, hOther]
  exclusive := by
    intro b date hKind hWhole
    rw [h.whole] at hWhole
    rw [h.bed]
    by_cases hClaimed : cat.kind claim.unitId = .room ∧ cat.roomId b = claim.unitId ∧
        date = claim.serviceDate
    · obtain ⟨hUnit, hParent, rfl⟩ := hClaimed
      rw [if_neg fun hEq => by rw [hUnit] at hEq; cases hEq.1]
      exact hVacant.beds hUnit b hKind hParent
    · rw [if_neg hClaimed] at hWhole
      by_cases hBed : cat.kind claim.unitId = .bed ∧ b = claim.unitId ∧ date = claim.serviceDate
      · obtain ⟨-, rfl, rfl⟩ := hBed
        exact absurd hVacant.whole hWhole
      · rw [if_neg hBed]
        exact hOk.exclusive b date hKind hWhole

end ClaimsNight

theorem claimNights_ok {unitId : Nat} {source : ClaimSource} {newId : Nat → Nat} {dates : List Nat}
    (hOk : PointersOk cat t) (hDates : dates.Nodup) (hIds : (dates.map newId).Nodup)
    (hVacant : ∀ date ∈ dates, Vacant cat t unitId date)
    (hNew : ∀ date ∈ dates, t.claim? (newId date) = none) :
    let t' := (inventoryAccess cat).applyAll (dates.flatMap (claimNight cat unitId source newId)) t
    PointersOk cat t' ∧ t'.claims = t.claims ++ dates.map (newClaim cat unitId source newId) ∧
      t'.orders = t.orders := by
  induction dates generalizing t with
  | nil => simpa using hOk
  | cons date dates ih =>
    obtain ⟨hHere, hRest⟩ := List.forall_mem_cons.mp hVacant
    obtain ⟨hNewHere, hNewRest⟩ := List.forall_mem_cons.mp hNew
    obtain ⟨hDate, hDates⟩ := List.nodup_cons.mp hDates
    obtain ⟨hId, hIds⟩ := List.nodup_cons.mp hIds
    have hNight := claimNight_claims source newId hHere
    have hNext := hNight.pointersOk hOk hHere rfl rfl hNewHere
    simp only [List.flatMap_cons, LockedStore.Access.applyAll_append]
    obtain ⟨hPointers, hClaims, hOrders⟩ := ih hNext hDates hIds
      (fun d hd => hNight.vacant (fun hEq => hDate (by rwa [show d = date from hEq] at hd)) (hRest d hd))
      (fun d hd => by
        refine (hNight.claim?_eq fun hEq => hId ?_).trans (hNewRest d hd)
        rw [show newId date = newId d from hEq]
        exact List.mem_map_of_mem hd)
    refine ⟨hPointers, ?_, hOrders.trans hNight.orders⟩
    rw [hClaims, hNight.claims, List.append_assoc]
    rfl

theorem createInventoryClaims_ok {blockers : UnitBlockers} {unitId : Nat} {dates : List Nat}
    {source : ClaimSource} {exclude : List ClaimSource} {newId : Nat → Nat} {ws : List InventoryWrite}
    (hOk : PointersOk cat t) (hDates : dates.Nodup)
    (hExclude : ∀ date ∈ dates, ExcludedElsewhere t exclude date)
    (h : createInventoryClaims cat blockers t unitId dates source exclude newId = .ok ws) :
    PointersOk cat ((inventoryAccess cat).applyAll ws t) ∧
      ((inventoryAccess cat).applyAll ws t).claims =
        t.claims ++ dates.map (newClaim cat unitId source newId) ∧
      ((inventoryAccess cat).applyAll ws t).orders = t.orders := by
  simp only [createInventoryClaims, bind_eq_ok, require_eq_ok, pure_eq_ok, assertUnitAvailable] at h
  obtain ⟨_, hAvailable, _, ⟨hIds, hNew⟩, rfl⟩ := h
  refine claimNights_ok hOk hDates hIds (fun date hd => ?_) hNew
  exact assertNightAvailable_vacant hOk (hExclude date hd) (checkAll_eq_ok.mp hAvailable date hd)

/-! ## Releasing a claim -/

theorem filter_map_released_active (P : Claim → Bool) (claim : Claim) (claims : List Claim) :
    (claims.map claim.released).filter (fun c => c.active && P c) =
      (claims.filter fun c => c.active && P c).filter fun c => c ≠ claim := by
  induction claims with
  | nil => rfl
  | cons x rest ih =>
    by_cases hx : x = claim
    · subst hx
      have hOff : (x.released x).active = false := by simp [Claim.released]
      simp only [List.map_cons, List.filter_cons, hOff, Bool.false_and, Bool.false_eq_true, if_false, ih]
      split <;> simp
    · have hSame : claim.released x = x := if_neg hx
      simp only [List.map_cons, List.filter_cons, hSame, ih]
      split <;> simp [hx]

theorem mem_map_released {claim c : Claim} {claims : List Claim} (hActive : c.active = true) :
    c ∈ claims.map claim.released ↔ c ∈ claims ∧ c ≠ claim := by
  have hFilter := filter_map_released_active (fun _ => true) claim claims
  simp only [Bool.and_true] at hFilter
  have hMem : c ∈ (claims.map claim.released).filter Claim.active ↔
      c ∈ (claims.filter Claim.active).filter fun c => c ≠ claim := by rw [hFilter]
  simpa [List.mem_filter, hActive] using hMem

structure ReleasesClaim (cat : UnitCatalog) (t t' : InventoryTables) (claim : Claim) : Prop where
  claims : t'.claims = t.claims.map claim.released
  orders : t'.orders = t.orders
  whole : ∀ r date, t'.wholePointer r date =
    if cat.kind claim.unitId = .room ∧ r = claim.unitId ∧ date = claim.serviceDate then none
    else t.wholePointer r date
  bed : ∀ b date, t'.bedPointer b date =
    if cat.kind claim.unitId = .bed ∧ b = claim.unitId ∧ date = claim.serviceDate then none
    else t.bedPointer b date

theorem activeOn_eq_singleton {claim : Claim} {pointer : Option Nat} {unitId date : Nat}
    (hIds : (t.activeOn unitId date).map Claim.id = pointer.toList) (hc : claim ∈ t.activeOn unitId date) :
    t.activeOn unitId date = [claim] ∧ pointer = some claim.id := by
  have hMem : claim.id ∈ pointer.toList := by
    rw [← hIds]
    exact List.mem_map_of_mem hc
  have hPointer : pointer = some claim.id := by simpa using hMem
  rw [hPointer] at hIds
  refine ⟨?_, hPointer⟩
  obtain ⟨c, hEq, -⟩ := List.map_eq_singleton_iff.mp hIds
  rw [hEq, List.mem_singleton] at hc
  rw [hEq, hc]

theorem releaseClaim_releases (hOk : PointersOk cat t) {claim : Claim} (hMem : claim ∈ t.claims)
    (hActive : claim.active = true) (message : String) :
    ∃ ws, releaseClaim cat message t claim = .ok ws ∧
      ReleasesClaim cat t ((inventoryAccess cat).applyAll ws t) claim := by
  have hOn : claim ∈ t.activeOn claim.unitId claim.serviceDate := mem_activeOn.mpr ⟨hMem, hActive, rfl, rfl⟩
  cases hKind : cat.kind claim.unitId with
  | room =>
    have hRoom : claim.roomId = claim.unitId := (hOk.room claim hMem).trans (cat.roomId_of_room hKind)
    have hPointer := (activeOn_eq_singleton (hOk.whole _ _ hKind) hOn).2
    have hRow : t.wholeClaimId claim.unitId claim.serviceDate = some (some claim.id) :=
      Option.join_eq_some_iff.mp hPointer
    have hPresent : t.wholeClaimId claim.unitId claim.serviceDate ≠ none := by simp [hRow]
    refine ⟨[.setWhole claim.roomId claim.serviceDate none, .deactivate claim], ?_, rfl, rfl, ?_, ?_⟩
    · simp [releaseClaim, hKind, hRoom, hRow]
    · intro r d
      simp only [inventoryAccess, LockedStore.Access.applyAll_cons, LockedStore.Access.applyAll_nil,
        InventoryWrite.apply, InventoryTables.wholePointer, hRoom, hKind, true_and, join_setRow hPresent]
    · intro b d
      simp [hKind, inventoryAccess, InventoryWrite.apply, InventoryTables.bedPointer]
  | bed =>
    have hPointer := (activeOn_eq_singleton (hOk.beds _ _ hKind) hOn).2
    have hRow : t.bedClaimId claim.unitId claim.serviceDate = some (some claim.id) :=
      Option.join_eq_some_iff.mp hPointer
    have hPresent : t.bedClaimId claim.unitId claim.serviceDate ≠ none := by simp [hRow]
    refine ⟨[.setBed claim.unitId claim.serviceDate none, .deactivate claim], ?_, rfl, rfl, ?_, ?_⟩
    · simp [releaseClaim, hKind, hRow]
    · intro r d
      simp [hKind, inventoryAccess, InventoryWrite.apply, InventoryTables.wholePointer]
    · intro b d
      simp only [inventoryAccess, LockedStore.Access.applyAll_cons, LockedStore.Access.applyAll_nil,
        InventoryWrite.apply, InventoryTables.bedPointer, hKind, true_and, join_setRow hPresent]

namespace ReleasesClaim

variable {t' : InventoryTables} {claim : Claim}

theorem activeOn (h : ReleasesClaim cat t t' claim) (unitId date : Nat) :
    t'.activeOn unitId date = (t.activeOn unitId date).filter fun c => c ≠ claim := by
  simp only [InventoryTables.activeOn, h.claims, Bool.and_assoc]
  exact filter_map_released_active (fun c => c.unitId = unitId && c.serviceDate = date) claim t.claims

theorem activeOn_of_ne (h : ReleasesClaim cat t t' claim) {unitId date : Nat}
    (hOther : ¬ (unitId = claim.unitId ∧ date = claim.serviceDate)) :
    t'.activeOn unitId date = t.activeOn unitId date := by
  rw [h.activeOn, List.filter_eq_self]
  intro c hc
  obtain ⟨-, -, hUnit, hDate⟩ := mem_activeOn.mp hc
  rw [decide_eq_true_eq]
  rintro rfl
  exact hOther ⟨hUnit.symm, hDate.symm⟩

theorem activeOn_own (h : ReleasesClaim cat t t' claim) {pointer : Option Nat} (hMem : claim ∈ t.claims)
    (hActive : claim.active = true)
    (hIds : (t.activeOn claim.unitId claim.serviceDate).map Claim.id = pointer.toList) :
    t'.activeOn claim.unitId claim.serviceDate = [] := by
  have hOn := mem_activeOn.mpr ⟨hMem, hActive, rfl, rfl⟩
  rw [h.activeOn, (activeOn_eq_singleton hIds hOn).1]
  simp

theorem pointersOk (h : ReleasesClaim cat t t' claim) (hOk : PointersOk cat t) (hMem : claim ∈ t.claims)
    (hActive : claim.active = true) : PointersOk cat t' where
  room := by
    rw [h.claims]
    intro c hc
    obtain ⟨x, hx, rfl⟩ := List.mem_map.mp hc
    obtain ⟨-, hRoom, hUnit, -, -⟩ := claim.released_key x
    rw [hRoom, hUnit]
    exact hOk.room x hx
  keys := by
    have hIds : (t.claims.map claim.released).map Claim.id = t.claims.map Claim.id := by
      rw [List.map_map]
      exact List.map_congr_left fun x _ => (claim.released_key x).1
    rw [h.claims, hIds]
    exact hOk.keys
  whole := by
    intro r date hKind
    rw [h.whole]
    by_cases hSame : r = claim.unitId ∧ date = claim.serviceDate
    · obtain ⟨rfl, rfl⟩ := hSame
      rw [h.activeOn_own hMem hActive (hOk.whole _ _ hKind)]
      simp [hKind]
    · rw [h.activeOn_of_ne hSame, if_neg fun hEq => hSame hEq.2]
      exact hOk.whole r date hKind
  beds := by
    intro b date hKind
    rw [h.bed]
    by_cases hSame : b = claim.unitId ∧ date = claim.serviceDate
    · obtain ⟨rfl, rfl⟩ := hSame
      rw [h.activeOn_own hMem hActive (hOk.beds _ _ hKind)]
      simp [hKind]
    · rw [h.activeOn_of_ne hSame, if_neg fun hEq => hSame hEq.2]
      exact hOk.beds b date hKind
  exclusive := by
    intro b date hKind hWhole
    rw [h.whole] at hWhole
    rw [h.bed]
    split at hWhole
    · exact absurd rfl hWhole
    · split
      · rfl
      · exact hOk.exclusive b date hKind hWhole

end ReleasesClaim

structure Releases (cat : UnitCatalog) (t t' : InventoryTables) (gone : List Claim) : Prop where
  pointers : PointersOk cat t'
  orders : t'.orders = t.orders
  claims : ∀ c : Claim, c.active = true → (c ∈ t'.claims ↔ c ∈ t.claims ∧ c ∉ gone)

theorem releaseEach_releases (hOk : PointersOk cat t) {gone : List Claim} (hNodup : gone.Nodup)
    (hGone : ∀ c ∈ gone, c ∈ t.claims ∧ c.active = true) (message : String) :
    ∃ ws, releaseEach cat message t gone = .ok ws ∧
      Releases cat t ((inventoryAccess cat).applyAll ws t) gone := by
  induction gone generalizing t with
  | nil => exact ⟨[], rfl, hOk, rfl, by simp⟩
  | cons claim rest ih =>
    obtain ⟨⟨hMem, hActive⟩, hRest⟩ := List.forall_mem_cons.mp hGone
    obtain ⟨hNew, hNodup⟩ := List.nodup_cons.mp hNodup
    obtain ⟨ws, hWs, hOne⟩ := releaseClaim_releases hOk hMem hActive message
    have hStill : ∀ c ∈ rest, c ∈ ((inventoryAccess cat).applyAll ws t).claims ∧ c.active = true := by
      intro c hc
      refine ⟨?_, (hRest c hc).2⟩
      rw [hOne.claims, mem_map_released (hRest c hc).2]
      exact ⟨(hRest c hc).1, fun hEq => hNew (hEq ▸ hc)⟩
    obtain ⟨more, hMore, hAll⟩ := ih (hOne.pointersOk hOk hMem hActive) hNodup hStill
    refine ⟨ws ++ more, by simp [releaseEach, hWs, hMore], ?_⟩
    rw [LockedStore.Access.applyAll_append]
    refine ⟨hAll.pointers, hAll.orders.trans hOne.orders, fun c hc => ?_⟩
    rw [hAll.claims c hc, hOne.claims, mem_map_released hc]
    simp [and_assoc]

theorem mem_activeClaims {sourceType : ClaimSourceType} {sources : List ClaimSource} {onDate : Nat → Bool}
    {c : Claim} : c ∈ t.activeClaims sourceType sources onDate ↔
      c ∈ t.claims ∧ c.source.type = sourceType ∧ c.source ∈ sources ∧ c.active = true ∧
        onDate c.serviceDate = true := by
  simp [InventoryTables.activeClaims, and_assoc]

theorem activeClaims_releases (hOk : PointersOk cat t) (message : String) (sourceType : ClaimSourceType)
    (sources : List ClaimSource) (onDate : Nat → Bool) :
    ∃ ws, releaseEach cat message t (t.activeClaims sourceType sources onDate) = .ok ws ∧
      Releases cat t ((inventoryAccess cat).applyAll ws t) (t.activeClaims sourceType sources onDate) := by
  refine releaseEach_releases hOk ?_ (fun c hc => ?_) message
  · exact (List.mergeSort_perm _ _).nodup_iff.mpr (hOk.exact.claims_nodup.filter _)
  · have hc := mem_activeClaims.mp hc
    exact ⟨hc.1, hc.2.2.2.1⟩

end GreenPms
