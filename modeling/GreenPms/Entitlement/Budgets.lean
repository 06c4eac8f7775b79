import GreenPms.Entitlement.Allocation
import GreenPms.Entitlement.Draws

/-! # Budgets of allocations

Whichever way coverage is allocated, the nights that are drawn are from lots that have not expired,
and from each lot no more than its balance with the held nights that are to be given back to it.
-/

namespace GreenPms

open Checked Totals

def drawnOf (candidates : List CoverageCandidate) (lotId : Nat) : Nat :=
  candidates.countP fun c => c.status = none && c.entitlementLotId = lotId

structure Filled (sources : List CoverageSource) (remaining : Nat → Int) (drawn : List CoverageCandidate) : Prop where
  fresh : ∀ c ∈ drawn, c.status = none
  lots : ∀ c ∈ drawn, ∃ source ∈ sources, source.lot.id = c.entitlementLotId
  budget : ∀ lotId, (drawnOf drawn lotId : Int) ≤ max 0 (remaining lotId)

theorem fillNights_filled {ambiguous : Thrown} {sources : List CoverageSource} {remaining : Nat → Int} {dates : List Nat}
    {drawn : List CoverageCandidate} (h : fillNights ambiguous sources remaining dates = .ok drawn) :
    Filled sources remaining drawn := by
  induction dates generalizing remaining drawn with
  | nil =>
    rw [fillNights] at h
    obtain rfl : [] = drawn := by injection h
    exact ⟨by simp, by simp, fun lotId => by simp [drawnOf]⟩
  | cons date rest ih =>
    rw [fillNights] at h
    split at h
    · exact ih h
    · next source hSource =>
      have hIn : source ∈ sources ∧ (source.validOn date && 0 < remaining source.lot.id) = true :=
        List.mem_filter.mp (hSource ▸ List.mem_singleton_self source)
      simp only [Bool.and_eq_true, decide_eq_true_eq] at hIn
      simp only [bind_eq_ok, pure_eq_ok] at h
      obtain ⟨more, hMore, rfl⟩ := h
      have hRest := ih hMore
      refine ⟨List.forall_mem_cons.mpr ⟨rfl, hRest.fresh⟩,
        List.forall_mem_cons.mpr ⟨⟨source, hIn.1, rfl⟩, hRest.lots⟩, fun lotId => ?_⟩
      have hBudget := hRest.budget lotId
      have hCount : drawnOf (drawnNight source date :: more) lotId =
          drawnOf more lotId + if source.lot.id = lotId then 1 else 0 := by
        simp [drawnOf, List.countP_cons, drawnNight]
      by_cases hLot : source.lot.id = lotId
      · subst hLot
        rw [Function.update_self] at hBudget
        rw [hCount, if_pos rfl]
        omega
      · rw [Function.update_of_ne (Ne.symm hLot)] at hBudget
        rw [hCount, if_neg hLot]
        exact hBudget
    · cases h

namespace EntitlementTables

variable {t : EntitlementTables} {rows reallocatable candidates more : List CoverageCandidate}

/-- Candidates that an order has already, or that their lots have units for. -/
structure Funded (t : EntitlementTables) (rows reallocatable candidates : List CoverageCandidate) : Prop where
  sources : ∀ c ∈ candidates, c.status ≠ none → c ∈ rows
  unexpired : ∀ c ∈ candidates, c.status = none → t.expired c.entitlementLotId = false
  budget : ∀ lotId, (drawnOf candidates lotId : Int) ≤ max 0 (t.lotBalance lotId + heldFrom reallocatable lotId)

theorem drawnOf_eq_zero (h : ∀ c ∈ candidates, c.status ≠ none) (lotId : Nat) : drawnOf candidates lotId = 0 :=
  List.countP_eq_zero.mpr fun c hc hIn => h c hc (by simpa using (Bool.and_eq_true_iff.mp hIn).1)

theorem Funded.own (hRows : ∀ c ∈ candidates, c ∈ rows) (hStatus : ∀ c ∈ rows, c.status ≠ none) :
    t.Funded rows reallocatable candidates where
  sources c hc _ := hRows c hc
  unexpired c hc hNone := absurd hNone (hStatus c (hRows c hc))
  budget lotId := by
    rw [drawnOf_eq_zero fun c hc => hStatus c (hRows c hc)]
    exact le_max_left ..

theorem Funded.append (h : t.Funded rows reallocatable candidates) (hMore : ∀ c ∈ more, c ∈ rows)
    (hStatus : ∀ c ∈ rows, c.status ≠ none) : t.Funded rows reallocatable (more ++ candidates) where
  sources c hc hSome := (List.mem_append.mp hc).elim (hMore c) fun hc => h.sources c hc hSome
  unexpired c hc hNone := (List.mem_append.mp hc).elim (fun hc => absurd hNone (hStatus c (hMore c hc)))
    fun hc => h.unexpired c hc hNone
  budget lotId := by
    rw [drawnOf, List.countP_append, ← drawnOf, drawnOf_eq_zero fun c hc => hStatus c (hMore c hc), Nat.zero_add]
    exact h.budget lotId

theorem Funded.perm (h : t.Funded rows reallocatable candidates) (hPerm : more.Perm candidates) :
    t.Funded rows reallocatable more where
  sources c hc := h.sources c (hPerm.mem_iff.mp hc)
  unexpired c hc := h.unexpired c (hPerm.mem_iff.mp hc)
  budget lotId := by
    rw [drawnOf, hPerm.countP_eq]
    exact h.budget lotId

theorem Funded.sort (h : t.Funded rows reallocatable candidates) :
    t.Funded rows reallocatable (sortCandidates candidates) :=
  h.perm (List.perm_insertionSort ..)

theorem remainingUnits_eq_ok {sources : List CoverageSource} {remaining : Nat → Int}
    (h : t.remainingUnits sources reallocatable = .ok remaining) :
    remaining = fun lotId => t.lotBalance lotId + heldFrom reallocatable lotId := by
  simp only [remainingUnits, bind_eq_ok, pure_eq_ok] at h
  obtain ⟨_, -, rfl⟩ := h
  rfl

theorem Filled.funded {sources : List CoverageSource} {remaining : Nat → Int} (h : Filled sources remaining candidates)
    (hRemaining : t.remainingUnits sources reallocatable = .ok remaining)
    (hOpen : ∀ source ∈ sources, t.expired source.lot.id = false) : t.Funded rows reallocatable candidates where
  sources c hc hSome := absurd (h.fresh c hc) hSome
  unexpired c hc _ := by
    obtain ⟨source, hSource, hLot⟩ := h.lots c hc
    rw [← hLot]
    exact hOpen source hSource
  budget lotId := by
    have hBudget := h.budget lotId
    rwa [remainingUnits_eq_ok hRemaining] at hBudget

variable {request : CoverageRequest}

theorem unexpired_expired {today : Nat} {lot : EntitlementLot} (h : t.unexpired today lot = true) :
    t.expired lot.id = false := by
  simp only [unexpired, Bool.and_eq_true, Bool.not_eq_true'] at h
  exact h.2

theorem resolveMemberCoverage_funded {memberId : Nat} {contractId : Option Nat}
    (hKept : ∀ c ∈ request.preserved, c ∈ rows) (hStatus : ∀ c ∈ rows, c.status ≠ none)
    (h : t.resolveMemberCoverage memberId request = .ok (contractId, candidates)) :
    t.Funded rows request.reallocatableHeld candidates := by
  have hOwn : ∀ c ∈ request.kept, c ∈ rows := fun c hc => hKept c (List.mem_of_mem_filter hc)
  simp only [resolveMemberCoverage, bind_eq_ok] at h
  obtain ⟨_, -, roomTypeCode, -, _, -, h⟩ := h
  split at h
  case isTrue =>
    rw [pure_eq_ok, Prod.mk.injEq] at h
    exact h.2 ▸ .own hOwn hStatus
  case isFalse =>
    simp only [bind_eq_ok, pure_eq_ok, Prod.mk.injEq] at h
    obtain ⟨remaining, hRemaining, drawn, hDrawn, -, rfl⟩ := h
    refine (Filled.funded (fillNights_filled hDrawn) hRemaining fun source hSource => ?_).append hOwn hStatus
    have hValid := (List.mem_filter.mp hSource).2
    exact unexpired_expired (Bool.and_eq_true_iff.mp hValid).1

theorem allocateCoverageCandidates_funded (request : CoverageRequest) {contractId : Option Nat}
    (hKept : ∀ c ∈ request.preserved, c ∈ rows) (hStatus : ∀ c ∈ rows, c.status ≠ none)
    (h : t.allocateCoverageCandidates contractId request = .ok candidates) :
    t.Funded rows request.reallocatableHeld candidates := by
  unfold allocateCoverageCandidates at h
  split at h
  · obtain rfl : request.preserved = candidates := by injection h
    exact .own hKept hStatus
  · simp only [bind_eq_ok, pure_eq_ok] at h
    obtain ⟨contract, -, remaining, hRemaining, drawn, hDrawn, rfl⟩ := h
    refine ((Filled.funded (fillNights_filled hDrawn) hRemaining fun source hSource => ?_).append
      (fun c hc => hKept c (List.mem_of_mem_filter hc)) hStatus).sort
    obtain ⟨lot, hLot, rfl⟩ := List.mem_map.mp hSource
    have hOpen := (List.mem_filter.mp hLot).2
    exact unexpired_expired (Bool.and_eq_true_iff.mp hOpen).2

/-! ## The balance of a lot by its identity -/

theorem findLot_eq {lot : EntitlementLot} (h : lot ∈ t.lots) : t.findLot lot.id = some lot := by
  rw [findLot]
  cases hFind : t.lots.find? fun other => other.id = lot.id with
  | none => exact absurd (decide_eq_true rfl) (List.find?_eq_none.mp hFind lot h)
  | some other =>
    have hId : other.id = lot.id := of_decide_eq_true (List.find?_some hFind :)
    rw [List.inj_on_of_nodup_map t.lots_keyed (List.mem_of_find?_eq_some hFind) h hId]

theorem lotBalance_eq {lot : EntitlementLot} (h : lot ∈ t.lots) : t.lotBalance lot.id = t.availableBalance lot := by
  rw [lotBalance, findLot_eq h]
  rfl

theorem memberSources_lots {memberId : Nat} {source : CoverageSource} (h : source ∈ t.memberSources memberId) :
    source.lot ∈ t.lots := by
  simp only [memberSources, List.mem_filterMap, Option.bind_eq_some_iff, Option.ite_none_right_eq_some] at h
  obtain ⟨lot, hLot, contract, -, -, hSource⟩ := h
  obtain rfl := Option.some.inj hSource
  exact hLot

theorem single_mem {source : CoverageSource} {sources : List CoverageSource}
    (h : resolveTemporaryOtherRoomCoverage.single sources = some source) : source ∈ sources := by
  unfold resolveTemporaryOtherRoomCoverage.single at h
  split at h
  · obtain rfl := Option.some.inj h
    exact List.mem_singleton_self _
  · cases h

theorem resolveTemporaryOtherRoomCoverage_funded {today memberId unitId : Nat} {kind : InventoryUnitKind}
    {roomTypeCode : Option Nat} {arrivalDate departureDate : Nat} {arrangement : TemporaryOtherRoomArrangement}
    (h : t.resolveTemporaryOtherRoomCoverage today memberId unitId kind roomTypeCode arrivalDate departureDate =
      .ok (arrangement, candidates)) : t.Funded rows [] candidates := by
  simp only [resolveTemporaryOtherRoomCoverage, bind_eq_ok, require_eq_ok, expect_eq_ok, pure_eq_ok, Prod.mk.injEq] at h
  obtain ⟨_, -, _, -, actual, -, _, -, _, -, source, hSource, order, -, -, rfl⟩ := h
  have hIn := List.mem_filter.mp (single_mem hSource)
  obtain ⟨hOwn, hMatch⟩ := hIn
  simp only [Bool.and_eq_true, coversCompleteStay, wholeRoomSource, decide_eq_true_eq] at hMatch
  obtain ⟨⟨⟨⟨⟨-, hOpen⟩, -⟩, hUnits⟩, -⟩, -⟩ := hMatch
  have hLot := memberSources_lots (List.mem_of_mem_filter hOwn)
  have hDrawn : ∀ c ∈ (serviceDates arrivalDate departureDate).map (drawnNight source),
      c.status = none ∧ c.entitlementLotId = source.lot.id := by
    intro c hc
    obtain ⟨date, -, rfl⟩ := List.mem_map.mp hc
    exact ⟨rfl, rfl⟩
  refine ⟨fun c hc hSome => absurd (hDrawn c hc).1 hSome, fun c hc _ => ?_, fun lotId => ?_⟩
  · rw [(hDrawn c hc).2]
    exact unexpired_expired hOpen
  · by_cases hSame : source.lot.id = lotId
    · subst hSame
      have hCount := List.countP_le_length (p := fun c : CoverageCandidate => c.status = none &&
        c.entitlementLotId = source.lot.id) (l := (serviceDates arrivalDate departureDate).map (drawnNight source))
      rw [List.length_map] at hCount
      rw [lotBalance_eq hLot]
      have hHeld : heldFrom [] source.lot.id = 0 := rfl
      rw [drawnOf, hHeld]
      omega
    · have hNone : drawnOf ((serviceDates arrivalDate departureDate).map (drawnNight source)) lotId = 0 :=
        List.countP_eq_zero.mpr fun c hc hIn => by
          rw [(hDrawn c hc).2, Bool.and_eq_true, decide_eq_true_eq, decide_eq_true_eq] at hIn
          exact hSame hIn.2
      rw [hNone]
      exact le_max_left ..

/-! ## Plans -/

def Backed (coverageSet : List CoveredNight) (candidates : List CoverageCandidate) : Prop :=
  ∀ night ∈ coverageSet, ∃ c ∈ candidates, c.serviceDate = night.serviceDate ∧
    c.entitlementLotId = night.entitlementLotId

theorem mem_activeCoverageCandidates {orderId : Nat} {candidate : CoverageCandidate}
    (h : candidate ∈ t.activeCoverageCandidates orderId) : ∃ c ∈ t.activeCoverage orderId,
      candidate.serviceDate = c.serviceDate ∧ candidate.entitlementLotId = c.lotId ∧ candidate.status ≠ none := by
  obtain ⟨c, hc, rfl⟩ := List.mem_map.mp h
  exact ⟨c, hc, rfl, rfl, by simp [CoverageItem.candidate]⟩

theorem Funded.drawn_le {orderId : Nat} {coverageSet : List CoveredNight}
    (h : t.Funded (t.activeCoverageCandidates orderId) reallocatable candidates)
    (hBacked : Backed coverageSet candidates) (hDates : (coverageSet.map CoveredNight.serviceDate).Nodup) (lotId : Nat) :
    t.drawn orderId coverageSet lotId ≤ drawnOf candidates lotId := by
  refine countP_le_of_keys hDates (g := CoverageCandidate.serviceDate) fun night hNight hIn => ?_
  simp only [Bool.and_eq_true, decide_eq_true_eq, Bool.not_eq_true'] at hIn
  obtain ⟨rfl, hNew⟩ := hIn
  obtain ⟨candidate, hCandidate, hDate, hLot⟩ := hBacked night hNight
  refine ⟨candidate, hCandidate, ?_, hDate⟩
  rw [Bool.and_eq_true, decide_eq_true_eq, decide_eq_true_eq]
  refine ⟨?_, hLot⟩
  by_contra hSome
  obtain ⟨c, hc, hcDate, hcLot, -⟩ := mem_activeCoverageCandidates (h.sources candidate hCandidate hSome)
  have hHas : hasNight (t.activeCoverage orderId) night = true :=
    hasNight_eq_true.mpr ⟨c, hc, hcDate.symm.trans hDate, hcLot.symm.trans hLot⟩
  rw [hNew] at hHas
  cases hHas

theorem Funded.expired_zero (h : t.Funded rows reallocatable candidates) {lotId : Nat}
    (hExpired : t.expired lotId = true) : drawnOf candidates lotId = 0 := by
  refine List.countP_eq_zero.mpr fun c hc hIn => ?_
  simp only [Bool.and_eq_true, decide_eq_true_eq] at hIn
  have hOpen := h.unexpired c hc hIn.1
  rw [hIn.2, hExpired] at hOpen
  cases hOpen

end EntitlementTables

end GreenPms
