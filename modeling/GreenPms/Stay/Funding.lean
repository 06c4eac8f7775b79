import GreenPms.Entitlement.Budgets
import GreenPms.Stay.Coverage

/-! # Funding of planned stays

The covered nights of a price are nights that the order has or nights that their lots have units for,
so what a command writes for its plan leaves the lots solvent.
-/

namespace GreenPms

open Checked Totals EntitlementTables

namespace EntitlementTables

variable {t u v : EntitlementTables} {orderId commandId : Nat} {owner : CoverageOwner} {coverageSet : List CoveredNight}
  {reallocatable : List CoverageCandidate}

def Solvent (t : EntitlementTables) : Prop := ∀ lot ∈ t.lots, 0 ≤ t.availableBalance lot

/-- From each open lot at most its balance is taken. -/
def Affords (t u : EntitlementTables) : Prop :=
  ∀ lotId, t.expired lotId = false → 0 ≤ t.lotBalance lotId → t.standing lotId ≤ u.standing lotId + t.lotBalance lotId

theorem Solvent.afford (h : t.Solvent) (hLots : u.lots = t.lots) (hSettles : t.Settles u) (hAffords : t.Affords u) :
    u.Solvent := by
  intro lot hLot
  rw [hLots] at hLot
  have hBefore := h lot hLot
  have hRestored := hSettles.later.restored lot.id
  have hTotal := t.availableBalance_eq lot
  rw [u.availableBalance_eq lot]
  cases hExpired : t.expired lot.id with
  | true =>
    have hSame := hSettles.standing lot.id hExpired
    omega
  | false =>
    have hPaid := hAffords lot.id hExpired
    rw [lotBalance_eq hLot] at hPaid
    have hEnough := hPaid hBefore
    omega

theorem Affords.refl (t : EntitlementTables) : t.Affords t := fun _ _ _ => by omega

theorem Affords.of_le (h : ∀ lotId, t.standing lotId ≤ u.standing lotId) : t.Affords u := fun lotId _ hBalance => by
  have hLot := h lotId
  omega

theorem Affords.still (h : t.Affords u) (hStill : u.Still v) : t.Affords v := by
  intro lotId
  rw [hStill.standing]
  exact h lotId

theorem Settles.of_still (hLater : t.Extends u) (hStill : t.Still u) : t.Settles u :=
  ⟨hLater, fun lotId _ => hStill.standing lotId, hStill.taken.mono fun _ _ _ => False.elim⟩

theorem Settles.still (h : t.Settles u) (hLater : u.Extends v) (hStill : u.Still v) : t.Settles v :=
  h.trans (.of_still hLater hStill)

structure PlanFunded (t : EntitlementTables) (orderId : Nat) (reallocatable : List CoverageCandidate)
    (coverageSet : List CoveredNight) : Prop where
  dates : (coverageSet.map CoveredNight.serviceDate).Nodup
  funded : ∃ candidates, t.Funded (t.activeCoverageCandidates orderId) reallocatable candidates ∧
    Backed coverageSet candidates

theorem PlanFunded.drawn_expired (h : t.PlanFunded orderId reallocatable coverageSet) {lotId : Nat}
    (hExpired : t.expired lotId = true) : t.drawn orderId coverageSet lotId = 0 := by
  obtain ⟨candidates, hFunded, hBacked⟩ := h.funded
  have hDrawn := hFunded.drawn_le hBacked h.dates lotId
  rw [hFunded.expired_zero hExpired] at hDrawn
  omega

theorem PlanFunded.drawn_le (h : t.PlanFunded orderId reallocatable coverageSet) (lotId : Nat) :
    (t.drawn orderId coverageSet lotId : Int) ≤ max 0 (t.lotBalance lotId + heldFrom reallocatable lotId) := by
  obtain ⟨candidates, hFunded, hBacked⟩ := h.funded
  have hDrawn := hFunded.drawn_le hBacked h.dates lotId
  have hBudget := hFunded.budget lotId
  omega

theorem Reconciles.settles (hOk : t.Ok) (h : t.Reconciles owner coverageSet commandId u)
    (hPlan : t.PlanFunded owner.orderId reallocatable coverageSet) : t.Settles u :=
  ⟨(h.writes hOk).extends, fun lotId hExpired => (h.draws hOk lotId).2 hExpired (hPlan.drawn_expired hExpired),
    h.taken hOk fun _ => hPlan.drawn_expired⟩

theorem Reconciles.affords (hOk : t.Ok) (h : t.Reconciles owner coverageSet commandId u)
    (hPlan : t.PlanFunded owner.orderId reallocatable coverageSet)
    (hFreed : ∀ lotId, heldFrom reallocatable lotId ≤ t.freed owner.orderId coverageSet lotId) : t.Affords u := by
  intro lotId hOpen hBalance
  have hDraws := (h.draws hOk lotId).1 hOpen
  have hDrawn := hPlan.drawn_le lotId
  have hBack := hFreed lotId
  omega

/-- A new order has no night yet. -/
theorem holdCoverage_settles (hPlan : t.PlanFunded owner.orderId [] coverageSet)
    (hNew : ∀ c ∈ t.coverage, c.orderId ≠ owner.orderId)
    (h : t.holdCoverage owner coverageSet commandId = .ok u) : t.Settles u ∧ t.Affords u := by
  have hNights : ∀ lotId, t.drawn owner.orderId coverageSet lotId =
      coverageSet.countP fun night => night.entitlementLotId = lotId := by
    intro lotId
    refine List.countP_congr fun night _ => ?_
    rw [activeCoverage, ofOrder_nil hNew]
    simp [hasNight]
  refine ⟨⟨(holdCoverage_writes h).extends, fun lotId hExpired => ?_, holdCoverage_takes h fun night hNight hExpired => ?_⟩,
    fun lotId _ hBalance => ?_⟩
  · have hHeld := holdCoverage_standing h lotId
    rw [← hNights lotId, hPlan.drawn_expired hExpired] at hHeld
    omega
  · have hNone := hPlan.drawn_expired hExpired
    rw [hNights] at hNone
    exact absurd (decide_eq_true rfl) (List.countP_eq_zero.mp hNone night hNight)
  · have hHeld := holdCoverage_standing h lotId
    have hDrawn := hPlan.drawn_le lotId
    rw [hNights lotId] at hDrawn
    have hNone : heldFrom [] lotId = 0 := rfl
    omega

end EntitlementTables

/-! ## Prices -/

theorem PriceAccounts.backed {input : PricingInput} {timeline : List PricingTimelineItem} {price : PricingResult}
    (h : PriceAccounts input timeline price) : Backed price.coverageSet input.coverageCandidates := by
  intro night hNight
  obtain ⟨candidate, hCandidate, item, -, hCovered⟩ := h.covered night hNight
  exact ⟨candidate, hCandidate, hCovered.date.1, hCovered.lot.symm⟩

theorem calculatePricing_dates {input : PricingInput} {unit : PricedUnit} {price : PricingResult}
    (h : calculatePricing input unit = .ok price) : (price.coverageSet.map CoveredNight.serviceDate).Nodup := by
  have hAccounts := calculatePricing_accounts h
  by_cases hMode : priceMode input = .stayTotal
  · rw [(hAccounts.whole hMode).1]
    exact List.nodup_nil
  · exact (hAccounts.nights hMode).covered.imp fun hLess => hLess.ne

theorem StayAccounts.covered_dates {request : StayPricingRequest} {policy : PricingPolicy} {price : PricingResult}
    (h : StayAccounts request policy price) : (price.coverageSet.map CoveredNight.serviceDate).Nodup ∧
      ∀ date ∈ price.coverageSet.map CoveredNight.serviceDate,
        request.stay.arrivalDate ≤ date ∧ date < request.stay.departureDate := by
  obtain hNights | ⟨hNone, -⟩ := h.nights
  · exact ⟨hNights.covered.imp fun hLess => hLess.ne, fun date hDate => hNights.covered_mem hDate⟩
  · rw [hNone]
    exact ⟨List.nodup_nil, fun _ hDate => absurd hDate List.not_mem_nil⟩

namespace Hotel

variable {cat : UnitCatalog} {hotel : Hotel} {request : StayPricingRequest} {candidates : List CoverageCandidate}

theorem activeCoverageCandidates_status {t : EntitlementTables} {orderId : Nat} :
    ∀ c ∈ t.activeCoverageCandidates orderId, c.status ≠ none := by
  intro candidate hCandidate
  obtain ⟨_, -, -, -, hStatus⟩ := mem_activeCoverageCandidates hCandidate
  exact hStatus

theorem allocateCoverage_funded {identity : OrderIdentity} {allocation : CoverageRequest} {rows : List CoverageCandidate}
    (hKept : ∀ c ∈ allocation.preserved, c ∈ rows) (hStatus : ∀ c ∈ rows, c.status ≠ none)
    (h : hotel.allocateCoverage identity allocation = .ok candidates) :
    hotel.entitlement.Funded rows allocation.reallocatableHeld candidates := by
  unfold allocateCoverage at h
  split at h
  · rw [map_eq_ok] at h
    obtain ⟨⟨contractId, drawn⟩, hResolved, rfl⟩ := h
    exact resolveMemberCoverage_funded hKept hStatus hResolved
  · exact allocateCoverageCandidates_funded { allocation with preserved := allocation.kept }
      (fun c hc => hKept c (List.mem_of_mem_filter hc)) hStatus h

theorem stayCandidates_funded {first : InventoryUnit} {dates : List Nat}
    (h : hotel.stayCandidates request first dates = .ok candidates) :
    hotel.entitlement.Funded (hotel.entitlement.activeCoverageCandidates request.orderId) request.reallocatableHeld
      candidates := by
  have hOwn : ∀ c ∈ hotel.entitlement.candidatesOn request.orderId dates,
      c ∈ hotel.entitlement.activeCoverageCandidates request.orderId := fun c hc => List.mem_of_mem_filter hc
  simp only [stayCandidates, bind_eq_ok, pure_eq_ok] at h
  obtain ⟨allocated, hAllocated, rfl⟩ := h
  refine (Funded.append ?_ (fun c hc => hOwn c (List.mem_of_mem_filter hc)) activeCoverageCandidates_status).sort
  unfold allocateUnlessPreserved at hAllocated
  split at hAllocated
  · injection hAllocated with hSame
    exact hSame ▸ .own hOwn activeCoverageCandidates_status
  · exact allocateCoverage_funded hOwn activeCoverageCandidates_status hAllocated

theorem StayPriced.backed {timeline : List TimelineUnit} {first : TimelineUnit} {policy : PricingPolicy}
    {price : PricingResult} (h : hotel.StayPriced cat request timeline first candidates policy price) :
    Backed price.coverageSet candidates := by
  obtain ⟨-, hPrice⟩ | ⟨hKind, pieces, hPieces, hJoin⟩ := h.price
  · exact (calculateDurationTimelinePricing_accounts hPrice).backed
  · intro night hNight
    rw [(joinPieces_eq_ok hJoin).1, List.mem_flatMap] at hNight
    obtain ⟨piece, hPiece, hNight⟩ := hNight
    obtain ⟨run, -, hRun⟩ : ∃ run ∈ timelineRuns request.stay.stayTimeline,
        hotel.priceRun cat request policy candidates run = .ok piece := by
      obtain ⟨i, hi, rfl⟩ := List.getElem_of_mem hPiece
      exact ⟨_, List.getElem_mem (hPieces.length_eq ▸ hi), hPieces.get (hPieces.length_eq ▸ hi) hi⟩
    obtain ⟨unit, -, hCalculated⟩ := priceRun_eq_ok hRun
    obtain ⟨candidate, hCandidate, hNightOf⟩ := (calculatePricing_accounts hCalculated).backed night hNight
    exact ⟨candidate, List.mem_of_mem_filter hCandidate, hNightOf⟩

theorem priceStayTimeline_funded {price : PricingResult} (h : hotel.priceStayTimeline cat request = .ok price) :
    hotel.entitlement.PlanFunded request.orderId request.reallocatableHeld price.coverageSet ∧
      ∀ date ∈ price.coverageSet.map CoveredNight.serviceDate,
        request.stay.arrivalDate ≤ date ∧ date < request.stay.departureDate := by
  obtain ⟨timeline, first, candidates, policy, -, hPriced⟩ := priceStayTimeline_eq_ok h
  obtain ⟨hDates, hInside⟩ := hPriced.accounts.covered_dates
  exact ⟨⟨hDates, candidates, stayCandidates_funded hPriced.allocated, hPriced.backed⟩, hInside⟩

/-! ## Quotes -/

theorem priceQuote_funded {quote : Quote} {price : PricingResult} (h : hotel.priceQuote cat quote = .ok price)
    {orderId : Nat} (hNew : ∀ c ∈ hotel.entitlement.coverage, c.orderId ≠ orderId) :
    hotel.entitlement.PlanFunded orderId [] price.coverageSet := by
  have hRows : hotel.entitlement.activeCoverageCandidates orderId = [] := by
    rw [activeCoverageCandidates, activeCoverage, ofOrder_nil hNew]
    rfl
  unfold priceQuote at h
  split at h
  · simp only [priceTemporaryOtherRoomQuote, bind_eq_ok, require_eq_ok, mapError_eq_ok, pure_eq_ok] at h
    obtain ⟨memberId, -, _, -, unit, -, dates, -, ⟨resolved, candidates⟩, hResolved, _, -, policy, -, pricing, hPricing,
      _, -, rfl⟩ := h
    exact ⟨calculatePricing_dates hPricing, candidates, resolveTemporaryOtherRoomCoverage_funded hResolved,
      (calculatePricing_accounts hPricing).backed⟩
  · simp only [priceSingleUnit, bind_eq_ok, require_eq_ok, mapError_eq_ok] at h
    obtain ⟨_, -, unit, -, dates, -, candidates, hAllocated, policy, -, hPricing⟩ := h
    refine ⟨calculatePricing_dates hPricing, candidates, ?_, (calculatePricing_accounts hPricing).backed⟩
    rw [hRows]
    exact allocateCoverage_funded (fun _ hNone => absurd hNone List.not_mem_nil)
      (fun _ hNone => absurd hNone List.not_mem_nil) hAllocated

end Hotel

end GreenPms
