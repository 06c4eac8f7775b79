import GreenPms.Pricing.Prices
import GreenPms.Stay.Reachable

/-! # Pricing revisions

The price of a stay, the decision on its contract amount and the revision that is stored agree: the
amounts of a guest add up, and the cash lines pass the checks for the arrangement of the revision.
-/

namespace GreenPms

open Checked TransitionSystem EntitlementTables

variable {cat : UnitCatalog} {hotel hotel' : Hotel} {orderId commandId : Nat}

/-! ## Pieces -/

theorem joinPieces_eq_ok {currency : CurrencyCode} {pieces : List PricingResult} {price : PricingResult}
    (h : joinPieces currency pieces = .ok price) :
    price.coverageSet = pieces.flatMap PricingResult.coverageSet ∧
      price.cashLines = pieces.flatMap PricingResult.cashLines ∧
      price.cashRemainder = ⟨currency, (pieces.map fun piece => piece.cashRemainder.minorUnits).sum⟩ ∧
      price.currentContractAmount = price.cashRemainder := by
  simp only [joinPieces, bind_eq_ok, require_eq_ok, pure_eq_ok] at h
  obtain ⟨_, -, rfl⟩ := h
  exact ⟨rfl, rfl, rfl, rfl⟩

theorem lineTotalMinor_append (lines more : List CashLine) :
    lineTotalMinor (lines ++ more) = lineTotalMinor lines + lineTotalMinor more := by
  simp [lineTotalMinor]

theorem lineTotalMinor_nonneg {lines : List CashLine} (h : ∀ line ∈ lines, 0 ≤ line.amount.minorUnits) :
    0 ≤ lineTotalMinor lines := by
  refine List.sum_nonneg fun amount hAmount => ?_
  obtain ⟨line, hLine, rfl⟩ := List.mem_map.mp hAmount
  exact h line hLine

theorem pieces_total {policy : PricingPolicy} {pieces : List PricingResult}
    (h : ∀ piece ∈ pieces, NightlyPrice policy piece) :
    (pieces.map fun piece => piece.cashRemainder.minorUnits).sum = lineTotalMinor (pieces.flatMap PricingResult.cashLines) := by
  induction pieces with
  | nil => rfl
  | cons piece pieces ih =>
    obtain ⟨hPiece, hPieces⟩ := List.forall_mem_cons.mp h
    rw [List.map_cons, List.sum_cons, List.flatMap_cons, lineTotalMinor_append, ih hPieces, hPiece.total]

theorem calculatePricing_nightly (input : PricingInput) {unit : PricedUnit} {price : PricingResult}
    (hKind : input.policy.calculationKind ≠ .durationBandTotal) (h : calculatePricing input unit = .ok price) :
    approvedPolicyShape input.stayType input.policy = true ∧ nightlyPricing input unit = .ok price := by
  simp only [calculatePricing, bind_eq_ok, require_eq_ok, if_neg hKind] at h
  obtain ⟨_, hShape, hPrice⟩ := h
  exact ⟨hShape, hPrice⟩

namespace Hotel

variable {request : StayPricingRequest} {policy : PricingPolicy} {candidates : List CoverageCandidate}

theorem priceRun_eq_ok {run : TimelineRun} {piece : PricingResult}
    (h : hotel.priceRun cat request policy candidates run = .ok piece) : ∃ unit : InventoryUnit, unit.id = run.inventoryUnitId ∧
      calculatePricing (request.input policy (candidates.filter fun candidate =>
        run.arrivalDate ≤ candidate.serviceDate && candidate.serviceDate < run.departureDate) run.arrivalDate
          run.departureDate) ⟨unit.id, unit.kind, unit.details.pricingProductCode⟩ = .ok piece := by
  simp only [priceRun, loadInventoryUnit, bind_eq_ok, expect_eq_ok, pure_eq_ok, mapError_eq_ok] at h
  obtain ⟨unit, ⟨details, -, rfl⟩, hPiece⟩ := h
  exact ⟨_, rfl, hPiece⟩

theorem priceRun_nightly (hKind : policy.calculationKind ≠ .durationBandTotal) {run : TimelineRun} {piece : PricingResult}
    (h : hotel.priceRun cat request policy candidates run = .ok piece) :
    approvedPolicyShape request.identity.stayType policy = true ∧ NightlyPrice policy piece := by
  obtain ⟨unit, -, hPiece⟩ := priceRun_eq_ok h
  obtain ⟨hShape, hNightly⟩ := calculatePricing_nightly (request.input ..) hKind hPiece
  exact ⟨hShape, nightlyPricing_price rfl hNightly⟩

theorem priceRun_plain (hKind : policy.calculationKind ≠ .durationBandTotal) {run : TimelineRun} {piece : PricingResult}
    (h : hotel.priceRun cat request policy [] run = .ok piece) : piece.coverageSet = [] ∧
      ∃ rate, policy.nightlyRateMinor = some rate ∧ 0 ≤ rate ∧ piece.cashLines = nightLines policy rate run.items := by
  obtain ⟨unit, hUnit, hPiece⟩ := priceRun_eq_ok h
  obtain ⟨-, hNightly⟩ := calculatePricing_nightly (request.input ..) hKind hPiece
  obtain ⟨hNone, rate, hRate, hNonneg, hLines⟩ := nightlyPricing_plain rfl rfl hNightly
  have hItems : nightItems unit.id run.arrivalDate run.departureDate = run.items := by
    rw [hUnit]
    rfl
  exact ⟨hNone, rate, hRate, hNonneg, hLines.trans (congrArg (nightLines policy rate) hItems)⟩

theorem priceRuns_plain (hKind : policy.calculationKind ≠ .durationBandTotal) {rate : Int}
    (hRate : policy.nightlyRateMinor = some rate) {runs : List TimelineRun} {pieces : List PricingResult}
    (h : List.Forall₂ (fun run piece => hotel.priceRun cat request policy [] run = .ok piece) runs pieces) :
    pieces.flatMap PricingResult.coverageSet = [] ∧
      pieces.flatMap PricingResult.cashLines = nightLines policy rate (runs.flatMap TimelineRun.items) := by
  induction h with
  | nil => exact ⟨rfl, rfl⟩
  | cons hPiece _ ih =>
    obtain ⟨hNone, other, hOther, -, hLines⟩ := priceRun_plain hKind hPiece
    obtain rfl : other = rate := by
      rw [hOther] at hRate
      exact Option.some.inj hRate
    rw [List.flatMap_cons, List.flatMap_cons, List.flatMap_cons, hNone, hLines, ih.1, ih.2, nightLines, nightLines,
      nightLines, List.map_append]
    exact ⟨rfl, rfl⟩

/-! ## The price of a stay -/

structure StayPriced (cat : UnitCatalog) (hotel : Hotel) (request : StayPricingRequest) (timeline : List TimelineUnit)
    (first : TimelineUnit) (candidates : List CoverageCandidate) (policy : PricingPolicy) (price : PricingResult) :
    Prop where
  free : request.identity.stayType = .free → request.identity.memberStay = false
  interval : request.stay.arrivalDate < request.stay.departureDate ∧
    request.stay.departureDate - request.stay.arrivalDate ≤ 366
  dates : request.stay.stayTimeline.map StayTimelineItem.serviceDate =
    serviceDates request.stay.arrivalDate request.stay.departureDate
  loaded : hotel.loadTimeline cat request.stay.stayTimeline = .ok timeline
  head : timeline.head? = some first
  units : assertMemberUnits request.identity first.unit timeline = .ok ()
  allocated : hotel.stayCandidates request first.unit
    (serviceDates request.stay.arrivalDate request.stay.departureDate) = .ok candidates
  price : (policy.calculationKind = .durationBandTotal ∧ calculateDurationTimelinePricing
      (request.input policy candidates request.stay.arrivalDate request.stay.departureDate)
      (timeline.map TimelineUnit.priced) = .ok price) ∨
    (policy.calculationKind ≠ .durationBandTotal ∧ ∃ pieces,
      List.Forall₂ (fun run piece => hotel.priceRun cat request policy candidates run = .ok piece)
        (timelineRuns request.stay.stayTimeline) pieces ∧ joinPieces policy.currency pieces = .ok price)

theorem priceStayTimeline_eq_ok {price : PricingResult} (h : hotel.priceStayTimeline cat request = .ok price) :
    ∃ timeline first candidates policy, hotel.loadPricingPolicy request.policyVersionId true = .ok policy ∧
      hotel.StayPriced cat request timeline first candidates policy price := by
  simp only [priceStayTimeline, bind_eq_ok, require_eq_ok, expect_eq_ok, mapError_eq_ok,
    enumerateServiceDates_eq_ok] at h
  obtain ⟨_, hFree, dates, ⟨hOpen, hLength, rfl⟩, _, hDates, timeline, hLoaded, first, hFirst, ⟨⟩, hUnits, candidates,
    hCandidates, policy, hPolicy, hPrice⟩ := h
  refine ⟨timeline, first, candidates, policy, hPolicy, hFree, ⟨hOpen, hLength⟩, hDates, hLoaded, hFirst, hUnits,
    hCandidates, ?_⟩
  split at hPrice
  case isTrue hKind =>
    rw [mapError_eq_ok] at hPrice
    exact .inl ⟨hKind, hPrice⟩
  case isFalse hKind =>
    rw [bind_eq_ok] at hPrice
    obtain ⟨pieces, hPieces, hJoin⟩ := hPrice
    exact .inr ⟨hKind, pieces, mapM_eq_ok.mp hPieces, hJoin⟩

theorem loadTimeline_eq_ok {items : List StayTimelineItem} {timeline : List TimelineUnit}
    (h : hotel.loadTimeline cat items = .ok timeline) :
    timeline.map (fun item => (⟨item.serviceDate, item.unit.id⟩ : StayTimelineItem)) = items := by
  rw [loadTimeline, mapM_eq_ok] at h
  induction h with
  | nil => rfl
  | cons hItem _ ih =>
    simp only [loadInventoryUnit, bind_eq_ok, expect_eq_ok, pure_eq_ok] at hItem
    obtain ⟨unit, ⟨details, -, rfl⟩, rfl⟩ := hItem
    rw [List.map_cons, ih]

variable {timeline : List TimelineUnit} {first : TimelineUnit} {price : PricingResult}

theorem priceRuns_nightly (hKind : policy.calculationKind ≠ .durationBandTotal) {runs : List TimelineRun}
    {pieces : List PricingResult}
    (h : List.Forall₂ (fun run piece => hotel.priceRun cat request policy candidates run = .ok piece) runs pieces) :
    ∀ piece ∈ pieces, approvedPolicyShape request.identity.stayType policy = true ∧ NightlyPrice policy piece := by
  induction h with
  | nil => exact fun _ hNone => absurd hNone List.not_mem_nil
  | cons hPiece _ ih => exact List.forall_mem_cons.mpr ⟨priceRun_nightly hKind hPiece, ih⟩

structure NightlyStay (policy : PricingPolicy) (price : PricingResult) : Prop where
  contract : price.currentContractAmount = price.cashRemainder
  remainder : price.cashRemainder = ⟨policy.currency, lineTotalMinor price.cashLines⟩
  nonneg : ∀ line ∈ price.cashLines, 0 ≤ line.amount.minorUnits
  free : policy.calculationKind = .free → ∀ line ∈ price.cashLines, line.amount.minorUnits = 0

theorem joinPieces_nightly {pieces : List PricingResult} (h : ∀ piece ∈ pieces, NightlyPrice policy piece)
    (hJoin : joinPieces policy.currency pieces = .ok price) : NightlyStay policy price := by
  obtain ⟨-, hLines, hCash, hContract⟩ := joinPieces_eq_ok hJoin
  refine ⟨hContract, by rw [hCash, pieces_total h, hLines], fun line hLine => ?_, fun hFree line hLine => ?_⟩
  · rw [hLines, List.mem_flatMap] at hLine
    obtain ⟨piece, hPiece, hLine⟩ := hLine
    exact (h piece hPiece).nonneg line hLine
  · rw [hLines, List.mem_flatMap] at hLine
    obtain ⟨piece, hPiece, hLine⟩ := hLine
    exact (h piece hPiece).free hFree line hLine

theorem NightlyStay.unadjusted (h : NightlyStay policy price) : Unadjusted price :=
  ⟨h.contract, by
    rw [h.remainder]
    exact lineTotalMinor_nonneg h.nonneg⟩

theorem StayPriced.unadjusted (h : hotel.StayPriced cat request timeline first candidates policy price) :
    Unadjusted price := by
  obtain ⟨-, hPrice⟩ | ⟨hKind, pieces, hPieces, hJoin⟩ := h.price
  · exact calculateDurationTimelinePricing_unadjusted rfl hPrice
  · exact (joinPieces_nightly (fun piece hPiece => (priceRuns_nightly hKind hPieces piece hPiece).2) hJoin).unadjusted

theorem approvedPolicyShape_free {policy : PricingPolicy} (h : approvedPolicyShape .free policy = true) :
    policy.calculationKind = .free := by
  simp only [approvedPolicyShape, Bool.or_eq_true, Bool.and_eq_true, decide_eq_true_eq] at h
  obtain (⟨⟨hType, -⟩, -⟩ | ⟨⟨-, hKind⟩, -⟩) | ⟨⟨hType, -⟩, -⟩ := h
  · cases hType
  · exact hKind
  · exact absurd rfl hType

theorem StayPriced.free_zero (h : hotel.StayPriced cat request timeline first candidates policy price)
    (hFree : request.identity.stayType = .free) : price.cashRemainder.minorUnits = 0 := by
  obtain ⟨-, hPrice⟩ | ⟨hKind, pieces, hPieces, hJoin⟩ := h.price
  · simp only [calculateDurationTimelinePricing, bind_eq_ok, require_eq_ok] at hPrice
    obtain ⟨_, hPaid, -⟩ := hPrice
    exact absurd hFree hPaid.1
  · have hNightly := priceRuns_nightly hKind hPieces
    have hStay := joinPieces_nightly (fun piece hPiece => (hNightly piece hPiece).2) hJoin
    cases pieces with
    | nil =>
      obtain ⟨-, -, hCash, -⟩ := joinPieces_eq_ok hJoin
      rw [hCash]
      rfl
    | cons piece rest =>
      have hShape := (hNightly piece List.mem_cons_self).1
      rw [hFree] at hShape
      rw [hStay.remainder]
      refine List.sum_eq_zero fun amount hAmount => ?_
      obtain ⟨line, hLine, rfl⟩ := List.mem_map.mp hAmount
      exact hStay.free (approvedPolicyShape_free hShape) line hLine

theorem stayCandidates_guest (hGuest : request.identity.memberStay = false)
    (hNone : ∀ c ∈ hotel.entitlement.coverage, c.orderId ≠ request.orderId) {first : InventoryUnit} {dates : List Nat}
    (h : hotel.stayCandidates request first dates = .ok candidates) : candidates = [] := by
  have hPreserved : hotel.entitlement.candidatesOn request.orderId dates = [] := by
    rw [candidatesOn, activeCoverageCandidates, activeCoverage, ofOrder_nil hNone]
    rfl
  have hMember : request.identity.memberId = none := by
    cases hId : request.identity.memberId with
    | none => rfl
    | some memberId => simp [OrderIdentity.memberStay, hId] at hGuest
  have hContract : request.identity.memberContractId = none := by
    cases hId : request.identity.memberContractId with
    | none => rfl
    | some contractId => simp [OrderIdentity.memberStay, hId] at hGuest
  simp only [stayCandidates, hPreserved, bind_eq_ok, pure_eq_ok, List.filter_nil, List.nil_append] at h
  obtain ⟨allocated, hAllocated, rfl⟩ := h
  suffices hNil : allocated = [] by
    rw [hNil]
    rfl
  unfold allocateUnlessPreserved at hAllocated
  split at hAllocated
  · injection hAllocated with hEq
    exact hEq.symm
  · rw [allocateCoverage, hMember, hContract] at hAllocated
    injection hAllocated with hEq
    exact hEq.symm

theorem StayPriced.plain (h : hotel.StayPriced cat request timeline first candidates policy price)
    (hPolicy : policy.Published) (hGuest : request.identity.memberStay = false)
    (hNone : ∀ c ∈ hotel.entitlement.coverage, c.orderId ≠ request.orderId) :
    PlainPrice price request.stay.stayTimeline := by
  obtain rfl := stayCandidates_guest hGuest hNone h.allocated
  obtain ⟨-, hPrice⟩ | ⟨hKind, pieces, hPieces, hJoin⟩ := h.price
  · have hPlain := calculateDurationTimelinePricing_plain hPolicy rfl hGuest rfl hPrice
    rw [List.map_map] at hPlain
    exact loadTimeline_eq_ok h.loaded ▸ hPlain
  · have hStay := joinPieces_nightly (fun piece hPiece => (priceRuns_nightly hKind hPieces piece hPiece).2) hJoin
    obtain ⟨hCovered, hLines, -⟩ := joinPieces_eq_ok hJoin
    have hRuns : timelineRuns request.stay.stayTimeline ≠ [] := by
      intro hNil
      have hItems := (timelineRuns_items request.stay.stayTimeline).1
      rw [hNil, List.flatMap_nil] at hItems
      have hDates := h.dates
      rw [← hItems, serviceDates_cons h.interval.1] at hDates
      cases hDates
    obtain ⟨run, runs, hCons⟩ := List.exists_cons_of_ne_nil hRuns
    rw [hCons] at hPieces
    obtain ⟨piece, rest, hPiece, -, rfl⟩ := List.forall₂_cons_left_iff.mp hPieces
    obtain ⟨-, rate, hRate, hNonneg, -⟩ := priceRun_plain hKind hPiece
    obtain ⟨hNil, hNights⟩ := priceRuns_plain hKind hRate hPieces
    rw [← hCons, (timelineRuns_items request.stay.stayTimeline).1, ← hLines] at hNights
    refine ⟨hCovered.trans hNil, hStay.unadjusted.nonneg, hStay.contract, fun hMax => ?_⟩
    rw [hStay.remainder] at hMax ⊢
    rw [hNights] at hMax ⊢
    refine nightLines_checked hNonneg (fun hEmpty => ?_) ?_ hMax
    · have hDates := h.dates
      rw [hEmpty, serviceDates_cons h.interval.1] at hDates
      cases hDates
    · rw [h.dates]
      exact serviceDates_nodup ..

end Hotel

end GreenPms
