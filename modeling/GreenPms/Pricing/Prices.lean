import GreenPms.Pricing.Agreement

/-! # What the calculations return

Without an adjustment the contract amount of a price is its cash remainder. A price without member
rights has lines that the checks accept for its timeline, and a free stay costs nothing.
-/

namespace GreenPms

open Checked

/-- A price without member rights: its lines are checked to its whole amount. -/
structure PlainPrice (price : PricingResult) (timeline : List StayTimelineItem) : Prop where
  uncovered : price.coverageSet = []
  nonneg : 0 ≤ price.cashRemainder.minorUnits
  unadjusted : price.currentContractAmount = price.cashRemainder
  lines : price.cashRemainder.minorUnits ≤ 2147483647 →
    ordinaryStayCashLineTotalMinor price.cashLines price.cashRemainder.currency timeline =
      some price.cashRemainder.minorUnits

structure Unadjusted (price : PricingResult) : Prop where
  contract : price.currentContractAmount = price.cashRemainder
  nonneg : 0 ≤ price.cashRemainder.minorUnits

variable {input : PricingInput} {timeline : List PricingTimelineItem} {unit : PricedUnit} {price : PricingResult}

theorem coverTimeline_nil (timeline : List PricingTimelineItem) : coverTimeline [] timeline = .ok [] := by
  induction timeline with
  | nil => rfl
  | cons item rest ih => rw [coverTimeline, candidateOn, List.find?_nil, ih]

theorem memberPricing_unadjusted {covered : List CoveredNight} (h : memberPricing input timeline covered 0 = .ok price) :
    Unadjusted price := by
  simp only [memberPricing, bind_eq_ok, applyManualAdjustment_eq_ok, pure_eq_ok] at h
  obtain ⟨lines, -, target, ⟨rfl, hTarget, -⟩, rfl⟩ := h
  rw [Int.add_zero] at hTarget ⊢
  exact ⟨rfl, hTarget⟩

theorem bandPricing_unadjusted {covered : List CoveredNight} {nights : Nat}
    (h : bandPricing input timeline nights covered 0 = .ok price) : Unadjusted price := by
  simp only [bandPricing, bind_eq_ok, applyManualAdjustment_eq_ok, pure_eq_ok] at h
  obtain ⟨segments, -, _, -, _, -, target, ⟨rfl, hTarget, -⟩, first, -, rfl⟩ := h
  rw [Int.add_zero] at hTarget ⊢
  exact ⟨rfl, hTarget⟩

theorem bandPricing_plain (hPolicy : input.policy.Published)
    (h : bandPricing input timeline (serviceDates input.arrivalDate input.departureDate).length [] 0 =
      .ok price)
    (hDates : timeline.map PricingTimelineItem.serviceDate = serviceDates input.arrivalDate input.departureDate)
    (hStay : input.arrivalDate < input.departureDate ∧ input.departureDate - input.arrivalDate ≤ 366) :
    PlainPrice price (timeline.map PricingTimelineItem.stay) := by
  have hUnadjusted := bandPricing_unadjusted h
  simp only [bandPricing, bind_eq_ok, applyManualAdjustment_eq_ok, pure_eq_ok, expect_eq_ok] at h
  obtain ⟨segments, hSegments, _, -, _, -, target, -, first, hFirst, rfl⟩ := h
  obtain ⟨hOk, hItems⟩ := segments_cover hSegments
  refine ⟨rfl, hUnadjusted.nonneg, hUnadjusted.contract, fun hMax => ?_⟩
  have hHead : (timeline.map PricingTimelineItem.stay).head? = some first.stay := by
    rw [List.head?_map, hFirst, Option.map_some]
  have hStayDates : (timeline.map PricingTimelineItem.stay).map StayTimelineItem.serviceDate =
      serviceDates input.arrivalDate input.departureDate := by
    rwa [List.map_map]
  have hText : validText "Accommodation total from locked duration band" = true := by decide
  have hChecked := stayTotal_checked input.policy.currency hStayDates hStay hHead hText hPolicy hOk hItems rfl hMax
  exact hChecked

theorem calculateDurationTimelinePricing_unadjusted (hManual : input.manualAdjustmentMinor = 0)
    (h : calculateDurationTimelinePricing input timeline = .ok price) : Unadjusted price := by
  simp only [calculateDurationTimelinePricing, bind_eq_ok, require_eq_ok, validateManualAdjustment_eq_ok, hManual] at h
  obtain ⟨_, -, _, -, _, -, _, ⟨-, rfl⟩, dates, -, _, -, _, -, covered, -, hPrice⟩ := h
  split at hPrice
  · exact memberPricing_unadjusted hPrice
  · exact bandPricing_unadjusted hPrice

theorem calculateDurationTimelinePricing_plain (hPolicy : input.policy.Published) (hManual : input.manualAdjustmentMinor = 0)
    (hMember : input.memberCoverage = false) (hCandidates : input.coverageCandidates = [])
    (h : calculateDurationTimelinePricing input timeline = .ok price) :
    PlainPrice price (timeline.map PricingTimelineItem.stay) := by
  simp only [calculateDurationTimelinePricing, bind_eq_ok, require_eq_ok, validateManualAdjustment_eq_ok, hManual,
    hMember, hCandidates, coverTimeline_nil, enumerateServiceDates_eq_ok] at h
  obtain ⟨_, -, _, -, _, -, _, ⟨-, rfl⟩, _, ⟨hArrival, hNights, rfl⟩, _, hDates, _, -, _, ⟨⟩, hPrice⟩ := h
  rw [if_neg (by simp)] at hPrice
  exact bandPricing_plain hPolicy hPrice hDates ⟨hArrival, hNights⟩

/-! ## Nights of one unit -/

def nightItems (unitId arrivalDate departureDate : Nat) : List StayTimelineItem :=
  (serviceDates arrivalDate departureDate).map fun date => ⟨date, unitId⟩

theorem unitTimeline_stay (unit : PricedUnit) (arrivalDate departureDate : Nat) :
    (unitTimeline unit (serviceDates arrivalDate departureDate)).map PricingTimelineItem.stay =
      nightItems unit.inventoryUnitId arrivalDate departureDate := by
  rw [unitTimeline, List.map_map]
  rfl

/-- A nightly price: every night that is not covered at the rate of the policy. -/
structure NightlyPrice (policy : PricingPolicy) (price : PricingResult) : Prop where
  unadjusted : price.currentContractAmount = price.cashRemainder
  currency : price.cashRemainder.currency = policy.currency
  total : price.cashRemainder.minorUnits = lineTotalMinor price.cashLines
  nonneg : ∀ line ∈ price.cashLines, 0 ≤ line.amount.minorUnits
  free : policy.calculationKind = .free → ∀ line ∈ price.cashLines, line.amount.minorUnits = 0

theorem nightlyPricing_price (hManual : input.manualAdjustmentMinor = 0) (h : nightlyPricing input unit = .ok price) :
    NightlyPrice input.policy price := by
  simp only [nightlyPricing, bind_eq_ok, require_eq_ok, expect_eq_ok, validateManualAdjustment_eq_ok,
    applyManualAdjustment_eq_ok, pure_eq_ok, hManual] at h
  obtain ⟨_, -, _, -, _, -, _, ⟨-, rfl⟩, _, -, rate, -, _, hRate, _, hFree, covered, -, _, ⟨rfl, -, -⟩, rfl⟩ := h
  constructor
  case unadjusted => simp only [Int.add_zero]
  case currency => rfl
  case total => rfl
  case nonneg =>
    intro line hLine
    obtain ⟨item, -, rfl⟩ := List.mem_map.mp hLine
    exact (nightlyCashLine_fields input.policy rate ⟨item.serviceDate, unit.inventoryUnitId⟩ hRate).2.2.2.2
  case free =>
    intro hKind line hLine
    obtain ⟨item, -, rfl⟩ := List.mem_map.mp hLine
    simp [nightlyCashLine, hKind, CashLine.amount]

theorem nightlyPricing_plain (hManual : input.manualAdjustmentMinor = 0) (hCandidates : input.coverageCandidates = [])
    (h : nightlyPricing input unit = .ok price) :
    price.coverageSet = [] ∧ ∃ rate, input.policy.nightlyRateMinor = some rate ∧ 0 ≤ rate ∧
      price.cashLines = nightLines input.policy rate
        (nightItems unit.inventoryUnitId input.arrivalDate input.departureDate) := by
  simp only [nightlyPricing, bind_eq_ok, require_eq_ok, expect_eq_ok, validateManualAdjustment_eq_ok,
    applyManualAdjustment_eq_ok, pure_eq_ok, hManual, hCandidates, coverTimeline_nil, enumerateServiceDates_eq_ok] at h
  obtain ⟨_, ⟨-, -, rfl⟩, _, -, _, -, _, -, _, -, rate, hNightly, _, hRate, _, -, _, ⟨⟩, _, -, rfl⟩ := h
  refine ⟨rfl, rate, hNightly, hRate, ?_⟩
  have hAll : (unitTimeline unit (serviceDates input.arrivalDate input.departureDate)).filter (uncovered []) =
      unitTimeline unit (serviceDates input.arrivalDate input.departureDate) :=
    List.filter_eq_self.mpr fun _ _ => rfl
  rw [hAll, unitTimeline, List.map_map, nightLines, nightItems, List.map_map]
  rfl

end GreenPms
