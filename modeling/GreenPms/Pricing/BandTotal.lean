import Mathlib.Algebra.BigOperators.Ring.Finset
import GreenPms.Library.Rounding
import GreenPms.Pricing.Prices

/-! # The total of a stay by its band

A stay without member rights costs the exact sum of its nights, each at the anchor of its product
over the nights of the band, rounded half up once to a whole yuan. The segments of the stored line
are a partition of the nights, and their numerators over the band are the amount that is rounded.
-/

namespace GreenPms

open Checked Rounding

/-- What the locked table has for a night of the product in the band. -/
def bandAnchor (policy : PricingPolicy) (band : DurationBandAnchorNights) (productCode : Option Nat) : Nat :=
  ((productCode.bind policy.productAnchorRatesMinor).map fun anchors => anchors.minor band).getD 0

def exactStayMinor (policy : PricingPolicy) (productCodes : List (Option Nat)) : ℚ :=
  let band := durationBandAnchorNights productCodes.length
  (productCodes.map fun code => (bandAnchor policy band code : ℚ) / band.nights).sum

def wholeYuanHalfUp (minor : ℚ) : Int := round (minor / 100) * 100

def referenceTotalMinor (policy : PricingPolicy) (productCodes : List (Option Nat)) : Int :=
  wholeYuanHalfUp (exactStayMinor policy productCodes)

/-- Segments that are disjoint, follow each other and are the nights of a stay. -/
structure SegmentsPartition (arrivalDate departureDate : Nat) (segments : List CalculationSegment) : Prop where
  nonempty : ∀ s ∈ segments, s.arrivalDate < s.departureDate ∧ s.nights = s.departureDate - s.arrivalDate
  contiguous : segments.IsChain fun s t => s.departureDate = t.arrivalDate
  dates : segments.flatMap (fun s => serviceDates s.arrivalDate s.departureDate) = serviceDates arrivalDate departureDate

theorem exactStayMinor_perm {policy : PricingPolicy} {codes others : List (Option Nat)} (h : codes.Perm others) :
    exactStayMinor policy codes = exactStayMinor policy others := by
  simp only [exactStayMinor, h.length_eq]
  exact (h.map _).sum_eq

theorem bandAnchor_congr {policy other : PricingPolicy}
    (h : policy.productAnchorRatesMinor = other.productAnchorRatesMinor) : bandAnchor policy = bandAnchor other := by
  funext band productCode
  rw [bandAnchor, bandAnchor, h]

theorem roundedMinor_eq {numerator denominator : Nat} (h : 0 < denominator) :
    (roundedMinor numerator denominator : Int) = wholeYuanHalfUp ((numerator : ℚ) / denominator) := by
  have hRound := halfUp_eq_round (n := numerator) (Nat.mul_pos h (by decide : 0 < 100))
  rw [Nat.cast_mul, Nat.cast_ofNat, ← div_div] at hRound
  rw [roundedMinor, wholeYuanHalfUp, ← hRound, Nat.cast_mul]
  rfl

section

variable {policy : PricingPolicy} {band : DurationBandAnchorNights} {segments : List CalculationSegment}

theorem CalculationSegment.Ok.numerator_eq {s : CalculationSegment} (h : s.Ok policy band) :
    s.numeratorMinor = (s.pricedNights.map fun night => bandAnchor policy band night.pricingProductCode).sum := by
  obtain ⟨anchors, hAnchors, hAmount⟩ := h.anchors
  have hAnchor : bandAnchor policy band (some s.pricingProductCode) = s.anchorAmountMinor := by
    rw [bandAnchor, (requireDurationAnchors_eq_ok.mp hAnchors).1, hAmount]
    rfl
  rw [h.numerator, h.nights, pricedNights, items, List.map_map, List.map_map]
  simp [Function.comp_def, hAnchor]

theorem numerators_eq (h : ∀ s ∈ segments, s.Ok policy band) :
    (segments.map CalculationSegment.numeratorMinor).sum =
      ((segments.flatMap CalculationSegment.pricedNights).map fun night =>
        bandAnchor policy band night.pricingProductCode).sum := by
  induction segments with
  | nil => rfl
  | cons s rest ih =>
    obtain ⟨hs, hRest⟩ := List.forall_mem_cons.mp h
    rw [List.map_cons, List.sum_cons, List.flatMap_cons, List.map_append, List.sum_append, hs.numerator_eq, ih hRest]

theorem segmentsPartition {arrivalDate departureDate : Nat} (h : ∀ s ∈ segments, s.Ok policy band)
    (hDates : segments.flatMap (fun s => serviceDates s.arrivalDate s.departureDate) =
      serviceDates arrivalDate departureDate) :
    SegmentsPartition arrivalDate departureDate segments := by
  refine ⟨fun s hs => ⟨(h s hs).nonempty, (h s hs).nights⟩, ?_, hDates⟩
  induction segments generalizing arrivalDate with
  | nil => exact .nil
  | cons s rest ih =>
    obtain ⟨hs, hRest⟩ := List.forall_mem_cons.mp h
    rw [List.flatMap_cons] at hDates
    obtain ⟨-, -, hTail⟩ := serviceDates_append_inv hs.nonempty hDates
    cases rest with
    | nil => exact .singleton _
    | cons t more =>
      refine List.isChain_cons_cons.mpr ⟨?_, ih hRest hTail⟩
      rw [List.flatMap_cons] at hTail
      exact (serviceDates_append_inv (hRest t List.mem_cons_self).nonempty hTail).1.symm

end

section

variable {input : PricingInput} {timeline : List PricingTimelineItem} {price : PricingResult}

structure StayTotalPrice (input : PricingInput) (timeline : List PricingTimelineItem) (price : PricingResult)
    (segments : List CalculationSegment) : Prop where
  uncovered : price.coverageSet = []
  line : ∃ first ∈ timeline.head?, price.cashLines = [.stayTotal input.arrivalDate input.departureDate
    first.inventoryUnitId "Accommodation total from locked duration band" (durationBandAnchorNights timeline.length)
    segments price.cashRemainder]
  total : price.cashRemainder.minorUnits =
    roundedMinor (segments.map CalculationSegment.numeratorMinor).sum (durationBandAnchorNights timeline.length).nights
  ok : ∀ s ∈ segments, s.Ok input.policy (durationBandAnchorNights timeline.length)
  nights : segments.flatMap CalculationSegment.pricedNights = timeline.map PricingTimelineItem.night
  dates : timeline.map PricingTimelineItem.serviceDate = serviceDates input.arrivalDate input.departureDate
  contract : price.currentContractAmount.minorUnits = price.cashRemainder.minorUnits + input.manualAdjustmentMinor
  nonneg : 0 ≤ price.currentContractAmount.minorUnits

theorem stayTotalPrice (h : calculateDurationTimelinePricing input timeline = .ok price)
    (hGuest : input.memberCoverage = false) (hUncovered : input.coverageCandidates = []) :
    ∃ segments, StayTotalPrice input timeline price segments := by
  simp only [calculateDurationTimelinePricing, bind_eq_ok, require_eq_ok, validateManualAdjustment_eq_ok, hGuest,
    hUncovered, coverTimeline_nil, enumerateServiceDates_eq_ok] at h
  obtain ⟨_, -, _, -, _, -, _, ⟨-, rfl⟩, _, ⟨-, -, rfl⟩, _, hDates, _, -, _, ⟨⟩, hPrice⟩ := h
  have hLength : (serviceDates input.arrivalDate input.departureDate).length = timeline.length := by
    rw [← hDates, List.length_map]
  rw [if_neg (by simp), hLength] at hPrice
  simp only [bandPricing, bind_eq_ok, applyManualAdjustment_eq_ok, pure_eq_ok, expect_eq_ok] at hPrice
  obtain ⟨segments, hSegments, _, -, _, -, target, ⟨rfl, hTarget, -⟩, first, hFirst, rfl⟩ := hPrice
  obtain ⟨hOk, hNights⟩ := segments_nights hSegments
  exact ⟨segments, rfl, ⟨first, hFirst, rfl⟩, rfl, hOk, hNights, hDates, rfl, hTarget⟩

variable {segments : List CalculationSegment}

theorem StayTotalPrice.partition (h : StayTotalPrice input timeline price segments) :
    SegmentsPartition input.arrivalDate input.departureDate segments := by
  apply segmentsPartition h.ok
  have hDates := congrArg (List.map fun night => night.stay.serviceDate) h.nights
  rw [List.map_map, List.map_flatMap] at hDates
  rw [← h.dates]
  simpa [CalculationSegment.pricedNights, CalculationSegment.items, Function.comp_def, PricingTimelineItem.night,
    PricingTimelineItem.stay] using hDates

theorem StayTotalPrice.exact (h : StayTotalPrice input timeline price segments) :
    ((segments.map CalculationSegment.numeratorMinor).sum : ℚ) / (durationBandAnchorNights timeline.length).nights =
      exactStayMinor input.policy (timeline.map PricingTimelineItem.inventoryProductCode) := by
  rw [numerators_eq h.ok, h.nights, exactStayMinor, List.length_map, Nat.cast_list_sum]
  simp only [List.map_map, Function.comp_def, PricingTimelineItem.night, div_eq_mul_inv, List.sum_map_mul_right]

theorem StayTotalPrice.reference (h : StayTotalPrice input timeline price segments) :
    price.cashRemainder.minorUnits =
      referenceTotalMinor input.policy (timeline.map PricingTimelineItem.inventoryProductCode) := by
  rw [referenceTotalMinor, ← h.exact, h.total, roundedMinor_eq (band_pos _)]

theorem StayTotalPrice.priced (h : StayTotalPrice input timeline price segments) {item : PricingTimelineItem}
    (hItem : item ∈ timeline) :
    ∃ anchors, requireDurationAnchors input.policy item.inventoryProductCode = .ok anchors := by
  have hNight : item.night ∈ segments.flatMap CalculationSegment.pricedNights :=
    h.nights ▸ List.mem_map_of_mem hItem
  obtain ⟨s, hs, hMem⟩ := List.mem_flatMap.mp hNight
  obtain ⟨stay, -, hEq⟩ := List.mem_map.mp hMem
  obtain ⟨anchors, hAnchors, -⟩ := (h.ok s hs).anchors
  have hCode : some s.pricingProductCode = item.inventoryProductCode := congrArg PricedNight.pricingProductCode hEq
  exact ⟨anchors, hCode ▸ hAnchors⟩

/-- The stay total of an accepted timeline without member coverage is the reference price. -/
theorem stay_total_is_reference_price (h : calculateDurationTimelinePricing input timeline = .ok price)
    (hGuest : input.memberCoverage = false) (hUncovered : input.coverageCandidates = []) :
    price.cashRemainder.minorUnits =
        referenceTotalMinor input.policy (timeline.map PricingTimelineItem.inventoryProductCode) ∧
      price.coverageSet = [] ∧
      (∀ item ∈ timeline, ∃ anchors, requireDurationAnchors input.policy item.inventoryProductCode = .ok anchors) ∧
      (∃ segments, ∃ first ∈ timeline.head?,
        price.cashLines = [.stayTotal input.arrivalDate input.departureDate first.inventoryUnitId
          "Accommodation total from locked duration band" (durationBandAnchorNights timeline.length) segments
          price.cashRemainder] ∧
        SegmentsPartition input.arrivalDate input.departureDate segments ∧
        segments.flatMap CalculationSegment.pricedNights = timeline.map PricingTimelineItem.night ∧
        (∀ s ∈ segments, s.denominator = durationBandAnchorNights timeline.length) ∧
        ((segments.map CalculationSegment.numeratorMinor).sum : ℚ) / (durationBandAnchorNights timeline.length).nights =
          exactStayMinor input.policy (timeline.map PricingTimelineItem.inventoryProductCode)) ∧
      ∀ other otherTimeline otherPrice, calculateDurationTimelinePricing other otherTimeline = .ok otherPrice →
        other.memberCoverage = false → other.coverageCandidates = [] →
        other.policy.productAnchorRatesMinor = input.policy.productAnchorRatesMinor →
        (otherTimeline.map PricingTimelineItem.inventoryProductCode).Perm
          (timeline.map PricingTimelineItem.inventoryProductCode) →
        otherPrice.cashRemainder.minorUnits = price.cashRemainder.minorUnits := by
  obtain ⟨segments, hPrice⟩ := stayTotalPrice h hGuest hUncovered
  obtain ⟨first, hFirst, hLine⟩ := hPrice.line
  refine ⟨hPrice.reference, hPrice.uncovered, fun item hItem => hPrice.priced hItem, ⟨segments, first, hFirst, hLine,
    hPrice.partition, hPrice.nights, fun s hs => (hPrice.ok s hs).denominator, hPrice.exact⟩, ?_⟩
  intro other otherTimeline otherPrice hOther hOtherGuest hOtherUncovered hTable hCodes
  obtain ⟨otherSegments, hOtherPrice⟩ := stayTotalPrice hOther hOtherGuest hOtherUncovered
  have hExact : exactStayMinor other.policy = exactStayMinor input.policy := by
    funext codes
    simp only [exactStayMinor, bandAnchor_congr hTable]
  rw [hOtherPrice.reference, hPrice.reference, referenceTotalMinor, referenceTotalMinor, hExact,
    exactStayMinor_perm hCodes]

end

/-! ## Acceptance -/

theorem addNight_accepted {policy : PricingPolicy} {band : DurationBandAnchorNights} {item : PricingTimelineItem}
    {anchors : DurationBandAnchors} (h : requireDurationAnchors policy item.inventoryProductCode = .ok anchors)
    (segments : List CalculationSegment) : ∃ next, addNight policy band segments item = .ok next := by
  have hFound := (requireDurationAnchors_eq_ok.mp h).1
  cases hCode : item.inventoryProductCode with
  | none =>
    rw [hCode] at hFound
    cases hFound
  | some productCode =>
    have hOpen : ∃ next, addNight.openSegment policy band segments item productCode = .ok next := by
      simp only [addNight.openSegment, bind_eq_ok, pure_eq_ok]
      exact ⟨_, anchors, h, rfl⟩
    obtain ⟨opened, hOpened⟩ := hOpen
    simp only [addNight, bind_eq_ok, expect_eq_ok, hCode]
    cases segments.head? with
    | none => exact ⟨opened, productCode, rfl, hOpened⟩
    | some current =>
      by_cases hSame : current.inventoryUnitId = item.inventoryUnitId ∧ current.pricingProductCode = productCode ∧
          current.departureDate = item.serviceDate
      · exact ⟨_, productCode, rfl, if_pos hSame⟩
      · exact ⟨opened, productCode, rfl, (if_neg hSame).trans hOpened⟩

theorem calculationSegments_accepted {policy : PricingPolicy} {timeline : List PricingTimelineItem}
    (band : DurationBandAnchorNights)
    (h : ∀ item ∈ timeline, ∃ anchors, requireDurationAnchors policy item.inventoryProductCode = .ok anchors) :
    ∃ segments, calculationSegments policy band timeline = .ok segments := by
  suffices hFold : ∀ start, ∃ reversed, timeline.foldlM (addNight policy band) start = .ok reversed by
    obtain ⟨reversed, hReversed⟩ := hFold []
    exact ⟨reversed.reverse, by rw [calculationSegments, hReversed]; rfl⟩
  induction timeline with
  | nil => exact fun start => ⟨start, rfl⟩
  | cons item rest ih =>
    obtain ⟨⟨anchors, hAnchors⟩, hRest⟩ := List.forall_mem_cons.mp h
    intro start
    have hStep : ∃ next, addNight policy band start item = .ok next := addNight_accepted hAnchors start
    obtain ⟨next, hNext⟩ := hStep
    obtain ⟨reversed, hReversed⟩ := ih hRest next
    exact ⟨reversed, by rw [List.foldlM_cons, hNext]; exact hReversed⟩

/-! ## A stay of eight nights in two units -/

def sampleCny : CurrencyCode := ⟨"CNY", currencyCode_cny⟩

def sampleBandPolicy : PricingPolicy where
  id := 1
  stayType := none
  calculationKind := .durationBandTotal
  nightlyRateMinor := none
  productAnchorRatesMinor
    | 1 => some ⟨fun band => 9999 * band.nights⟩
    | 2 => some ⟨fun band => 12050 * band.nights⟩
    | _ => none
  effectiveFrom := some 0
  effectiveUntil := none
  roundsFinalTotal := true
  currency := sampleCny

def sampleBandTimeline : List PricingTimelineItem :=
  (serviceDates 10 18).map fun date => if date < 13 then ⟨date, 5, .room, some 1⟩ else ⟨date, 6, .bed, some 2⟩

def sampleBandInput : PricingInput := ⟨10, 18, .custom, sampleBandPolicy, false, [], 0⟩

theorem stay_total_is_reference_price_sample :
    ∃ price, calculateDurationTimelinePricing sampleBandInput sampleBandTimeline = .ok price ∧
      price.cashRemainder.minorUnits = 90200 ∧
      referenceTotalMinor sampleBandPolicy (sampleBandTimeline.map PricingTimelineItem.inventoryProductCode) = 90200 := by
  have hTotal : ((calculateDurationTimelinePricing sampleBandInput sampleBandTimeline).toOption.map fun price =>
      price.cashRemainder.minorUnits) = some 90200 := by decide
  cases h : calculateDurationTimelinePricing sampleBandInput sampleBandTimeline with
  | error e =>
    rw [h] at hTotal
    cases hTotal
  | ok price =>
    rw [h] at hTotal
    have hMinor : price.cashRemainder.minorUnits = 90200 := Option.some.inj hTotal
    exact ⟨price, rfl, hMinor, (stay_total_is_reference_price h rfl rfl).1.symm.trans hMinor⟩

end GreenPms
