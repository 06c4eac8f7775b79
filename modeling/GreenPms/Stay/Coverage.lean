import GreenPms.Pricing.Coverage
import GreenPms.Stay.Revisions

/-! # Coverage and cash of a whole stay

A stay in several units is priced in pieces, one for each run of nights in one unit. The joined
pieces still take every night once.
-/

namespace GreenPms

open Checked

/-- Coverage and cash of a stay that no mode prices twice, and its amounts without an adjustment. -/
structure StayAccounts (request : StayPricingRequest) (policy : PricingPolicy) (price : PricingResult) : Prop where
  nights : NightPartition request.stay.arrivalDate request.stay.departureDate price.coverageSet price.cashLines ∨
    price.coverageSet = [] ∧ policy.calculationKind = .durationBandTotal ∧ ∃ unitId description band segments,
      price.cashLines = [.stayTotal request.stay.arrivalDate request.stay.departureDate unitId description band segments
        price.cashRemainder]
  remainder : price.cashRemainder.minorUnits = lineTotalMinor price.cashLines
  contract : price.currentContractAmount.minorUnits = price.cashRemainder.minorUnits ∧
    0 ≤ price.currentContractAmount.minorUnits

namespace Hotel

variable {cat : UnitCatalog} {hotel : Hotel} {request : StayPricingRequest} {policy : PricingPolicy}
  {candidates : List CoverageCandidate}

theorem priceRun_partition (hKind : policy.calculationKind ≠ .durationBandTotal) {run : TimelineRun} {piece : PricingResult}
    (h : hotel.priceRun cat request policy candidates run = .ok piece) :
    NightPartition run.arrivalDate run.departureDate piece.coverageSet piece.cashLines := by
  obtain ⟨unit, -, hPiece⟩ := priceRun_eq_ok h
  refine (calculatePricing_accounts hPiece).nights fun hWhole => ?_
  cases (priceMode_nightly hKind).symm.trans hWhole

theorem priceRuns_partition (hKind : policy.calculationKind ≠ .durationBandTotal) {runs : List TimelineRun}
    {pieces : List PricingResult}
    (h : List.Forall₂ (fun run piece => hotel.priceRun cat request policy candidates run = .ok piece) runs pieces)
    {arrivalDate departureDate : Nat} (hOpen : ∀ run ∈ runs, run.arrivalDate < run.departureDate)
    (hDates : runs.flatMap (fun run => serviceDates run.arrivalDate run.departureDate) =
      serviceDates arrivalDate departureDate) (hStay : arrivalDate ≤ departureDate) :
    NightPartition arrivalDate departureDate (pieces.flatMap PricingResult.coverageSet)
      (pieces.flatMap PricingResult.cashLines) := by
  induction h generalizing arrivalDate with
  | nil =>
    have hLength := congrArg List.length hDates
    rw [List.flatMap_nil, List.length_nil, serviceDates_length] at hLength
    refine ⟨.nil, [], rfl, .nil, fun date => ?_⟩
    rw [if_neg (by omega)]
    rfl
  | @cons run piece runs pieces hPiece _ ih =>
    obtain ⟨hRun, hLater⟩ := List.forall_mem_cons.mp hOpen
    rw [List.flatMap_cons] at hDates
    obtain ⟨rfl, hInside, hTail⟩ := serviceDates_append_inv hRun hDates
    rw [List.flatMap_cons, List.flatMap_cons]
    exact (priceRun_partition hKind hPiece).append (ih hLater hTail hInside) hRun.le hInside

theorem StayPriced.accounts {timeline : List TimelineUnit} {first : TimelineUnit} {price : PricingResult}
    (h : hotel.StayPriced cat request timeline first candidates policy price) : StayAccounts request policy price := by
  have hUnadjusted := h.unadjusted
  have hContract : price.currentContractAmount.minorUnits = price.cashRemainder.minorUnits :=
    congrArg Money.minorUnits hUnadjusted.contract
  obtain ⟨hKind, hPrice⟩ | ⟨hKind, pieces, hPieces, hJoin⟩ := h.price
  · have hAccounts := calculateDurationTimelinePricing_accounts hPrice
    refine ⟨?_, hAccounts.remainder, hContract, hContract ▸ hUnadjusted.nonneg⟩
    cases hMode : priceMode (request.input policy candidates request.stay.arrivalDate request.stay.departureDate) with
    | stayTotal => exact .inr ⟨(hAccounts.whole hMode).1, hKind, (hAccounts.whole hMode).2⟩
    | nightly => exact .inl (hAccounts.nights (by simp [hMode]))
    | member => exact .inl (hAccounts.nights (by simp [hMode]))
  · have hStay := joinPieces_nightly (fun piece hPiece => (priceRuns_nightly hKind hPieces piece hPiece).2) hJoin
    obtain ⟨hCovered, hLines, -⟩ := joinPieces_eq_ok hJoin
    obtain ⟨hItems, hOpen⟩ := timelineRuns_items request.stay.stayTimeline
    have hDates : (timelineRuns request.stay.stayTimeline).flatMap
        (fun run => serviceDates run.arrivalDate run.departureDate) =
          serviceDates request.stay.arrivalDate request.stay.departureDate := by
      rw [← h.dates, ← hItems, List.map_flatMap, hItems]
      exact List.flatMap_congr fun run _ => run.items_dates.symm
    refine ⟨.inl ?_, congrArg Money.minorUnits hStay.remainder, hContract, hContract ▸ hUnadjusted.nonneg⟩
    rw [hCovered, hLines]
    exact priceRuns_partition hKind hPieces hOpen hDates h.interval.1.le

end Hotel

/-- Coverage and cash account for an accepted stay, whichever calculation priced it, and for the joined
pieces of a stay in several units. -/
theorem coverage_and_cash_account_for_stay :
    (∀ input timeline price, calculateDurationTimelinePricing input timeline = .ok price →
      PriceAccounts input timeline price) ∧
    (∀ input unit price, calculatePricing input unit = .ok price →
      PriceAccounts input (unitTimeline unit (serviceDates input.arrivalDate input.departureDate)) price) ∧
    ∀ (cat : UnitCatalog) (hotel : Hotel) (request : StayPricingRequest) (price : PricingResult),
      hotel.priceStayTimeline cat request = .ok price → ∃ policy, StayAccounts request policy price := by
  refine ⟨fun _ _ _ => calculateDurationTimelinePricing_accounts, fun _ _ _ => calculatePricing_accounts, ?_⟩
  intro cat hotel request price h
  obtain ⟨_, _, _, policy, -, hPriced⟩ := Hotel.priceStayTimeline_eq_ok h
  exact ⟨policy, hPriced.accounts⟩

/-! ## A member with one covered night -/

def sampleMemberPolicy : PricingPolicy where
  id := 2
  stayType := none
  calculationKind := .durationBandTotal
  nightlyRateMinor := none
  productAnchorRatesMinor _ := some ⟨fun _ => 6800⟩
  effectiveFrom := some 0
  effectiveUntil := none
  roundsFinalTotal := true
  currency := sampleCny

def sampleMemberInput : PricingInput :=
  ⟨10, 12, .custom, sampleMemberPolicy, true, [⟨11, 4, some .consumed, some 9, some .roomNight⟩], 200⟩

theorem coverage_and_cash_account_for_stay_sample :
    ∃ price, calculatePricing sampleMemberInput ⟨5, .room, some 1⟩ = .ok price ∧
      price.currentContractAmount.minorUnits = 7000 ∧
      PriceAccounts sampleMemberInput (unitTimeline ⟨5, .room, some 1⟩ (serviceDates 10 12)) price := by
  have hTotal : ((calculatePricing sampleMemberInput ⟨5, .room, some 1⟩).toOption.map fun price =>
      price.currentContractAmount.minorUnits) = some 7000 := by decide
  cases h : calculatePricing sampleMemberInput ⟨5, .room, some 1⟩ with
  | error e =>
    rw [h] at hTotal
    cases hTotal
  | ok price =>
    rw [h] at hTotal
    exact ⟨price, rfl, Option.some.inj hTotal, coverage_and_cash_account_for_stay.2.1 _ _ _ h⟩

end GreenPms
