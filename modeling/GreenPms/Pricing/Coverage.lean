import GreenPms.Pricing.BandTotal

/-! # Coverage and cash

An accepted price takes each night of the stay once: member rights cover it or a cash line charges
it, except that a stay priced as a whole has one line for all of its nights.
-/

namespace GreenPms

open Checked

inductive PriceMode where
  | nightly | member | stayTotal
  deriving DecidableEq, Repr

def priceMode (input : PricingInput) : PriceMode :=
  if input.policy.calculationKind = .durationBandTotal then
    if input.memberCoverage = true ∨ input.coverageCandidates ≠ [] then .member else .stayTotal
  else .nightly

theorem priceMode_nightly {input : PricingInput} (h : input.policy.calculationKind ≠ .durationBandTotal) :
    priceMode input = .nightly :=
  if_neg h

/-- Covered nights and nightly lines in the order of their dates that take every night of a stay once. -/
structure NightPartition (arrivalDate departureDate : Nat) (coverageSet : List CoveredNight) (cashLines : List CashLine) :
    Prop where
  covered : (coverageSet.map CoveredNight.serviceDate).Pairwise (· < ·)
  charged : ∃ cashDates : List Nat, cashLines.map CashLine.serviceDate? = cashDates.map some ∧ cashDates.Pairwise (· < ·) ∧
    ∀ date, (coverageSet.map CoveredNight.serviceDate).count date + cashDates.count date =
      if arrivalDate ≤ date ∧ date < departureDate then 1 else 0

/-- What a candidate leaves of a night: a consumed one keeps what it is stored with. -/
structure CoveredBy (night : CoveredNight) (candidate : CoverageCandidate) (item : PricingTimelineItem) : Prop where
  date : candidate.serviceDate = night.serviceDate ∧ item.serviceDate = night.serviceDate
  lot : night.entitlementLotId = candidate.entitlementLotId
  consumed : candidate.status = some .consumed →
    night.inventoryUnitId = candidate.inventoryUnitId.getD item.inventoryUnitId ∧
      night.unitKind = candidate.unitKind.getD (entitlementKindFor item.inventoryUnitKind)
  held : candidate.status ≠ some .consumed →
    night.inventoryUnitId = item.inventoryUnitId ∧ night.unitKind = entitlementKindFor item.inventoryUnitKind

structure PriceAccounts (input : PricingInput) (timeline : List PricingTimelineItem) (price : PricingResult) : Prop where
  candidates : (input.coverageCandidates.map CoverageCandidate.serviceDate).Nodup ∧
    ∀ c ∈ input.coverageCandidates, input.arrivalDate ≤ c.serviceDate ∧ c.serviceDate < input.departureDate
  nights : priceMode input ≠ .stayTotal →
    NightPartition input.arrivalDate input.departureDate price.coverageSet price.cashLines
  whole : priceMode input = .stayTotal → price.coverageSet = [] ∧ ∃ unitId description band segments,
    price.cashLines = [.stayTotal input.arrivalDate input.departureDate unitId description band segments
      price.cashRemainder]
  covered : ∀ night ∈ price.coverageSet, ∃ candidate ∈ input.coverageCandidates, ∃ item ∈ timeline,
    CoveredBy night candidate item
  used : ∀ candidate ∈ input.coverageCandidates, ∃ night ∈ price.coverageSet, night.serviceDate = candidate.serviceDate
  remainder : price.cashRemainder.minorUnits = lineTotalMinor price.cashLines
  contract : price.currentContractAmount.minorUnits = price.cashRemainder.minorUnits + input.manualAdjustmentMinor ∧
    0 ≤ price.currentContractAmount.minorUnits
  wholeYuan : priceMode input ≠ .nightly →
    (∀ line ∈ price.cashLines, line.amount.minorUnits % 100 = 0) ∧ price.cashRemainder.minorUnits % 100 = 0 ∧
      (priceMode input = .member → price.currentContractAmount.minorUnits % 100 = 0)

/-! ## The covered nights of a timeline -/

theorem candidateOn_eq_some {candidates : List CoverageCandidate} {date : Nat} {candidate : CoverageCandidate}
    (h : candidateOn candidates date = some candidate) : candidate ∈ candidates ∧ candidate.serviceDate = date :=
  ⟨List.mem_of_find?_eq_some h, of_decide_eq_true (List.find?_some h :)⟩

theorem coveredNight_eq_ok {date unitId : Nat} {unitKind : EntitlementUnitKind} {candidate : CoverageCandidate}
    {night : CoveredNight} (h : coveredNight date unitId unitKind candidate = .ok night) :
    night.serviceDate = date ∧ night.entitlementLotId = candidate.entitlementLotId ∧
      (candidate.status = some .consumed → night.inventoryUnitId = candidate.inventoryUnitId.getD unitId ∧
        night.unitKind = candidate.unitKind.getD unitKind) ∧
      (candidate.status ≠ some .consumed → night.inventoryUnitId = unitId ∧ night.unitKind = unitKind) := by
  simp only [coveredNight, bind_eq_ok, require_eq_ok, pure_eq_ok] at h
  obtain ⟨_, -, rfl⟩ := h
  refine ⟨rfl, rfl, fun hConsumed => ?_, fun hHeld => ?_⟩
  · exact ⟨if_pos hConsumed, if_pos hConsumed⟩
  · exact ⟨if_neg hHeld, if_neg hHeld⟩

section

variable {candidates : List CoverageCandidate} {timeline : List PricingTimelineItem} {coverageSet : List CoveredNight}

theorem coverTimeline_dates (h : coverTimeline candidates timeline = .ok coverageSet) :
    coverageSet.map CoveredNight.serviceDate =
      (timeline.filter fun item => !uncovered candidates item).map PricingTimelineItem.serviceDate := by
  induction timeline generalizing coverageSet with
  | nil =>
    cases h
    rfl
  | cons item rest ih =>
    rw [coverTimeline] at h
    cases hCandidate : candidateOn candidates item.serviceDate with
    | none =>
      rw [hCandidate] at h
      have hUncovered : uncovered candidates item = true := by simp [uncovered, hCandidate]
      rw [ih h, List.filter_cons_of_neg (by simp [hUncovered])]
    | some candidate =>
      rw [hCandidate] at h
      simp only [bind_eq_ok, pure_eq_ok] at h
      obtain ⟨night, hNight, more, hMore, rfl⟩ := h
      have hCovered : uncovered candidates item = false := by simp [uncovered, hCandidate]
      rw [List.filter_cons_of_pos (by simp [hCovered]), List.map_cons, List.map_cons, ih hMore,
        (coveredNight_eq_ok hNight).1]

theorem coverTimeline_covered (h : coverTimeline candidates timeline = .ok coverageSet) {night : CoveredNight}
    (hNight : night ∈ coverageSet) : ∃ candidate ∈ candidates, ∃ item ∈ timeline, CoveredBy night candidate item := by
  induction timeline generalizing coverageSet with
  | nil =>
    cases h
    cases hNight
  | cons item rest ih =>
    rw [coverTimeline] at h
    cases hCandidate : candidateOn candidates item.serviceDate with
    | none =>
      rw [hCandidate] at h
      obtain ⟨candidate, hMem, other, hOther, hBy⟩ := ih h hNight
      exact ⟨candidate, hMem, other, List.mem_cons_of_mem _ hOther, hBy⟩
    | some candidate =>
      rw [hCandidate] at h
      simp only [bind_eq_ok, pure_eq_ok] at h
      obtain ⟨first, hFirst, more, hMore, rfl⟩ := h
      obtain rfl | hTail := List.mem_cons.mp hNight
      · obtain ⟨hMem, hDate⟩ := candidateOn_eq_some hCandidate
        obtain ⟨hNightDate, hLot, hConsumed, hHeld⟩ := coveredNight_eq_ok hFirst
        exact ⟨candidate, hMem, item, List.mem_cons_self,
          ⟨hDate.trans hNightDate.symm, hNightDate.symm⟩, hLot, hConsumed, hHeld⟩
      · obtain ⟨candidate, hMem, other, hOther, hBy⟩ := ih hMore hTail
        exact ⟨candidate, hMem, other, List.mem_cons_of_mem _ hOther, hBy⟩

theorem coverTimeline_used (h : coverTimeline candidates timeline = .ok coverageSet) {candidate : CoverageCandidate}
    (hMem : candidate ∈ candidates) (hDate : candidate.serviceDate ∈ timeline.map PricingTimelineItem.serviceDate) :
    ∃ night ∈ coverageSet, night.serviceDate = candidate.serviceDate := by
  obtain ⟨item, hItem, hSame⟩ := List.mem_map.mp hDate
  have hCovered : uncovered candidates item = false := by
    rw [uncovered, Option.isNone_eq_false_iff, candidateOn, List.find?_isSome]
    exact ⟨candidate, hMem, decide_eq_true hSame.symm⟩
  have hIn : candidate.serviceDate ∈ coverageSet.map CoveredNight.serviceDate := by
    rw [coverTimeline_dates h]
    exact List.mem_map.mpr ⟨item, List.mem_filter.mpr ⟨hItem, by simp [hCovered]⟩, hSame⟩
  obtain ⟨night, hNight, hEq⟩ := List.mem_map.mp hIn
  exact ⟨night, hNight, hEq⟩

theorem nightPartition {arrivalDate departureDate : Nat} {cashLines : List CashLine}
    (h : coverTimeline candidates timeline = .ok coverageSet)
    (hDates : timeline.map PricingTimelineItem.serviceDate = serviceDates arrivalDate departureDate)
    (hLines : cashLines.map CashLine.serviceDate? =
      ((timeline.filter (uncovered candidates)).map PricingTimelineItem.serviceDate).map some) :
    NightPartition arrivalDate departureDate coverageSet cashLines := by
  have hOrder : (timeline.map PricingTimelineItem.serviceDate).Pairwise (· < ·) := hDates ▸ List.pairwise_lt_range'
  have hPart (p : PricingTimelineItem → Bool) :
      ((timeline.filter p).map PricingTimelineItem.serviceDate).Pairwise (· < ·) :=
    hOrder.sublist (List.filter_sublist.map _)
  refine ⟨coverTimeline_dates h ▸ hPart _, _, hLines, hPart _, fun date => ?_⟩
  have hSplit := ((List.filter_append_perm (uncovered candidates) timeline).map
    PricingTimelineItem.serviceDate).count_eq date
  rw [List.map_append, List.count_append, hDates] at hSplit
  rw [coverTimeline_dates h, Nat.add_comm, hSplit]
  split
  · next hIn => exact List.count_eq_one_of_mem (serviceDates_nodup ..) (mem_serviceDates.mpr hIn)
  · next hOut => exact List.count_eq_zero_of_not_mem fun hMem => hOut (mem_serviceDates.mp hMem)

end

/-! ## Pieces of a stay -/

theorem NightPartition.covered_mem {arrivalDate departureDate : Nat} {coverageSet : List CoveredNight}
    {cashLines : List CashLine} (h : NightPartition arrivalDate departureDate coverageSet cashLines) {date : Nat}
    (hDate : date ∈ coverageSet.map CoveredNight.serviceDate) : arrivalDate ≤ date ∧ date < departureDate := by
  obtain ⟨cashDates, -, -, hCount⟩ := h.charged
  have hOnce := hCount date
  have hPos := List.count_pos_iff.mpr hDate
  split at hOnce
  · next hIn => exact hIn
  · omega

theorem NightPartition.append {a b c : Nat} {coverageSet moreCoverage : List CoveredNight}
    {cashLines moreLines : List CashLine} (h : NightPartition a b coverageSet cashLines)
    (hMore : NightPartition b c moreCoverage moreLines) (hab : a ≤ b) (hbc : b ≤ c) :
    NightPartition a c (coverageSet ++ moreCoverage) (cashLines ++ moreLines) := by
  obtain ⟨cashDates, hLines, hSorted, hCount⟩ := h.charged
  obtain ⟨moreDates, hMoreLines, hMoreSorted, hMoreCount⟩ := hMore.charged
  constructor
  · rw [List.map_append]
    refine List.pairwise_append.mpr ⟨h.covered, hMore.covered, fun date hDate other hOther => ?_⟩
    exact (h.covered_mem hDate).2.trans_le (hMore.covered_mem hOther).1
  · refine ⟨cashDates ++ moreDates, by rw [List.map_append, List.map_append, hLines, hMoreLines], ?_, fun date => ?_⟩
    · refine List.pairwise_append.mpr ⟨hSorted, hMoreSorted, fun date hDate other hOther => ?_⟩
      have hFirst := hCount date
      have hSecond := hMoreCount other
      have hPos := List.count_pos_iff.mpr hDate
      have hOtherPos := List.count_pos_iff.mpr hOther
      split at hFirst <;> split at hSecond <;> omega
    · have hFirst := hCount date
      have hSecond := hMoreCount date
      rw [List.map_append, List.count_append, List.count_append]
      split at hFirst <;> split at hSecond <;> split <;> omega

/-! ## The three modes -/

variable {input : PricingInput} {timeline : List PricingTimelineItem} {unit : PricedUnit} {price : PricingResult}

theorem coverTimeline_eq_nil {candidates : List CoverageCandidate} {coverageSet : List CoveredNight}
    (h : coverTimeline candidates timeline = .ok coverageSet)
    (hInside : ∀ c ∈ candidates, c.serviceDate ∈ timeline.map PricingTimelineItem.serviceDate) :
    coverageSet = [] ↔ candidates = [] := by
  constructor
  · rintro rfl
    refine List.eq_nil_iff_forall_not_mem.mpr fun candidate hMem => ?_
    obtain ⟨night, hNight, -⟩ := coverTimeline_used h hMem (hInside candidate hMem)
    cases hNight
  · rintro rfl
    rw [coverTimeline_nil] at h
    injection h with h
    exact h.symm

theorem roundedMinor_of_wholeYuan {total : Nat} (h : total % 100 = 0) : roundedMinor total 1 = total := by
  rw [roundedMinor, roundPositiveRationalHalfUp]
  omega

theorem memberCashLine_eq_ok {policy : PricingPolicy} {item : PricingTimelineItem} {line : CashLine}
    (h : memberCashLine policy item = .ok line) :
    line.serviceDate? = some item.serviceDate ∧ 0 ≤ line.amount.minorUnits ∧ line.amount.minorUnits % 100 = 0 := by
  simp only [memberCashLine, bind_eq_ok, require_eq_ok, pure_eq_ok] at h
  obtain ⟨anchors, -, _, hYuan, rfl⟩ := h
  refine ⟨rfl, Int.natCast_nonneg _, ?_⟩
  simp only [CashLine.amount]
  omega

theorem memberCashLines {policy : PricingPolicy} {items : List PricingTimelineItem} {lines : List CashLine}
    (h : List.Forall₂ (fun item line => memberCashLine policy item = .ok line) items lines) :
    lines.map CashLine.serviceDate? = (items.map PricingTimelineItem.serviceDate).map some ∧
      ∀ line ∈ lines, 0 ≤ line.amount.minorUnits ∧ line.amount.minorUnits % 100 = 0 := by
  induction h with
  | nil => exact ⟨rfl, fun _ hNone => absurd hNone List.not_mem_nil⟩
  | cons hLine _ ih =>
    obtain ⟨hDate, hAmount⟩ := memberCashLine_eq_ok hLine
    obtain ⟨hDates, hAmounts⟩ := ih
    refine ⟨?_, List.forall_mem_cons.mpr ⟨hAmount, hAmounts⟩⟩
    rw [List.map_cons, List.map_cons, List.map_cons, hDate, hDates]

theorem lineTotalMinor_wholeYuan {lines : List CashLine}
    (h : ∀ line ∈ lines, 0 ≤ line.amount.minorUnits ∧ line.amount.minorUnits % 100 = 0) :
    0 ≤ lineTotalMinor lines ∧ lineTotalMinor lines % 100 = 0 := by
  induction lines with
  | nil => exact ⟨le_rfl, rfl⟩
  | cons line rest ih =>
    obtain ⟨hLine, hRest⟩ := List.forall_mem_cons.mp h
    have hTail := ih hRest
    simp only [lineTotalMinor, List.map_cons, List.sum_cons] at hTail ⊢
    omega

/-- What both calculations have checked of the candidates, and the nights that these cover. -/
structure CoverageChecked (input : PricingInput) (timeline : List PricingTimelineItem) (coverageSet : List CoveredNight) :
    Prop where
  dates : timeline.map PricingTimelineItem.serviceDate = serviceDates input.arrivalDate input.departureDate
  candidates : (input.coverageCandidates.map CoverageCandidate.serviceDate).Nodup ∧
    ∀ c ∈ input.coverageCandidates, c.serviceDate ∈ serviceDates input.arrivalDate input.departureDate
  covers : coverTimeline input.coverageCandidates timeline = .ok coverageSet

variable {coverageSet : List CoveredNight}

theorem CoverageChecked.inside (h : CoverageChecked input timeline coverageSet) {c : CoverageCandidate}
    (hc : c ∈ input.coverageCandidates) : input.arrivalDate ≤ c.serviceDate ∧ c.serviceDate < input.departureDate :=
  mem_serviceDates.mp (h.candidates.2 c hc)

theorem CoverageChecked.used (h : CoverageChecked input timeline coverageSet) {c : CoverageCandidate}
    (hc : c ∈ input.coverageCandidates) : ∃ night ∈ coverageSet, night.serviceDate = c.serviceDate :=
  coverTimeline_used h.covers hc (h.dates ▸ h.candidates.2 c hc)

theorem CoverageChecked.eq_nil (h : CoverageChecked input timeline coverageSet) :
    coverageSet = [] ↔ input.coverageCandidates = [] :=
  coverTimeline_eq_nil h.covers fun c hc => h.dates ▸ h.candidates.2 c hc

theorem memberPricing_accounts (h : CoverageChecked input timeline coverageSet) (hMode : priceMode input = .member)
    (hPrice : memberPricing input timeline coverageSet input.manualAdjustmentMinor = .ok price) :
    PriceAccounts input timeline price := by
  simp only [memberPricing, bind_eq_ok, applyManualAdjustment_eq_ok, pure_eq_ok] at hPrice
  obtain ⟨lines, hLines, target, ⟨rfl, hTarget, -, hYuan⟩, rfl⟩ := hPrice
  obtain ⟨hDates, hLine⟩ := memberCashLines (mapM_eq_ok.mp hLines)
  obtain ⟨hNonneg, hTotal⟩ := lineTotalMinor_wholeYuan hLine
  have hRemainder : (roundedMinor (lineTotalMinor lines).toNat 1 : Int) = lineTotalMinor lines := by
    rw [roundedMinor_of_wholeYuan (by omega), Int.toNat_of_nonneg hNonneg]
  constructor
  case candidates => exact ⟨h.candidates.1, fun c hc => h.inside hc⟩
  case nights => exact fun _ => nightPartition h.covers h.dates hDates
  case whole =>
    intro hWhole
    rw [hMode] at hWhole
    cases hWhole
  case covered => exact fun night hNight => coverTimeline_covered h.covers hNight
  case used => exact fun c hc => h.used hc
  case remainder => exact hRemainder
  case contract => exact ⟨rfl, hTarget⟩
  case wholeYuan => exact fun _ => ⟨fun line hMem => (hLine line hMem).2, hRemainder.symm ▸ hTotal, fun _ => hYuan trivial⟩

theorem bandPricing_accounts (h : CoverageChecked input timeline coverageSet) (hMode : priceMode input = .stayTotal)
    {nights : Nat} (hCovered : coverageSet = [])
    (hPrice : bandPricing input timeline nights coverageSet input.manualAdjustmentMinor = .ok price) :
    PriceAccounts input timeline price := by
  subst hCovered
  simp only [bandPricing, bind_eq_ok, applyManualAdjustment_eq_ok, pure_eq_ok, expect_eq_ok] at hPrice
  obtain ⟨segments, -, _, -, _, -, target, ⟨rfl, hTarget, -⟩, first, -, rfl⟩ := hPrice
  have hNone : input.coverageCandidates = [] := h.eq_nil.mp rfl
  have hYuan : ((roundedMinor (segments.map CalculationSegment.numeratorMinor).sum
      (durationBandAnchorNights nights).nights : Nat) : Int) % 100 = 0 := by
    rw [roundedMinor]
    omega
  constructor
  case candidates => exact ⟨h.candidates.1, fun c hc => h.inside hc⟩
  case nights => exact fun hPart => absurd hMode hPart
  case whole => exact fun _ => ⟨rfl, _, _, _, _, rfl⟩
  case covered => exact fun night hNight => absurd hNight List.not_mem_nil
  case used =>
    intro c hc
    rw [hNone] at hc
    cases hc
  case remainder => exact (Int.add_zero _).symm
  case contract => exact ⟨rfl, hTarget⟩
  case wholeYuan =>
    refine fun _ => ⟨List.forall_mem_singleton.mpr hYuan, hYuan, fun hMember => ?_⟩
    rw [hMode] at hMember
    cases hMember

theorem nightlyPricing_accounts (hMode : priceMode input = .nightly) (hPrice : nightlyPricing input unit = .ok price) :
    PriceAccounts input (unitTimeline unit (serviceDates input.arrivalDate input.departureDate)) price := by
  simp only [nightlyPricing, bind_eq_ok, require_eq_ok, expect_eq_ok, validateManualAdjustment_eq_ok,
    applyManualAdjustment_eq_ok, pure_eq_ok, enumerateServiceDates_eq_ok, assertCandidates] at hPrice
  obtain ⟨_, ⟨-, -, rfl⟩, _, -, _, hCandidates, _, ⟨-, rfl⟩, _, -, rate, -, _, -, _, -, covered, hCovers, _,
    ⟨rfl, hTarget, -⟩, rfl⟩ := hPrice
  have hChecked : CoverageChecked input
      (unitTimeline unit (serviceDates input.arrivalDate input.departureDate)) covered := by
    refine ⟨?_, hCandidates, hCovers⟩
    rw [unitTimeline, List.map_map]
    exact List.map_id _
  constructor
  case candidates => exact ⟨hCandidates.1, fun c hc => hChecked.inside hc⟩
  case nights =>
    intro _
    apply nightPartition hCovers hChecked.dates
    rw [List.map_map, List.map_map]
    refine List.map_congr_left fun item _ => ?_
    unfold Function.comp nightlyCashLine
    split <;> rfl
  case whole =>
    intro hWhole
    rw [hMode] at hWhole
    cases hWhole
  case covered => exact fun night hNight => coverTimeline_covered hCovers hNight
  case used => exact fun c hc => hChecked.used hc
  case remainder => rfl
  case contract => exact ⟨rfl, hTarget⟩
  case wholeYuan => exact fun hYuan => absurd hMode hYuan

theorem calculateDurationTimelinePricing_accounts (h : calculateDurationTimelinePricing input timeline = .ok price) :
    PriceAccounts input timeline price := by
  simp only [calculateDurationTimelinePricing, bind_eq_ok, require_eq_ok, validateManualAdjustment_eq_ok,
    enumerateServiceDates_eq_ok, assertCandidates] at h
  obtain ⟨_, ⟨-, hKind, -⟩, _, -, _, -, _, ⟨-, rfl⟩, _, ⟨-, -, rfl⟩, _, hDates, _, hCandidates, covered, hCovers, hPrice⟩ := h
  have hChecked : CoverageChecked input timeline covered := ⟨hDates, hCandidates, hCovers⟩
  simp only [ne_eq, hChecked.eq_nil] at hPrice
  split at hPrice
  case isTrue hMember => exact memberPricing_accounts hChecked (by rw [priceMode, if_pos hKind, if_pos hMember]) hPrice
  case isFalse hGuest =>
    refine bandPricing_accounts hChecked (by rw [priceMode, if_pos hKind, if_neg hGuest]) ?_ hPrice
    exact hChecked.eq_nil.mpr (not_not.mp fun hSome => hGuest (.inr hSome))

theorem calculatePricing_accounts (h : calculatePricing input unit = .ok price) :
    PriceAccounts input (unitTimeline unit (serviceDates input.arrivalDate input.departureDate)) price := by
  simp only [calculatePricing, bind_eq_ok, require_eq_ok] at h
  obtain ⟨_, -, h⟩ := h
  split at h
  case isTrue =>
    simp only [bind_eq_ok, enumerateServiceDates_eq_ok] at h
    obtain ⟨_, ⟨-, -, rfl⟩, hPrice⟩ := h
    exact calculateDurationTimelinePricing_accounts hPrice
  case isFalse hKind => exact nightlyPricing_accounts (priceMode_nightly hKind) h

end GreenPms
