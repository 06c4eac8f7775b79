import Mathlib.Algebra.Order.BigOperators.Group.List
import Mathlib.Algebra.Order.Ring.Int
import GreenPms.Pricing.CashLines

/-! # The calculation passes the checks

The segments of a calculation are the nights of its timeline in order, so the checks of the stored
line follow them to the departure and round the same numerator.
-/

namespace GreenPms

open Checked

/-! ## Timelines -/

theorem unitOn_of_mem {timeline : List StayTimelineItem} {item : StayTimelineItem} (h : item ∈ timeline)
    (hDates : (timeline.map StayTimelineItem.serviceDate).Nodup) :
    unitOn timeline item.serviceDate = some item.inventoryUnitId := by
  rw [unitOn]
  cases hFind : timeline.find? fun x => x.serviceDate = item.serviceDate with
  | none =>
    rw [List.find?_eq_none] at hFind
    exact absurd (decide_eq_true rfl) (hFind item h)
  | some found =>
    have hSame : found.serviceDate = item.serviceDate := of_decide_eq_true (List.find?_some hFind :)
    rw [List.inj_on_of_nodup_map hDates (List.mem_of_find?_eq_some hFind) h hSame]
    rfl

/-! ## Segments -/

structure PricedNight where
  stay : StayTimelineItem
  pricingProductCode : Option Nat

def PricingTimelineItem.night (item : PricingTimelineItem) : PricedNight := ⟨item.stay, item.inventoryProductCode⟩

namespace CalculationSegment

def items (s : CalculationSegment) : List StayTimelineItem :=
  (serviceDates s.arrivalDate s.departureDate).map fun date => ⟨date, s.inventoryUnitId⟩

def pricedNights (s : CalculationSegment) : List PricedNight := s.items.map fun item => ⟨item, some s.pricingProductCode⟩

structure Ok (policy : PricingPolicy) (band : DurationBandAnchorNights) (s : CalculationSegment) : Prop where
  nonempty : s.arrivalDate < s.departureDate
  nights : s.nights = s.departureDate - s.arrivalDate
  numerator : s.numeratorMinor = s.nights * s.anchorAmountMinor
  denominator : s.denominator = band
  anchors : ∃ anchors, requireDurationAnchors policy (some s.pricingProductCode) = .ok anchors ∧
    s.anchorAmountMinor = anchors.minor band

variable {policy : PricingPolicy} {band : DurationBandAnchorNights} {s : CalculationSegment}

theorem items_dates (s : CalculationSegment) :
    s.items.map StayTimelineItem.serviceDate = serviceDates s.arrivalDate s.departureDate := by
  simp [items, Function.comp_def]

theorem Ok.positive (h : s.Ok policy band) : 0 < s.anchorAmountMinor := by
  obtain ⟨anchors, hAnchors, hAmount⟩ := h.anchors
  exact hAmount ▸ anchor_pos hAnchors band

theorem Ok.published (h : s.Ok policy band) (hPolicy : policy.Published) : s.anchorAmountMinor ≤ maxAnchorMinor := by
  obtain ⟨anchors, hAnchors, hAmount⟩ := h.anchors
  exact hAmount ▸ hPolicy s.pricingProductCode anchors (requireDurationAnchors_eq_ok.mp hAnchors).1 band

end CalculationSegment

/-- The segments of an accumulator, which comes newest first, and the nights they stand for. -/
structure Covers (policy : PricingPolicy) (band : DurationBandAnchorNights) (segments : List CalculationSegment)
    (nights : List PricedNight) : Prop where
  ok : ∀ s ∈ segments, s.Ok policy band
  nights : segments.reverse.flatMap CalculationSegment.pricedNights = nights

variable {policy : PricingPolicy} {band : DurationBandAnchorNights} {segments next : List CalculationSegment}
  {nights : List PricedNight}

theorem Covers.openSegment {item : PricingTimelineItem} {productCode : Nat} (h : Covers policy band segments nights)
    (hProduct : item.inventoryProductCode = some productCode)
    (hOpen : addNight.openSegment policy band segments item productCode = .ok next) :
    Covers policy band next (nights ++ [item.night]) := by
  simp only [addNight.openSegment, bind_eq_ok, pure_eq_ok] at hOpen
  obtain ⟨anchors, hAnchors, rfl⟩ := hOpen
  constructor
  · refine List.forall_mem_cons.mpr ⟨?_, h.ok⟩
    constructor
    case nonempty => exact Nat.lt_succ_self _
    case nights => exact (Nat.add_sub_cancel_left ..).symm
    case numerator => exact (Nat.one_mul _).symm
    case denominator => rfl
    case anchors => exact ⟨anchors, hProduct ▸ hAnchors, rfl⟩
  · rw [List.reverse_cons, List.flatMap_append, h.nights, List.flatMap_singleton, CalculationSegment.pricedNights,
      CalculationSegment.items, serviceDates_succ le_rfl]
    simp [serviceDates, PricingTimelineItem.night, PricingTimelineItem.stay, hProduct]

theorem Covers.addNight {item : PricingTimelineItem} (h : Covers policy band segments nights)
    (hAdd : addNight policy band segments item = .ok next) : Covers policy band next (nights ++ [item.night]) := by
  simp only [GreenPms.addNight, bind_eq_ok, expect_eq_ok] at hAdd
  obtain ⟨productCode, hProduct, hAdd⟩ := hAdd
  cases segments with
  | nil => exact h.openSegment hProduct hAdd
  | cons current rest =>
    simp only [List.head?_cons, List.tail_cons] at hAdd
    split at hAdd
    case isFalse => exact h.openSegment hProduct hAdd
    case isTrue hSame =>
      obtain ⟨hUnit, hCode, hDate⟩ := hSame
      obtain ⟨hCurrent, hRest⟩ := List.forall_mem_cons.mp h.ok
      rw [pure_eq_ok] at hAdd
      subst hAdd
      have hNights := h.nights
      rw [List.reverse_cons, List.flatMap_append, List.flatMap_singleton] at hNights
      constructor
      · refine List.forall_mem_cons.mpr ⟨?_, hRest⟩
        obtain ⟨hNonempty, hCount, hNumerator, hBand, hAnchors⟩ := hCurrent
        refine ⟨?_, ?_, ?_, hBand, hAnchors⟩
        · exact Nat.lt_succ_of_lt (hDate ▸ hNonempty)
        · simp only [hCount, ← hDate]
          omega
        · simp only [hNumerator, Nat.add_mul, Nat.one_mul]
      · rw [List.reverse_cons, List.flatMap_append, List.flatMap_singleton, ← hNights, List.append_assoc]
        congr 1
        simp only [CalculationSegment.pricedNights, CalculationSegment.items, ← hDate,
          serviceDates_succ hCurrent.nonempty.le, List.map_append, List.map_singleton, PricingTimelineItem.night,
          PricingTimelineItem.stay, hUnit, hCode, hProduct]

theorem Covers.addNights {timeline : List PricingTimelineItem} (h : Covers policy band segments nights)
    (hAll : timeline.foldlM (GreenPms.addNight policy band) segments = .ok next) :
    Covers policy band next (nights ++ timeline.map PricingTimelineItem.night) := by
  induction timeline generalizing segments nights with
  | nil =>
    rw [List.foldlM_nil, pure_eq_ok] at hAll
    subst hAll
    simpa using h
  | cons item rest ih =>
    rw [List.foldlM_cons, bind_eq_ok] at hAll
    obtain ⟨middle, hFirst, hRest⟩ := hAll
    have hTail := ih (h.addNight hFirst) hRest
    rwa [List.append_assoc, List.singleton_append] at hTail

theorem segments_nights {timeline : List PricingTimelineItem}
    (h : calculationSegments policy band timeline = .ok segments) :
    (∀ s ∈ segments, s.Ok policy band) ∧
      segments.flatMap CalculationSegment.pricedNights = timeline.map PricingTimelineItem.night := by
  simp only [calculationSegments, bind_eq_ok, pure_eq_ok] at h
  obtain ⟨reversed, hAll, rfl⟩ := h
  have hEmpty : Covers policy band [] [] := ⟨fun _ hs => absurd hs List.not_mem_nil, rfl⟩
  have hCovers := hEmpty.addNights hAll
  exact ⟨fun s hs => hCovers.ok s (List.mem_reverse.mp hs), by simpa using hCovers.nights⟩

theorem segments_cover {timeline : List PricingTimelineItem}
    (h : calculationSegments policy band timeline = .ok segments) :
    (∀ s ∈ segments, s.Ok policy band) ∧
      segments.flatMap CalculationSegment.items = timeline.map PricingTimelineItem.stay := by
  obtain ⟨hOk, hNights⟩ := segments_nights h
  have hStays := congrArg (List.map PricedNight.stay) hNights
  refine ⟨hOk, ?_⟩
  simpa [List.map_flatMap, CalculationSegment.pricedNights, PricingTimelineItem.night, Function.comp_def] using hStays

theorem CalculationSegment.Ok.valid {s : CalculationSegment} (h : s.Ok policy band) (hPolicy : policy.Published)
    {full : Option (List StayTimelineItem)} (hLength : s.nights ≤ 366)
    (hFull : ∀ timeline ∈ full, ∀ item ∈ s.items, unitOn timeline item.serviceDate = some item.inventoryUnitId) :
    validSegment full band s.arrivalDate s = true := by
  have hNights := h.nights
  have hNonempty := h.nonempty
  have hPublished := h.published hPolicy
  have hPositive := h.positive
  have hDates : expectedDates s.arrivalDate s.departureDate = some (serviceDates s.arrivalDate s.departureDate) :=
    if_pos ⟨hNonempty, by omega⟩
  have hSafe : s.nights * s.anchorAmountMinor ≤ maxSafeInteger :=
    (Nat.mul_le_mul hLength hPublished).trans (by decide)
  have hSome : 0 < s.nights * s.anchorAmountMinor := Nat.mul_pos (by omega) hPositive
  have hUnits : ∀ timeline ∈ full, ∀ date ∈ serviceDates s.arrivalDate s.departureDate,
      unitOn timeline date = some s.inventoryUnitId :=
    fun timeline hMem date hDate => hFull timeline hMem ⟨date, s.inventoryUnitId⟩ (List.mem_map.mpr ⟨date, hDate, rfl⟩)
  have hTimeline : (full.all fun timeline =>
      (serviceDates s.arrivalDate s.departureDate).all fun date => unitOn timeline date = some s.inventoryUnitId) =
      true := by
    cases full with
    | none => rfl
    | some timeline => simpa using hUnits timeline rfl
  rw [maxAnchorMinor] at hPublished
  have hCount : (1 : Int) ≤ s.nights ∧ (s.nights : Int) ≤ 2147483647 := by omega
  have hAnchor : (1 : Int) ≤ s.anchorAmountMinor ∧ (s.anchorAmountMinor : Int) ≤ 2147483647 := by omega
  simp only [validSegment, inPostgresRange_eq_true, hDates, Option.any_some, hTimeline, h.denominator, h.numerator,
    serviceDates_length, Bool.and_eq_true, decide_eq_true_eq, true_and]
  refine ⟨⟨⟨⟨⟨⟨⟨hCount, hLength⟩, hAnchor⟩, hSome⟩, hSafe⟩, trivial⟩, hNights.symm, trivial⟩, trivial⟩

theorem followSegments_eq {full : Option (List StayTimelineItem)} {arrivalDate departureDate : Nat}
    (hPolicy : policy.Published) (hOk : ∀ s ∈ segments, s.Ok policy band)
    (hDates : (segments.flatMap CalculationSegment.items).map StayTimelineItem.serviceDate =
      serviceDates arrivalDate departureDate)
    (hArrival : arrivalDate ≤ departureDate) (hLength : departureDate - arrivalDate ≤ 366)
    (hFull : ∀ timeline ∈ full, ∀ item ∈ segments.flatMap CalculationSegment.items,
      unitOn timeline item.serviceDate = some item.inventoryUnitId) :
    followSegments full band arrivalDate segments =
      some (departureDate, (segments.map CalculationSegment.numeratorMinor).sum) := by
  induction segments generalizing arrivalDate with
  | nil =>
    have hZero := congrArg List.length hDates
    rw [List.flatMap_nil, List.map_nil, List.length_nil, serviceDates_length] at hZero
    obtain rfl : arrivalDate = departureDate := by omega
    rfl
  | cons s rest ih =>
    obtain ⟨hs, hRest⟩ := List.forall_mem_cons.mp hOk
    rw [List.flatMap_cons, List.map_append, s.items_dates] at hDates
    obtain ⟨rfl, hInside, hTail⟩ := serviceDates_append_inv hs.nonempty hDates
    have hNights := hs.nights
    have hNonempty := hs.nonempty
    have hValid : validSegment full band s.arrivalDate s = true := by
      apply hs.valid hPolicy (by omega)
      intro timeline hMem item hItem
      exact hFull timeline hMem item (List.mem_flatMap.mpr ⟨s, List.mem_cons_self, hItem⟩)
    have hNext := ih hRest hTail hInside (by omega) fun timeline hMem item hItem =>
      hFull timeline hMem item (by rw [List.flatMap_cons]; exact List.mem_append_right _ hItem)
    rw [followSegments, if_pos hValid, hNext, Option.map_some, List.map_cons, List.sum_cons, hs.numerator]

/-! ## Totals -/

theorem runningTotal_eq {currency : CurrencyCode} {lines : List CashLine} {start : Int}
    (hLines : ∀ line ∈ lines, line.amount.currency = currency ∧ 0 ≤ line.amount.minorUnits) (hStart : 0 ≤ start)
    (hMax : start + lineTotalMinor lines ≤ 2147483647) :
    runningTotal currency start lines = some (start + lineTotalMinor lines) := by
  induction lines generalizing start with
  | nil => simp [runningTotal, lineTotalMinor]
  | cons line rest ih =>
    obtain ⟨⟨hCurrency, hAmount⟩, hRest⟩ := List.forall_mem_cons.mp hLines
    have hSum : lineTotalMinor (line :: rest) = line.amount.minorUnits + lineTotalMinor rest := by
      simp [lineTotalMinor]
    have hNonneg : 0 ≤ lineTotalMinor rest := by
      apply List.sum_nonneg
      intro amount hMem
      obtain ⟨other, hOther, rfl⟩ := List.mem_map.mp hMem
      exact (hRest other hOther).2
    rw [hSum] at hMax
    have hBounds : inPostgresRange line.amount.minorUnits 0 = true ∧
        inPostgresRange (start + line.amount.minorUnits) 0 = true := by
      simp only [inPostgresRange_eq_true]
      omega
    rw [runningTotal, if_pos ⟨hCurrency, hBounds.1, hBounds.2⟩, ih hRest (by omega) (by omega), hSum, Int.add_assoc]

theorem lineTotalMinor_mem {lines : List CashLine} (hLines : ∀ line ∈ lines, 0 ≤ line.amount.minorUnits)
    {line : CashLine} (h : line ∈ lines) : line.amount.minorUnits ≤ lineTotalMinor lines := by
  refine List.single_le_sum (fun amount hMem => ?_) _ (List.mem_map_of_mem h)
  obtain ⟨other, hOther, rfl⟩ := List.mem_map.mp hMem
  exact hLines other hOther

theorem ordinaryTotal_eq_some {lines : List CashLine} {currency : CurrencyCode} {timeline : List StayTimelineItem}
    {total : Int} (hTotal : pricingCashLineTotalMinor lines currency = some total) (hSome : timeline ≠ [])
    (hNodup : (timeline.map StayTimelineItem.serviceDate).Nodup)
    (hLines : if lines.any CashLine.isStayTotal then lines.length = 1 ∧ lines.all (validCashLine (some timeline))
      else lines.length = timeline.length ∧
        (lines.zip timeline).all fun (line, item) => matchesNight timeline line item) :
    ordinaryStayCashLineTotalMinor lines currency timeline = some total := by
  simp only [ordinaryStayCashLineTotalMinor, hTotal, Option.bind_eq_bind, Option.bind_some, guard, if_pos hSome,
    if_pos hNodup]
  split at hLines
  case isTrue hAny => simp only [hAny, if_true, if_pos hLines, Option.pure_def, Option.bind_some]
  case isFalse hAny =>
    simp only [hAny, Bool.false_eq_true, if_false, if_pos hLines.1, hLines.2, if_true, Option.pure_def,
      Option.bind_some]

section

variable {timeline : List StayTimelineItem} {arrivalDate departureDate total : Nat} {first : StayTimelineItem}
  {description : String} {currency : CurrencyCode}

/-- The stay total of segments that follow a timeline is valid, with or without the timeline at hand. -/
theorem stayTotal_valid (full : Option (List StayTimelineItem)) (hFull : ∀ t ∈ full, t = timeline)
    (hDates : timeline.map StayTimelineItem.serviceDate = serviceDates arrivalDate departureDate)
    (hStay : arrivalDate < departureDate ∧ departureDate - arrivalDate ≤ 366) (hFirst : timeline.head? = some first)
    (hText : validText description = true) (hPolicy : policy.Published) (hOk : ∀ s ∈ segments, s.Ok policy band)
    (hItems : segments.flatMap CalculationSegment.items = timeline)
    (hTotal : total = roundedMinor (segments.map CalculationSegment.numeratorMinor).sum band.nights)
    (hMax : (total : Int) ≤ 2147483647) :
    validCashLine full (.stayTotal arrivalDate departureDate first.inventoryUnitId description band segments
      ⟨currency, total⟩) = true := by
  have hUnits : ∀ item ∈ timeline, unitOn timeline item.serviceDate = some item.inventoryUnitId :=
    fun item hMem => unitOn_of_mem hMem (hDates ▸ serviceDates_nodup ..)
  have hMem : first ∈ timeline := List.mem_of_head? hFirst
  have hArrival : first.serviceDate = arrivalDate := by
    obtain ⟨rest, rfl⟩ := List.head?_eq_some_iff.mp hFirst
    rw [serviceDates_cons hStay.1, List.map_cons] at hDates
    exact (List.cons.inj hDates).1
  have hSegments : segments ≠ [] := by
    rintro rfl
    exact List.not_mem_nil (hItems ▸ hMem)
  have hFollow := followSegments_eq hPolicy hOk (hItems ▸ hDates) hStay.1.le hStay.2 fun t (ht : t ∈ full) item hItem => by
    rw [hFull t ht]
    exact hUnits item (hItems ▸ hItem)
  have hTimeline : (full.all fun t => (serviceDates arrivalDate departureDate).length = t.length &&
      (serviceDates arrivalDate departureDate).all (fun date => (unitOn t date).isSome) &&
      unitOn t arrivalDate = some first.inventoryUnitId) = true := by
    cases full with
    | none => rfl
    | some t =>
      obtain rfl := hFull t rfl
      simp only [Option.all_some, ← hDates, List.length_map, List.all_map, Bool.and_eq_true, decide_eq_true_eq,
        List.all_eq_true]
      refine ⟨⟨trivial, fun item hItem => ?_⟩, hArrival ▸ hUnits first hMem⟩
      simp [hUnits item hItem]
  have hExpected : expectedDates arrivalDate departureDate = some (serviceDates arrivalDate departureDate) := if_pos hStay
  simp only [validCashLine, stayTotalCashLine, hText, hExpected, hTimeline, hFollow, Option.any_some, Bool.and_eq_true,
    decide_eq_true_eq, inPostgresRange_eq_true, ← hTotal]
  exact ⟨⟨⟨⟨trivial, Int.natCast_nonneg _, hMax⟩, hSegments⟩, trivial⟩, trivial, trivial⟩

variable (currency) in
theorem stayTotal_checked (hDates : timeline.map StayTimelineItem.serviceDate = serviceDates arrivalDate departureDate)
    (hStay : arrivalDate < departureDate ∧ departureDate - arrivalDate ≤ 366) (hFirst : timeline.head? = some first)
    (hText : validText description = true) (hPolicy : policy.Published) (hOk : ∀ s ∈ segments, s.Ok policy band)
    (hItems : segments.flatMap CalculationSegment.items = timeline)
    (hTotal : total = roundedMinor (segments.map CalculationSegment.numeratorMinor).sum band.nights)
    (hMax : (total : Int) ≤ 2147483647) :
    ordinaryStayCashLineTotalMinor [.stayTotal arrivalDate departureDate first.inventoryUnitId description band segments
      ⟨currency, total⟩] currency timeline = some (total : Int) := by
  have hRunning : runningTotal currency 0 [.stayTotal arrivalDate departureDate first.inventoryUnitId description band
      segments ⟨currency, total⟩] = some (total : Int) := by
    rw [runningTotal_eq] <;> simp [lineTotalMinor, CashLine.amount, hMax]
  apply ordinaryTotal_eq_some
  · rw [pricingCashLineTotalMinor, if_pos, if_pos (by rfl), if_pos (by rfl), hRunning]
    simpa using stayTotal_valid none (by simp) hDates hStay hFirst hText hPolicy hOk hItems hTotal hMax
  · rintro rfl
    cases hFirst
  · exact hDates ▸ serviceDates_nodup ..
  · rw [if_pos (by rfl)]
    refine ⟨rfl, ?_⟩
    simpa using stayTotal_valid (some timeline) (by simp) hDates hStay hFirst hText hPolicy hOk hItems hTotal hMax

end

/-! ## Nightly lines -/

def nightLines (policy : PricingPolicy) (rate : Int) (timeline : List StayTimelineItem) : List CashLine :=
  timeline.map fun item => nightlyCashLine policy item.inventoryUnitId rate item.serviceDate

theorem nightlyCashLine_fields (policy : PricingPolicy) (rate : Int) (item : StayTimelineItem) (hRate : 0 ≤ rate) :
    let line := nightlyCashLine policy item.inventoryUnitId rate item.serviceDate
    line.isStayTotal = false ∧ line.serviceDate? = some item.serviceDate ∧ line.unit = item.inventoryUnitId ∧
      line.amount.currency = policy.currency ∧ 0 ≤ line.amount.minorUnits := by
  unfold nightlyCashLine
  split <;> simp [CashLine.isStayTotal, CashLine.serviceDate?, CashLine.unit, CashLine.amount, hRate]

theorem nightlyCashLine_valid {full : Option (List StayTimelineItem)} {rate : Int} {item : StayTimelineItem}
    (hFull : ∀ timeline ∈ full, (unitOn timeline item.serviceDate).isSome = true)
    (hAmount : inPostgresRange (nightlyCashLine policy item.inventoryUnitId rate item.serviceDate).amount.minorUnits 0 =
      true) :
    validCashLine full (nightlyCashLine policy item.inventoryUnitId rate item.serviceDate) = true := by
  have hTimeline : (full.all fun timeline => (unitOn timeline item.serviceDate).isSome) = true := by
    cases full with
    | none => rfl
    | some timeline => exact hFull timeline rfl
  revert hAmount
  unfold nightlyCashLine
  split
  case isTrue =>
    intro hAmount
    simp only [validCashLine, nightCashLine, hTimeline, Bool.true_and, Bool.and_eq_true]
    exact ⟨by decide, hAmount⟩
  case isFalse =>
    intro hAmount
    simp only [validCashLine, nightCashLine, hTimeline, Bool.true_and, Bool.and_eq_true]
    exact ⟨by decide, hAmount⟩

theorem mem_zip_map {α β : Type} {f : α → β} {xs : List α} {y : β} {x : α} (h : (y, x) ∈ (xs.map f).zip xs) :
    y = f x ∧ x ∈ xs := by
  induction xs with
  | nil => cases h
  | cons a rest ih =>
    rw [List.map_cons, List.zip_cons_cons] at h
    obtain hHead | hTail := List.mem_cons.mp h
    · injection hHead with hy hx
      subst hx
      exact ⟨hy, List.mem_cons_self⟩
    · exact ⟨(ih hTail).1, List.mem_cons_of_mem _ (ih hTail).2⟩

theorem nightLines_checked {timeline : List StayTimelineItem} {rate : Int} (hRate : 0 ≤ rate) (hSome : timeline ≠ [])
    (hNodup : (timeline.map StayTimelineItem.serviceDate).Nodup)
    (hMax : lineTotalMinor (nightLines policy rate timeline) ≤ 2147483647) :
    ordinaryStayCashLineTotalMinor (nightLines policy rate timeline) policy.currency timeline =
      some (lineTotalMinor (nightLines policy rate timeline)) := by
  have hFields : ∀ line ∈ nightLines policy rate timeline,
      line.isStayTotal = false ∧ line.amount.currency = policy.currency ∧ 0 ≤ line.amount.minorUnits := by
    intro line hLine
    obtain ⟨item, -, rfl⟩ := List.mem_map.mp hLine
    obtain ⟨hNight, -, -, hCurrency, hAmount⟩ := nightlyCashLine_fields policy rate item hRate
    exact ⟨hNight, hCurrency, hAmount⟩
  have hRange : ∀ line ∈ nightLines policy rate timeline, inPostgresRange line.amount.minorUnits 0 = true := by
    intro line hLine
    rw [inPostgresRange_eq_true]
    exact ⟨(hFields line hLine).2.2, (lineTotalMinor_mem (fun l hl => (hFields l hl).2.2) hLine).trans hMax⟩
  have hNights : (nightLines policy rate timeline).any CashLine.isStayTotal = false :=
    List.any_eq_false.mpr fun line hLine => by simp [(hFields line hLine).1]
  have hDates : (nightLines policy rate timeline).map CashLine.serviceDate? =
      (timeline.map StayTimelineItem.serviceDate).map some := by
    rw [nightLines, List.map_map, List.map_map]
    exact List.map_congr_left fun item _ => (nightlyCashLine_fields policy rate item hRate).2.1
  apply ordinaryTotal_eq_some
  · have hRunning := runningTotal_eq (fun line hLine => (hFields line hLine).2) le_rfl ((Int.zero_add _).symm ▸ hMax)
    rw [Int.zero_add] at hRunning
    rw [pricingCashLineTotalMinor, hNights, if_pos, if_neg Bool.false_ne_true, if_pos, hRunning]
    · rw [hDates]
      exact hNodup.map (Option.some_injective _)
    · rw [List.all_eq_true]
      intro line hLine
      obtain ⟨item, hItem, rfl⟩ := List.mem_map.mp hLine
      exact nightlyCashLine_valid (by simp) (hRange _ hLine)
  · exact hSome
  · exact hNodup
  · rw [hNights, if_neg Bool.false_ne_true]
    refine ⟨List.length_map _, List.all_eq_true.mpr ?_⟩
    rintro ⟨line, item⟩ hPair
    obtain ⟨rfl, hItem⟩ := mem_zip_map hPair
    obtain ⟨-, hDate, hUnit, -, -⟩ := nightlyCashLine_fields policy rate item hRate
    simp only [matchesNight, hDate, hUnit, Bool.and_eq_true, decide_eq_true_eq, and_true]
    refine nightlyCashLine_valid ?_ (hRange _ (List.mem_map.mpr ⟨item, hItem, rfl⟩))
    rintro _ ⟨⟩
    simp [unitOn_of_mem hItem hNodup]

end GreenPms
