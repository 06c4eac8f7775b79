import GreenPms.Community.Metrics

/-! # Continuity over the same stays

The included stays that lie in a residence are the stays of that residence, and they cover its
dates without a gap. Counting the nights that they cover is then the distance from its first date.
-/

namespace GreenPms

open Intervals

/-- A stay ends behind its first date, and a guest who is there is there today. -/
structure CommunityStay.Dated (today : Nat) (stay : CommunityStay) : Prop where
  nonempty : stay.arrival < stay.departure
  here : stay.current = true → stay.arrival ≤ today ∧ today < stay.departure

theorem arrivesBefore_total : Std.Total arrivesBefore := ⟨fun a b => by unfold arrivesBefore; omega⟩

theorem arrivesBefore_trans : IsTrans CommunityStay arrivesBefore := ⟨fun a b c => by unfold arrivesBefore; omega⟩

theorem sorted_arrivals (stays : List CommunityStay) :
    (stays.insertionSort arrivesBefore).Pairwise fun a b => a.arrival ≤ b.arrival := by
  have := arrivesBefore_total
  have := arrivesBefore_trans
  refine (List.pairwise_insertionSort arrivesBefore stays).imp ?_
  intro a b h
  unfold arrivesBefore at h
  omega

theorem residence_isChain {stays : List CommunityStay} (hPos : ∀ s ∈ stays, s.arrival < s.departure)
    {c : List CommunityStay} (h : c ∈ residences stays) :
    IsChain CommunityStay.arrival CommunityStay.departure (stays.insertionSort arrivesBefore) c :=
  chains_spec (fun s hs => hPos s ((List.mem_insertionSort _).mp hs)) (sorted_arrivals stays) c h

section Residence

variable {range : CommunityRange} {stays c : List CommunityStay}

abbrev startOf (c : List CommunityStay) : Nat := first CommunityStay.arrival c

abbrev untilOf (c : List CommunityStay) : Nat := reach CommunityStay.departure c

theorem occupiedUntil_bounds {stay : CommunityStay} (h : stay.Dated range.today) :
    stay.arrival < range.occupiedUntil stay ∧ range.occupiedUntil stay ≤ stay.departure := by
  have hNonempty := h.nonempty
  rw [CommunityRange.occupiedUntil]
  split
  case isTrue hHere =>
    rw [Bool.and_eq_true, decide_eq_true_eq] at hHere
    have hArrived := (h.here hHere.1).1
    omega
  case isFalse => omega

theorem mem_contributions (hDated : ∀ s ∈ stays, s.Dated range.today) (hc : c ∈ residences stays) {s : CommunityStay} :
    s ∈ contributions range stays (startOf c) (untilOf c) ↔ s ∈ c := by
  have hChain := residence_isChain (fun s hs => (hDated s hs).nonempty) hc
  rw [contributions, List.mem_filter, Bool.and_eq_true, decide_eq_true_eq, decide_eq_true_eq]
  constructor
  · rintro ⟨hMem, hBegins, hEnds⟩
    by_contra hOut
    have hBounds := occupiedUntil_bounds (hDated s hMem)
    obtain hEarlier | hLater := hChain.apart s ((List.mem_insertionSort _).mpr hMem) hOut
    · exact absurd hEnds (Nat.not_lt.mpr (hBounds.2.trans hEarlier.le))
    · exact absurd hBegins (Nat.not_lt.mpr hLater.le)
  · intro hMem
    have hStay := (List.mem_insertionSort _).mp (hChain.sub s hMem)
    have hBounds := occupiedUntil_bounds (hDated s hStay)
    have hIn := (hChain.mem_iff s (hChain.sub s hMem)).mp hMem
    exact ⟨hStay, hIn.2, hIn.1.trans_lt hBounds.1⟩

theorem any_contributions (hDated : ∀ s ∈ stays, s.Dated range.today) (hc : c ∈ residences stays)
    (p : CommunityStay → Bool) : (contributions range stays (startOf c) (untilOf c)).any p = c.any p := by
  rw [Bool.eq_iff_iff, List.any_eq_true, List.any_eq_true]
  exact exists_congr fun s => and_congr_left fun _ => mem_contributions hDated hc

theorem operatingNights_eq (hDated : ∀ s ∈ stays, s.Dated range.today) (hc : c ∈ residences stays) (through : Nat) :
    operatingNights range stays (startOf c) (untilOf c) through = min (untilOf c) through - startOf c := by
  have hChain := residence_isChain (fun s hs => (hDated s hs).nonempty) hc
  have : Std.Total fun a b : Nat × Nat => a.1 ≤ b.1 := ⟨fun a b => Nat.le_total a.1 b.1⟩
  have : IsTrans (Nat × Nat) fun a b => a.1 ≤ b.1 := ⟨fun _ _ _ => Nat.le_trans⟩
  refine coveredFrom_eq (fun i hi => ?_) (List.pairwise_insertionSort _ _) fun d hd => ?_
  · exact of_decide_eq_true (List.mem_filter.mp ((List.mem_insertionSort _).mp hi)).2
  · simp only [List.mem_insertionSort, List.mem_filter, List.mem_map, decide_eq_true_eq]
    constructor
    · rintro ⟨_, ⟨⟨s, hs, rfl⟩, _⟩, _, hHigh⟩
      have hReach : s.departure ≤ reach CommunityStay.departure c := le_reach ((mem_contributions hDated hc).mp hs)
      simp only [lt_min_iff] at hHigh ⊢
      exact ⟨hHigh.2.trans_le hReach, hHigh.1⟩
    · intro hInside
      obtain ⟨hUntil, hThrough⟩ := lt_min_iff.mp hInside
      obtain ⟨s, hs, hLow, hHigh⟩ := hChain.covers d hd hUntil
      have hBounds : max (startOf c) s.arrival ≤ d ∧ d < min through s.departure :=
        ⟨max_le hd hLow, lt_min hThrough hHigh⟩
      exact ⟨_, ⟨⟨s, (mem_contributions hDated hc).mpr hs, rfl⟩, hBounds.1.trans_lt hBounds.2⟩, hBounds⟩

theorem today_lt_until (hLive : isLive range c = true) : range.today < untilOf c := by
  rw [isLive, List.any_eq_true] at hLive
  obtain ⟨s, hs, hHere⟩ := hLive
  rw [CommunityStay.relevant, if_pos rfl, Bool.and_eq_true, decide_eq_true_eq] at hHere
  exact hHere.2.trans_le (le_reach hs)

theorem observedEnd_le : observedEnd range (isLive range c) (untilOf c) ≤ untilOf c := by
  rw [observedEnd]
  split
  case isTrue hHere =>
    obtain hLive | hLater := hHere
    · exact (today_lt_until hLive).le
    · exact hLater.le
  case isFalse => exact Nat.le_refl _

theorem meets_range_iff (hDated : ∀ s ∈ stays, s.Dated range.today) (hc : c ∈ residences stays)
    (hRange : range.fromDate ≤ range.cutoff) :
    (c.any fun s => s.arrival ≤ range.cutoff && range.fromDate < range.occupiedUntil s) = true ↔
      startOf c ≤ range.cutoff ∧ range.fromDate < if isLive range c then range.today + 1 else untilOf c := by
  have hChain := residence_isChain (fun s hs => (hDated s hs).nonempty) hc
  have hStay : ∀ s ∈ c, s.Dated range.today := fun s hs => hDated s ((List.mem_insertionSort _).mp (hChain.sub s hs))
  have hCutoff : range.cutoff ≤ range.today := min_le_right _ _
  simp only [List.any_eq_true, Bool.and_eq_true, decide_eq_true_eq]
  constructor
  · rintro ⟨s, hs, hArrives, hEnds⟩
    refine ⟨(hChain.first_le s hs).trans hArrives, ?_⟩
    split
    case isTrue => omega
    case isFalse hEmpty =>
      exact hEnds.trans_le ((occupiedUntil_bounds (hStay s hs)).2.trans (le_reach hs))
  · rintro ⟨hStart, hOccupied⟩
    -- The first date of the residence in the range is covered by one of its stays.
    have hInside : max (startOf c) range.fromDate < untilOf c := by
      obtain ⟨s, hs⟩ := List.exists_mem_of_ne_nil c hChain.nonempty
      have hBegins := ((hChain.mem_iff s (hChain.sub s hs)).mp hs)
      refine max_lt (hBegins.1.trans_lt hBegins.2) ?_
      cases hLive : isLive range c with
      | false => simpa [hLive] using hOccupied
      | true =>
        have := today_lt_until hLive
        omega
    obtain ⟨s, hs, hLow, hHigh⟩ := hChain.covers _ (le_max_left _ _) hInside
    refine ⟨s, hs, hLow.trans (max_le hStart hRange), ?_⟩
    rw [CommunityRange.occupiedUntil]
    split
    · omega
    · exact (le_max_right _ _).trans_lt hHigh

theorem includedDurations_eq (hDated : ∀ s ∈ stays, s.Dated range.today) (hc : c ∈ residences stays) :
    includedDurations range stays (startOf c) (untilOf c) (isLive range c) =
      wholeDurations range (startOf c) (untilOf c) (isLive range c) := by
  have hObserved : observedEnd range (isLive range c) (untilOf c) ≤ untilOf c := observedEnd_le
  simp only [includedDurations, wholeDurations, any_contributions hDated hc, operatingNights_eq hDated hc]
  congr 1
  · cases hLive : isLive range c with
    | false => rw [← isLive, hLive]; rfl
    | true =>
      have hUntil := today_lt_until hLive
      rw [← isLive, hLive, if_pos rfl, if_pos rfl, observedEnd, if_pos (.inl rfl), min_eq_right hUntil.le]
  · by_cases hRange : range.fromDate ≤ range.cutoff
    · refine if_congr (and_congr_right fun _ => meets_range_iff hDated hc hRange) ?_ rfl
      rw [min_eq_right ((min_le_left _ _).trans hObserved)]
    · rw [if_neg fun h => hRange h.1, if_neg fun h => hRange h.1]

end Residence

theorem personAdditions_eq {range : CommunityRange} {stays : List CommunityStay}
    (hDated : ∀ s ∈ stays, s.Dated range.today) (planned : List CommunityStay) :
    personAdditions range (includedDurations range stays) planned stays =
      personAdditions range (wholeDurations range) planned stays := by
  refine List.flatMap_congr fun indexed hIndexed => ?_
  have hc : indexed.1 ∈ residences stays := List.fst_mem_of_mem_zipIdx hIndexed
  have hSame := includedDurations_eq hDated hc
  simp only [residenceAdditions, first_map, reach_map]
  have hBegun : includedDurations range stays (first (fun s => s.visit.arrival) indexed.1)
      (reach (fun s => s.visit.departure) indexed.1) (isLive range indexed.1) =
        wholeDurations range (first (fun s => s.visit.arrival) indexed.1)
          (reach (fun s => s.visit.departure) indexed.1) (isLive range indexed.1) := hSame
  rw [hBegun]

namespace CommunityInput

variable {input : CommunityInput}

theorem includedAdditions_same (hDated : ∀ s ∈ input.stays, s.Dated input.range.today)
    (includesEvent : CommunityRecord → Bool) :
    input.includedAdditions ⟨input.stays, input.planned, includesEvent⟩ = input.wholeAdditions := by
  rw [includedAdditions, wholeAdditions, residenceGroups]
  refine congrArg (· ++ _) (List.flatMap_congr fun group hGroup => ?_)
  obtain ⟨key, _, rfl⟩ := List.mem_map.mp hGroup
  exact personAdditions_eq (fun s hs => hDated s (List.mem_filter.mp hs).1) input.planned

/-- Continuity over the same stays changes nothing. -/
theorem scoped_metrics_agree (input : CommunityInput) (evidenceIssues : List String)
    (hDated : ∀ s ∈ input.stays, s.Dated input.range.today) :
    input.communityMetrics evidenceIssues (some ⟨input.stays, input.planned, fun _ => true⟩) =
      input.communityMetrics evidenceIssues none := by
  have hAdditions : input.additions (some ⟨input.stays, input.planned, fun _ => true⟩) = input.additions none :=
    includedAdditions_same hDated _
  have hRecords : input.records (some ⟨input.stays, input.planned, fun _ => true⟩) = input.records none :=
    List.filter_eq_self.mpr fun _ _ => rfl
  simp only [communityMetrics, hAdditions, hRecords]
  rfl

def sampleGuest (orderId arrival departure : Nat) (current free : Bool) : CommunityStay where
  orderId
  personKey := some 7
  arrival
  departure
  current
  free
  category := none
  registrationKey := none
  occupantName := none
  roomCode := none
  arrivalDate := none
  departureDate := none
  historical := true
  attendanceConfirmed := true
  durationReviewReason := none
  identityApproximate := false
  memberStatus := none
  membershipByDate _ := none

def sampleCommunity : CommunityInput where
  stays := [sampleGuest 2 9 12 false false, sampleGuest 1 5 9 false true, sampleGuest 3 14 25 true false]
  events := [⟨1, 8, 1, "提前离店", .early⟩]
  planned := []
  range := ⟨5, 20, 21⟩

theorem scoped_metrics_agree_sample : sampleCommunity.communityMetrics []
    (some ⟨sampleCommunity.stays, sampleCommunity.planned, fun _ => true⟩) = sampleCommunity.communityMetrics [] none := by
  refine scoped_metrics_agree sampleCommunity [] ?_
  simp only [sampleCommunity, List.forall_mem_cons]
  exact ⟨⟨by decide, by decide⟩, ⟨by decide, by decide⟩, ⟨by decide, by decide⟩, fun _ h => (List.not_mem_nil h).elim⟩

end CommunityInput

end GreenPms
