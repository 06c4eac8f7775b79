import GreenPms.Community.Seats
import GreenPms.Community.Settled

/-! # The figures of rows in another order

The rows come from a query without an order. A set of rows decides the figures of the days and the
durations. The records and the residents depend on the order of the rows where a tie is open.
-/

namespace GreenPms

/-- A range whose dates are listed. -/
def CommunityRange.Listed (range : CommunityRange) : Prop :=
  range.fromDate ≤ range.toDate ∧ range.toDate + 1 - range.fromDate ≤ maxServiceNights

structure TiesSettled (input : CommunityInput) : Prop where
  records : RecordsSettled input
  seats : ∀ date, input.range.covers date = true ∨ date = input.range.today →
    SeatsSettled input.stays input.range.today date

section Agreement

variable {a b : CommunityInput}

theorem covers_iff {range : CommunityRange} {date : Nat} :
    range.covers date = true ↔ date ∈ serviceDates range.fromDate (range.toDate + 1) := by
  rw [mem_serviceDates, CommunityRange.covers, Bool.and_eq_true, decide_eq_true_eq, decide_eq_true_eq, Nat.lt_succ_iff]

theorem figures_iff (h : Reordered a b) (hPos : ∀ s ∈ a.stays, s.arrival < s.departure) (hListed : a.range.Listed)
    (evidenceIssues : List String) :
    (a.communityMetrics evidenceIssues none).map DashboardCommunity.figures =
        (b.communityMetrics evidenceIssues none).map DashboardCommunity.figures ↔
      ((recordsOf a.wholeAdditions).map CommunityRecord.figure).Perm
          ((recordsOf b.wholeAdditions).map CommunityRecord.figure) ∧
        (residentDay a.stays a.range.today a.range.today a.stays true).figures =
            (residentDay b.stays a.range.today a.range.today b.stays true).figures ∧
          ∀ date, a.range.covers date = true → (residentDay a.stays a.range.today date a.stays false).figures =
            (residentDay b.stays a.range.today date b.stays false).figures := by
  have hDay : communityDay b.stays a.range.today = communityDay a.stays a.range.today :=
    funext fun date => (communityDay_perm h.stays a.range.today date).symm
  have hDates : enumerateServiceDates a.range.fromDate (a.range.toDate + 1) =
      .ok (serviceDates a.range.fromDate (a.range.toDate + 1)) :=
    enumerateServiceDates_eq_ok.mpr ⟨Nat.lt_succ_of_le hListed.1, hListed.2, rfl⟩
  simp only [CommunityInput.communityMetrics, ← h.range, hDates]
  constructor
  · intro hSame
    have hFigures := Except.ok.inj hSame
    have hRecords := congrArg CommunityFigures.records hFigures
    have hToday := congrArg CommunityFigures.residentCurrent hFigures
    have hTrend := congrArg CommunityFigures.residentTrend hFigures
    simp only [DashboardCommunity.figures, CommunityInput.records, Multiset.coe_eq_coe] at hRecords
    simp only [DashboardCommunity.figures, Option.map_none, Option.getD_none, List.map_map, List.map_inj_left] at hToday hTrend
    exact ⟨hRecords, hToday, fun date hDate => hTrend date (covers_iff.mp hDate)⟩
  · rintro ⟨hRecords, hToday, hTrend⟩
    refine congrArg Except.ok ?_
    simp only [DashboardCommunity.figures, hDay, visitors_perm h, CommunityInput.additions, CommunityInput.records,
      distribution_perm (durations_perm h hPos), countRecords_perm hRecords, Multiset.coe_eq_coe.mpr hRecords,
      Option.map_none, Option.getD_none, hToday, List.map_map]
    congr 1
    exact List.map_congr_left fun date hDate => hTrend date (covers_iff.mpr hDate)

/-- Every order of the rows gives the same figures exactly if no tie of the rows is open. -/
theorem reordered_metrics_agree (input : CommunityInput) (evidenceIssues : List String)
    (hDated : ∀ s ∈ input.stays, s.Dated input.range.today) :
    (∀ other, Reordered input other → (input.communityMetrics evidenceIssues none).map DashboardCommunity.figures =
      (other.communityMetrics evidenceIssues none).map DashboardCommunity.figures) ↔
        (input.range.Listed → TiesSettled input) := by
  have hPos := fun s hs => (hDated s hs).nonempty
  constructor
  · intro hAgree hListed
    have hParts := fun other h => (figures_iff h hPos hListed evidenceIssues).mp (hAgree other h)
    have hStays : ∀ {ys}, input.stays.Perm ys → Reordered input { input with stays := ys } :=
      fun h => ⟨h, List.Perm.refl _, List.Perm.refl _, rfl⟩
    refine ⟨recordsSettled_of_agree hPos fun other h => (hParts other h).1, fun date hDate => ?_⟩
    obtain hDate | rfl := hDate
    · exact (residentDay_agree_iff false).mp fun ys h => (hParts _ (hStays h)).2.2 date hDate
    · exact (residentDay_agree_iff true).mp fun ys h => (hParts _ (hStays h)).2.1
  · intro hSettled other h
    by_cases hListed : input.range.Listed
    · obtain ⟨hRecords, hSeats⟩ := hSettled hListed
      exact (figures_iff h hPos hListed evidenceIssues).mpr ⟨records_perm h hPos hRecords,
        (residentDay_agree_iff true).mpr (hSeats _ (.inr rfl)) _ h.stays,
        fun date hDate => (residentDay_agree_iff false).mpr (hSeats date (.inl hDate)) _ h.stays⟩
    · cases hDates : enumerateServiceDates input.range.fromDate (input.range.toDate + 1) with
      | error e =>
        simp only [CommunityInput.communityMetrics, ← h.range, hDates]
        rfl
      | ok dates =>
        obtain ⟨hFrom, hLength, -⟩ := enumerateServiceDates_eq_ok.mp hDates
        exact absurd ⟨Nat.le_of_lt_succ hFrom, hLength⟩ hListed

end Agreement

open CommunityInput in
/-- A stay of a guest around two others of his with the same dates, and one that he is on today. -/
def sampleAround : CommunityInput :=
  { sampleCommunity with
    stays := [sampleGuest 2 6 9 false false, sampleGuest 3 6 9 false false, sampleGuest 1 5 12 false false,
      sampleGuest 4 14 25 true false] }

theorem sampleAround_cases {s : CommunityStay} (h : s ∈ sampleAround.stays) : s = CommunityInput.sampleGuest 2 6 9 false false ∨
    s = CommunityInput.sampleGuest 3 6 9 false false ∨ s = CommunityInput.sampleGuest 1 5 12 false false ∨
      s = CommunityInput.sampleGuest 4 14 25 true false := by
  simpa [sampleAround] using h

theorem sampleAround_rows {p : Nat} {s : CommunityStay} (h : s ∈ sampleAround.staysOf p) :
    sampleAround.staysOf p = sampleAround.stays := by
  obtain ⟨hMem, -, hPerson⟩ := mem_staysOf.mp h
  have hGuest : ∀ t ∈ sampleAround.stays, t.proven = true ∧ t.personKey = some 7 := by
    intro t ht
    obtain rfl | rfl | rfl | rfl := sampleAround_cases ht <;> exact ⟨rfl, rfl⟩
  obtain rfl : 7 = p := Option.some.inj ((hGuest s hMem).2.symm.trans hPerson)
  refine List.filter_eq_self.mpr fun t ht => ?_
  rw [(hGuest t ht).1, (hGuest t ht).2]
  rfl

/-- No record reads which of the two stays inside the first one comes first. -/
theorem sampleAround_settled : TiesSettled sampleAround := by
  have hAround : CommunityInput.sampleGuest 1 5 12 false false ∈ sampleAround.stays := by simp [sampleAround]
  have hSeats : ∀ s ∈ sampleAround.stays, ∀ t ∈ sampleAround.stays, s.seat = t.seat → s = t := by
    intro s hs t ht hSeat
    have hOrder := congrArg Prod.fst hSeat
    obtain rfl | rfl | rfl | rfl := sampleAround_cases hs <;> obtain rfl | rfl | rfl | rfl := sampleAround_cases ht <;>
      first | rfl | exact absurd hOrder (by decide)
  refine ⟨⟨fun p s t hs ht hArrival _ => ?_, fun p s t _ _ hst _ _ _ _ _ => ?_, fun p until_ end_ s t hs ht => ?_⟩,
    fun date _ => ⟨fun s hs t ht hSeat _ => ?_, fun s hs t ht hSeat hNe => ?_, fun s hs t ht hSeat hNe => ?_⟩⟩
  · have hBegins : ∀ {u}, Begins (sampleAround.staysOf p) u → u = CommunityInput.sampleGuest 1 5 12 false false ∨
        u = CommunityInput.sampleGuest 4 14 25 true false := by
      intro u hu
      rw [sampleAround_rows hu.mem] at hu
      obtain rfl | rfl | rfl | rfl := sampleAround_cases hu.mem
      · exact absurd (hu.apart _ hAround (by decide)) (by decide)
      · exact absurd (hu.apart _ hAround (by decide)) (by decide)
      · exact .inl rfl
      · exact .inr rfl
    obtain rfl | rfl := hBegins hs <;> obtain rfl | rfl := hBegins ht <;>
      first | rfl | exact absurd hArrival (by decide)
  · obtain ⟨u, hu, -, hTouches⟩ := hst.touches
    have ht := hst.mem_next
    rw [sampleAround_rows hu] at ht hu
    obtain rfl | rfl | rfl | rfl := sampleAround_cases hu <;> obtain rfl | rfl | rfl | rfl := sampleAround_cases ht <;>
      exact absurd hTouches (by decide)
  · have hLast : ∀ {u}, Leaves sampleAround.range (sampleAround.staysOf p) (sampleAround.plannedOf p) until_ end_ u →
        u = CommunityInput.sampleGuest 4 14 25 true false := by
      intro u hu
      have hToday : 21 ≤ end_ := hu.stays.le.trans hu.goesOn.le
      have hEnds := hu.ends
      split at hEnds
      · have hMem := hEnds.mem
        rw [sampleAround_rows hMem] at hMem
        have hDeparts : 21 ≤ u.departure := hEnds.departs ▸ hToday
        obtain rfl | rfl | rfl | rfl := sampleAround_cases hMem <;> first | rfl | exact absurd hDeparts (by decide)
      · exact absurd hEnds.mem List.not_mem_nil
    rw [hLast hs, hLast ht]
  · rw [hSeats s (mem_residentStays.mp hs).1 t (mem_residentStays.mp ht).1 hSeat]
  · exact absurd (congrArg _ (hSeats s (mem_residentStays.mp hs).1 t (mem_residentStays.mp ht).1 hSeat)) hNe
  · exact absurd (congrArg _ (hSeats s (mem_residentStays.mp hs).1 t (mem_residentStays.mp ht).1 hSeat)) hNe

def sampleSwapped : CommunityInput := { sampleAround with stays := sampleAround.stays.reverse }

theorem reordered_metrics_agree_sample :
    (sampleAround.communityMetrics [] none).map DashboardCommunity.figures =
      (sampleSwapped.communityMetrics [] none).map DashboardCommunity.figures := by
  have hDated : ∀ s ∈ sampleAround.stays, s.Dated sampleAround.range.today := by
    intro s hs
    obtain rfl | rfl | rfl | rfl := sampleAround_cases hs <;> exact ⟨by decide, by decide⟩
  exact (reordered_metrics_agree sampleAround [] hDated).mpr (fun _ => sampleAround_settled) sampleSwapped
    ⟨(List.reverse_perm _).symm, List.Perm.refl _, List.Perm.refl _, rfl⟩

/-! ## Two stays of a guest with the same dates -/

def sampleTied (first second : Nat) : CommunityInput :=
  { CommunityInput.sampleCommunity with stays := [CommunityInput.sampleGuest first 5 9 false false, CommunityInput.sampleGuest second 5 9 false false], events := [] }

theorem tied_stays_swap_order : Reordered (sampleTied 1 2) (sampleTied 2 1) ∧
    (∀ s ∈ (sampleTied 1 2).stays, s.Dated (sampleTied 1 2).range.today) ∧
      ((sampleTied 1 2).communityMetrics [] none).map DashboardCommunity.figures ≠
        ((sampleTied 2 1).communityMetrics [] none).map DashboardCommunity.figures := by
  refine ⟨⟨List.Perm.swap _ _ _, List.Perm.refl _, List.Perm.refl _, rfl⟩, ?_, fun h => ?_⟩
  · refine List.forall_mem_cons.mpr ⟨⟨by decide, by decide⟩, List.forall_mem_singleton.mpr ⟨by decide, by decide⟩⟩
  · have hRecords := congrArg (fun metrics => metrics.toOption.map CommunityFigures.records) h
    revert hRecords
    decide +kernel

end GreenPms
