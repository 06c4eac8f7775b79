import Mathlib.Data.Set.Card
import GreenPms.Community.Continuity

/-! # Residents by a long stay

The residents that a date counts by a long stay are the guests of eight nights: those of whom paid
stays cover the date and the seven before it, and who are there on it by a paid stay.
-/

namespace GreenPms

open Intervals Keyed

/-- Paid stays cover the date and the seven before it, and a paid stay is there on it. -/
def EightNights (stays continuous : List CommunityStay) (today date : Nat) (key : ResidenceKey) : Prop :=
  (∀ n ≤ 7, ∃ stay ∈ continuous, stay.paidKey = some key ∧ stay.arrival + n ≤ date ∧ date < stay.departure + n) ∧
    ∃ stay ∈ stays, stay.paidKey = some key ∧ stay.relevant today date = true

def OneStayEach (stays : List CommunityStay) (today date : Nat) : Prop :=
  ∀ s ∈ residentStays stays today date, ∀ s' ∈ residentStays stays today date, s.seat = s'.seat →
    s.residenceKey.isSome = true → s = s'

theorem relevant_dates {stay : CommunityStay} {today date : Nat} (h : stay.relevant today date = true) :
    stay.arrival ≤ date ∧ date < stay.departure := by
  unfold CommunityStay.relevant at h
  split at h
  all_goals
    rw [Bool.and_eq_true, Bool.and_eq_true, decide_eq_true_eq, decide_eq_true_eq] at h
    exact ⟨h.1.2, h.2⟩

theorem paidKey_eq_some {stay : CommunityStay} {key : ResidenceKey} : stay.paidKey = some key ↔
    stay.free = false ∧ stay.proven = true ∧ stay.residenceKey = some key := by
  unfold CommunityStay.paidKey CommunityStay.provenKey
  cases stay.free <;> cases stay.proven <;> simp

theorem longStayEligible_eq (stay : CommunityStay) : stay.longStayEligible = stay.proven := by
  rw [CommunityStay.longStayEligible, CommunityStay.proven, Bool.and_comm stay.attendanceConfirmed]

section Residences

variable {stays continuous : List CommunityStay} {today date : Nat} {key : ResidenceKey}

theorem longStayIn_iff {operating : List CommunityStay} {stay : CommunityStay} (hMem : stay ∈ operating)
    (hHere : stay.relevant today date = true) (span : Nat × Nat) :
    longStayIn today date operating span = true ↔ span.1 + 7 ≤ date ∧ date < span.2 := by
  obtain ⟨hArrived, hStays⟩ := relevant_dates hHere
  rw [longStayIn, Bool.and_eq_true, Bool.and_eq_true, Bool.and_eq_true, decide_eq_true_eq, decide_eq_true_eq,
    decide_eq_true_eq]
  constructor
  · rintro ⟨⟨⟨hFirst, hReach⟩, hNights⟩, -⟩
    exact ⟨by omega, hReach⟩
  · rintro ⟨hNights, hReach⟩
    refine ⟨⟨⟨by omega, hReach⟩, by omega⟩, List.any_eq_true.mpr ⟨stay, hMem, ?_⟩⟩
    rw [Bool.and_eq_true, Bool.and_eq_true, decide_eq_true_eq, decide_eq_true_eq]
    refine ⟨⟨?_, by omega⟩, by omega⟩
    split
    · exact hHere
    · exact decide_eq_true ⟨hArrived, hStays⟩

theorem residence_iff (rows : List CommunityStay) :
    (∃ span ∈ residenceSpans rows, span.1 + 7 ≤ date ∧ date < span.2) ↔
      ∀ n ≤ 7, ∃ stay ∈ rows, stay.arrival + n ≤ date ∧ date < stay.departure + n := by
  have hMem (a : CommunityStay) : a ∈ rows.insertionSort arrivesBefore ↔ a ∈ rows := List.mem_insertionSort _
  have hSpans : (∃ span ∈ residenceSpans rows, span.1 + 7 ≤ date ∧ date < span.2) ↔
      ∃ c ∈ residences rows, first CommunityStay.arrival c + 7 ≤ date ∧ date < reach CommunityStay.departure c := by
    simp [residenceSpans]
  rw [hSpans]
  by_cases hDate : 7 ≤ date
  · have hCover := chains_cover_iff CommunityStay.departure (sorted_arrivals rows) (Nat.sub_le date 7)
    have hFirst (c : List CommunityStay) : first CommunityStay.arrival c + 7 ≤ date ↔
        first CommunityStay.arrival c ≤ date - 7 := by omega
    simp only [residences, hFirst]
    rw [hCover]
    constructor
    · intro hDates n hn
      obtain ⟨a, ha, hLow, hHigh⟩ := hDates (date - n) (by omega) (by omega)
      exact ⟨a, (hMem a).mp ha, by omega, by omega⟩
    · intro hNights d hFrom hUntil
      obtain ⟨a, ha, hLow, hHigh⟩ := hNights (date - d) (by omega)
      exact ⟨a, (hMem a).mpr ha, by omega, by omega⟩
  · refine iff_of_false ?_ ?_
    · rintro ⟨c, -, hFirst, -⟩
      omega
    · intro hNights
      obtain ⟨a, -, hLow, -⟩ := hNights 7 (Nat.le_refl 7)
      omega

/-- The key of a guest who is there is among the long stays exactly if his paid stays cover eight nights. -/
theorem mem_longStays {stay : CommunityStay} (hMem : stay ∈ stays) (hPaid : stay.paidKey = some key)
    (hHere : stay.relevant today date = true) : key ∈ longStays stays today date continuous ↔
      ∀ n ≤ 7, ∃ s ∈ continuous, s.paidKey = some key ∧ s.arrival + n ≤ date ∧ date < s.departure + n := by
  have hOperating : stay ∈ stays.filter fun s => s.paidKey = some key := List.mem_filter.mpr ⟨hMem, decide_eq_true hPaid⟩
  have hGroup : key ∈ longStays stays today date continuous ↔ (∃ s ∈ continuous, s.paidKey = some key) ∧
      ∃ span ∈ residenceSpans (continuous.filter fun s => s.paidKey = some key), span.1 + 7 ≤ date ∧ date < span.2 := by
    rw [longStays, List.mem_map]
    constructor
    · rintro ⟨⟨k, rows⟩, hGroup, rfl⟩
      obtain ⟨hGroup, hAny⟩ := List.mem_filter.mp hGroup
      obtain ⟨hKey, hRows⟩ := Indexes.mem_groups.mp hGroup
      obtain ⟨span, hSpan, hIn⟩ := List.any_eq_true.mp hAny
      rw [hRows] at hSpan
      exact ⟨hKey, span, hSpan, (longStayIn_iff hOperating hHere span).mp hIn⟩
    · rintro ⟨hKey, span, hSpan, hIn⟩
      refine ⟨(key, continuous.filter fun s => s.paidKey = some key), List.mem_filter.mpr ⟨?_, ?_⟩, rfl⟩
      · exact Indexes.mem_groups.mpr ⟨hKey, rfl⟩
      · exact List.any_eq_true.mpr ⟨span, hSpan, (longStayIn_iff hOperating hHere span).mpr hIn⟩
  rw [hGroup, residence_iff]
  constructor
  · rintro ⟨-, hNights⟩ n hn
    obtain ⟨s, hs, hDates⟩ := hNights n hn
    obtain ⟨hs, hKey⟩ := List.mem_filter.mp hs
    exact ⟨s, hs, of_decide_eq_true hKey, hDates⟩
  · intro hNights
    refine ⟨?_, fun n hn => ?_⟩
    · obtain ⟨s, hs, hKey, -⟩ := hNights 0 (Nat.zero_le 7)
      exact ⟨s, hs, hKey⟩
    · obtain ⟨s, hs, hKey, hDates⟩ := hNights n hn
      exact ⟨s, List.mem_filter.mpr ⟨hs, decide_eq_true hKey⟩, hDates⟩

end Residences

section Seats

variable {stays continuous : List CommunityStay} {today date : Nat}

theorem mem_residentStays {stay : CommunityStay} : stay ∈ residentStays stays today date ↔
    stay ∈ stays ∧ stay.free = false ∧ stay.relevant today date = true := by
  rw [residentStays, List.mem_filter, Bool.and_eq_true, Bool.not_eq_true']

theorem mem_residentPeople (hOne : OneStayEach stays today date) {stay : CommunityStay}
    (hStay : stay ∈ residentStays stays today date) (hKnown : stay.residenceKey.isSome = true) :
    (stay.seat, stay) ∈ residentPeople stays today date := by
  rw [residentPeople, mem_lastRows]
  have hFull : (residentStays stays today date).filter (fun s => s.seat = stay.seat) ≠ [] :=
    List.ne_nil_of_mem (List.mem_filter.mpr ⟨hStay, decide_eq_true rfl⟩)
  obtain ⟨hLast, hSeat⟩ := List.mem_filter.mp (List.getLast_mem hFull)
  rw [List.getLast?_eq_some_getLast hFull]
  exact congrArg some (hOne stay hStay _ hLast (of_decide_eq_true hSeat).symm hKnown).symm

theorem residentKey_eq {stay : CommunityStay} {key : ResidenceKey} :
    stay.residentKey = .residence key ↔ stay.residenceKey = some key := by
  rw [CommunityStay.residentKey]
  cases stay.residenceKey <;> simp

theorem mem_longStayPeople (hOne : OneStayEach stays today date) (guest : ResidentKey) :
    guest ∈ (longStaySeats stays today date continuous).map (fun seat => seat.2.residentKey) ↔
      ∃ key, guest = .residence key ∧ EightNights stays continuous today date key := by
  rw [List.mem_map]
  constructor
  · rintro ⟨⟨seat, stay⟩, hSeat, rfl⟩
    obtain ⟨hPeople, hLong⟩ := List.mem_filter.mp hSeat
    rw [Bool.and_eq_true, decide_eq_true_eq, List.mem_map] at hLong
    obtain ⟨hEligible, key, hKey, hSame⟩ := hLong
    obtain ⟨hMem, hFree, hHere⟩ := mem_residentStays.mp (key_of_mem_lastRows hPeople).1
    have hPaid : stay.paidKey = some key :=
      paidKey_eq_some.mpr ⟨hFree, (longStayEligible_eq stay).symm.trans hEligible, residentKey_eq.mp hSame.symm⟩
    exact ⟨key, hSame.symm, (mem_longStays hMem hPaid hHere).mp hKey, stay, hMem, hPaid, hHere⟩
  · rintro ⟨key, rfl, hNights, stay, hMem, hPaid, hHere⟩
    obtain ⟨hFree, hProven, hKey⟩ := paidKey_eq_some.mp hPaid
    have hPeople := mem_residentPeople hOne (mem_residentStays.mpr ⟨hMem, hFree, hHere⟩) (by rw [hKey]; rfl)
    refine ⟨(stay.seat, stay), List.mem_filter.mpr ⟨hPeople, ?_⟩, residentKey_eq.mpr hKey⟩
    rw [Bool.and_eq_true, decide_eq_true_eq, longStayEligible_eq]
    exact ⟨hProven, List.mem_map.mpr ⟨key, (mem_longStays hMem hPaid hHere).mpr hNights, (residentKey_eq.mpr hKey).symm⟩⟩

theorem residentDay_longStay (hOne : OneStayEach stays today date) (includeMembers : Bool) :
    (residentDay stays today date continuous includeMembers).longStay =
      {key | EightNights stays continuous today date key}.ncard := by
  have hImage : ResidentKey.residence '' {key | EightNights stays continuous today date key} =
      {guest | guest ∈ ((longStaySeats stays today date continuous).map fun seat => seat.2.residentKey).eraseDups} := by
    ext guest
    rw [Set.mem_image, Set.mem_ofPred_eq, List.mem_eraseDups, mem_longStayPeople hOne]
    simp only [Set.mem_ofPred_eq, eq_comm, and_comm]
  have hInjective : Function.Injective ResidentKey.residence := fun _ _ h => ResidentKey.residence.inj h
  rw [← Set.ncard_image_of_injective _ hInjective, hImage, ← List.coe_toFinset, Set.ncard_coe_finset,
    List.toFinset_card_of_nodup (Indexes.nodup_eraseDups _)]
  rfl

end Seats

namespace CommunityInput

variable (input : CommunityInput)

def continuous (continuity : Option CommunityContinuity) : List CommunityStay :=
  (continuity.map CommunityContinuity.stays).getD input.stays

/-- The guests that the metrics count by a long stay, today and on the dates of the range. -/
theorem long_stays_are_eight_nights (input : CommunityInput) (evidenceIssues : List String)
    (continuity : Option CommunityContinuity) (result : DashboardCommunity)
    (h : input.communityMetrics evidenceIssues continuity = .ok result)
    (hOne : ∀ date, date = input.range.today ∨ input.range.covers date = true →
      OneStayEach input.stays input.range.today date) :
    result.residentCurrent.longStay =
      {key | EightNights input.stays (input.continuous continuity) input.range.today input.range.today key}.ncard ∧
    result.residentTrend.map CommunityResidentDay.date = serviceDates input.range.fromDate (input.range.toDate + 1) ∧
    ∀ row ∈ result.residentTrend, row.longStay =
      {key | EightNights input.stays (input.continuous continuity) input.range.today row.date key}.ncard := by
  simp only [communityMetrics, Checked.bind_eq_ok, Checked.pure_eq_ok] at h
  obtain ⟨dates, hDates, rfl⟩ := h
  obtain ⟨-, -, rfl⟩ := enumerateServiceDates_eq_ok.mp hDates
  refine ⟨residentDay_longStay (hOne _ (.inl rfl)) true, ?_, fun row hRow => ?_⟩
  · rw [List.map_map]
    exact List.map_id _
  · obtain ⟨date, hDate, rfl⟩ := List.mem_map.mp hRow
    have hCovers : input.range.covers date = true := by
      obtain ⟨hFrom, hTo⟩ := mem_serviceDates.mp hDate
      rw [CommunityRange.covers, Bool.and_eq_true, decide_eq_true_eq, decide_eq_true_eq]
      omega
    exact residentDay_longStay (hOne date (.inr hCovers)) false

theorem sampleCommunity_oneStayEach (date : Nat) : OneStayEach sampleCommunity.stays sampleCommunity.range.today date := by
  intro s hs s' hs' hSeat _
  have hAll : ∀ s ∈ sampleCommunity.stays, ∀ s' ∈ sampleCommunity.stays, s.seat = s'.seat → s = s' := by
    simp only [sampleCommunity, List.forall_mem_cons, List.not_mem_nil, false_implies, implies_true, and_true]
    simp only [true_and]
    refine ⟨⟨fun h => ?_, fun h => ?_⟩, ⟨fun h => ?_, fun h => ?_⟩, fun h => ?_, fun h => ?_⟩
    all_goals exact absurd h (by decide)
  exact hAll s (mem_residentStays.mp hs).1 s' (mem_residentStays.mp hs').1 hSeat

theorem long_stays_are_eight_nights_sample : ∃ result, sampleCommunity.communityMetrics [] none = .ok result ∧
    result.residentCurrent.longStay = {key | EightNights sampleCommunity.stays (sampleCommunity.continuous none)
      sampleCommunity.range.today sampleCommunity.range.today key}.ncard :=
  ⟨_, rfl, (long_stays_are_eight_nights sampleCommunity [] none _ rfl fun date _ => sampleCommunity_oneStayEach date).1⟩

end CommunityInput

end GreenPms
