import GreenPms.Library.Choices
import GreenPms.Community.LongStay
import GreenPms.Community.Reordering

/-! # Residents of rows in another order

Of the stays of one registration of an order that are there on a date, the last row is the one whose
guest may be a resident by a long stay. The figures of the date do not depend on the order of the
rows exactly if no exchange of such stays can change how many guests there are.
-/

namespace GreenPms

open Intervals Indexes Keyed Choices

/-! ## What a stay shows -/

section Day

variable (stays : List CommunityStay) (today date : Nat)

instance (key : ResidenceKey) : Decidable (EightNights stays stays today date key) :=
  inferInstanceAs (Decidable (_ ∧ _))

/-- The guest of the stay is a resident by a long stay, if the stay is the last of its seat. -/
def EarnsLongStay (stay : CommunityStay) : Prop :=
  stay.proven = true ∧ ∃ key ∈ stay.residenceKey, EightNights stays stays today date key

instance : DecidablePred (EarnsLongStay stays today date) := fun _ => inferInstanceAs (Decidable (_ ∧ _))

def ByMembership (guest : ResidentKey) : Prop :=
  ∃ stay ∈ residentStays stays today date, residentStatus stays today date stay = some .confirmed ∧
    stay.residentKey = guest

instance : DecidablePred (ByMembership stays today date) := fun _ => inferInstanceAs (Decidable (∃ _ ∈ _, _))

def InReview (seat : Nat × OccupantKey) : Prop :=
  ∃ stay ∈ residentStays stays today date, stay.seat = seat ∧
    (residentStatus stays today date stay = some .unknown ∨
      attendanceOpen stays today date stay = true ∧ residentStatus stays today date stay ≠ some .confirmed)

instance : DecidablePred (InReview stays today date) := fun _ => inferInstanceAs (Decidable (∃ _ ∈ _, _))

/-- The guest whom a stay shows as a resident by a long stay, among those who use a membership or
among the others. -/
def longStayGuest (member : Bool) (stay : CommunityStay) : Option ResidentKey :=
  if EarnsLongStay stays today date stay ∧ decide (ByMembership stays today date stay.residentKey) = member then
    some stay.residentKey
  else none

def settledSeat (stay : CommunityStay) : Option (Nat × OccupantKey) :=
  if EarnsLongStay stays today date stay ∧ InReview stays today date stay.seat then some stay.seat else none

/-- The guests who are shown, and the seats that are taken out of the review. -/
def shownGuests (member : Bool) : Finset ResidentKey :=
  values CommunityStay.seat (longStayGuest stays today date member) (residentStays stays today date)

def settledSeats : Finset (Nat × OccupantKey) :=
  values CommunityStay.seat (settledSeat stays today date) (residentStays stays today date)

/-- Stays of one seat on the date can be exchanged: they agree in whether they take it out of the
review, and no exchange brings a guest or loses one. -/
structure SeatsSettled : Prop where
  review : ∀ s ∈ residentStays stays today date, ∀ t ∈ residentStays stays today date, s.seat = t.seat →
    InReview stays today date s.seat → (EarnsLongStay stays today date s ↔ EarnsLongStay stays today date t)
  members : Steady CommunityStay.seat (longStayGuest stays today date true) (residentStays stays today date)
  others : Steady CommunityStay.seat (longStayGuest stays today date false) (residentStays stays today date)

end Day

section Figures

variable {stays : List CommunityStay} {today date : Nat}

theorem longStay_iff {stay : CommunityStay} (h : stay ∈ residentStays stays today date) :
    (stay.longStayEligible && decide (stay.residentKey ∈ (longStays stays today date stays).map ResidentKey.residence)) =
      true ↔ EarnsLongStay stays today date stay := by
  obtain ⟨hMem, hFree, hHere⟩ := mem_residentStays.mp h
  rw [Bool.and_eq_true, decide_eq_true_eq, longStayEligible_eq, EarnsLongStay, List.mem_map]
  refine and_congr_right fun hProven => ?_
  constructor
  · rintro ⟨key, hKey, hSame⟩
    have hResidence := residentKey_eq.mp hSame.symm
    have hPaid : stay.paidKey = some key := paidKey_eq_some.mpr ⟨hFree, hProven, hResidence⟩
    exact ⟨key, hResidence, (mem_longStays hMem hPaid hHere).mp hKey, stay, hMem, hPaid, hHere⟩
  · rintro ⟨key, hResidence, hNights, -⟩
    have hPaid : stay.paidKey = some key := paidKey_eq_some.mpr ⟨hFree, hProven, hResidence⟩
    exact ⟨key, (mem_longStays hMem hPaid hHere).mpr hNights, (residentKey_eq.mpr hResidence).symm⟩

theorem mem_longStaySeats {row : (Nat × OccupantKey) × CommunityStay} :
    row ∈ longStaySeats stays today date stays ↔ row.1 = row.2.seat ∧
      Stands CommunityStay.seat (residentStays stays today date) row.2 ∧ EarnsLongStay stays today date row.2 := by
  obtain ⟨seat, stay⟩ := row
  rw [longStaySeats, residentPeople, List.mem_filter]
  constructor
  · rintro ⟨hRow, hLong⟩
    obtain ⟨hMem, rfl⟩ := key_of_mem_lastRows hRow
    exact ⟨rfl, mem_lastRows.mp hRow, (longStay_iff hMem).mp hLong⟩
  · rintro ⟨hSeat, hStands, hEarns⟩
    obtain rfl : seat = stay.seat := hSeat
    exact ⟨mem_lastRows.mpr hStands, (longStay_iff hStands.mem).mpr hEarns⟩

theorem mem_shown {member : Bool} {guest : ResidentKey} :
    guest ∈ shownGuests stays today date member ↔ (∃ row ∈ longStaySeats stays today date stays, row.2.residentKey = guest) ∧
      decide (ByMembership stays today date guest) = member := by
  rw [shownGuests, mem_values]
  constructor
  · rintro ⟨stay, hStands, hGuest⟩
    rw [longStayGuest, Option.ite_none_right_eq_some, Option.some_inj] at hGuest
    obtain ⟨⟨hEarns, hMember⟩, rfl⟩ := hGuest
    exact ⟨⟨(stay.seat, stay), mem_longStaySeats.mpr ⟨rfl, hStands, hEarns⟩, rfl⟩, hMember⟩
  · rintro ⟨⟨row, hRow, rfl⟩, hMember⟩
    obtain ⟨-, hStands, hEarns⟩ := mem_longStaySeats.mp hRow
    exact ⟨row.2, hStands, by rw [longStayGuest, if_pos ⟨hEarns, hMember⟩]⟩

theorem eraseDups_card {α : Type*} [DecidableEq α] (xs : List α) : xs.eraseDups.length = xs.toFinset.card := by
  rw [← List.toFinset_card_of_nodup (nodup_eraseDups xs)]
  congr 1
  ext a
  rw [List.mem_toFinset, List.mem_toFinset, List.mem_eraseDups]

theorem mem_confirmedMembers {guest : ResidentKey} :
    guest ∈ confirmedMembers stays today date ↔ ByMembership stays today date guest := by
  simp only [confirmedMembers, List.mem_eraseDups, List.mem_map, List.mem_filter, decide_eq_true_eq, ByMembership, and_assoc]

theorem mem_residentReviews {seat : Nat × OccupantKey} :
    seat ∈ residentReviews stays today date ↔ InReview stays today date seat := by
  simp only [residentReviews, List.mem_eraseDups, List.mem_map, List.mem_filter, Bool.or_eq_true, Bool.and_eq_true,
    decide_eq_true_eq, InReview]
  refine exists_congr fun stay => ?_
  rw [and_assoc, and_congr_right_iff]
  exact fun _ => and_comm

theorem mem_settled {seat : Nat × OccupantKey} :
    seat ∈ settledSeats stays today date ↔ seat ∈ residentReviews stays today date ∧
      seat ∈ (longStaySeats stays today date stays).map Prod.fst := by
  rw [settledSeats, mem_values, mem_residentReviews, List.mem_map]
  constructor
  · rintro ⟨stay, hStands, hSeat⟩
    rw [settledSeat, Option.ite_none_right_eq_some, Option.some_inj] at hSeat
    obtain ⟨⟨hEarns, hReview⟩, rfl⟩ := hSeat
    exact ⟨hReview, (stay.seat, stay), mem_longStaySeats.mpr ⟨rfl, hStands, hEarns⟩, rfl⟩
  · rintro ⟨hReview, row, hRow, rfl⟩
    obtain ⟨hSeat, hStands, hEarns⟩ := mem_longStaySeats.mp hRow
    rw [hSeat] at hReview ⊢
    exact ⟨row.2, hStands, by rw [settledSeat, if_pos ⟨hEarns, hReview⟩]⟩

variable (stays today date) in
theorem residentDay_counts (includeMembers : Bool) :
    (residentDay stays today date stays includeMembers).longStay =
        (shownGuests stays today date true).card + (shownGuests stays today date false).card ∧
      (residentDay stays today date stays includeMembers).knownTotal =
          (shownGuests stays today date false).card + (confirmedMembers stays today date).length ∧
        (residentDay stays today date stays includeMembers).residentReview + (settledSeats stays today date).card =
          (residentReviews stays today date).length := by
  have hMember : ∀ guest, (∃ row ∈ longStaySeats stays today date stays, row.2.residentKey = guest) ↔
      guest ∈ ((longStaySeats stays today date stays).map fun row => row.2.residentKey).eraseDups := by
    intro guest
    rw [List.mem_eraseDups, List.mem_map]
  refine ⟨?_, ?_, ?_⟩
  · rw [← Finset.card_union_of_disjoint]
    · refine (eraseDups_card _).trans (congrArg Finset.card ?_)
      ext guest
      rw [List.mem_toFinset, Finset.mem_union, mem_shown, mem_shown, ← and_or_left, List.mem_map]
      exact (and_iff_left (Bool.eq_false_or_eq_true _)).symm
    · refine Finset.disjoint_left.mpr fun guest hTrue hFalse => ?_
      rw [mem_shown] at hTrue hFalse
      exact Bool.noConfusion (hTrue.2.symm.trans hFalse.2)
  · have hNodup : (confirmedMembers stays today date).Nodup := nodup_eraseDups _
    rw [← List.toFinset_card_of_nodup hNodup, ← Finset.card_union_of_disjoint]
    · refine (eraseDups_card _).trans (congrArg Finset.card ?_)
      ext guest
      rw [List.mem_toFinset, Finset.mem_union, mem_shown, List.mem_append, List.mem_toFinset, mem_confirmedMembers, hMember,
        decide_eq_false_iff_not]
      by_cases hBy : ByMembership stays today date guest <;> simp [hBy]
    · refine Finset.disjoint_left.mpr fun guest hShown hMembers => ?_
      rw [mem_shown, decide_eq_false_iff_not] at hShown
      exact hShown.2 (mem_confirmedMembers.mp (List.mem_toFinset.mp hMembers))
  · have hNodup : (residentReviews stays today date).Nodup := nodup_eraseDups _
    have hSettled : (settledSeats stays today date).card =
        ((residentReviews stays today date).filter fun seat =>
          seat ∈ (longStaySeats stays today date stays).map Prod.fst).length := by
      rw [← List.toFinset_card_of_nodup (hNodup.filter _)]
      congr 1
      ext seat
      rw [mem_settled, List.mem_toFinset, List.mem_filter, decide_eq_true_eq]
    rw [hSettled, Nat.add_comm]
    have hSplit := (List.filter_append_perm (fun seat => decide (seat ∈
      (longStaySeats stays today date stays).map Prod.fst)) (residentReviews stays today date)).length_eq
    rw [List.length_append] at hSplit
    simpa [residentDay] using hSplit

end Figures

/-! ## The rows in another order -/

section Reordered

variable {xs ys : List CommunityStay} {today date : Nat}

theorem earnsLongStay_perm (h : xs.Perm ys) : EarnsLongStay xs today date = EarnsLongStay ys today date := by
  funext stay
  simp only [EarnsLongStay, EightNights, h.mem_iff]

theorem byMembership_perm (h : xs.Perm ys) : ByMembership xs today date = ByMembership ys today date := by
  funext guest
  simp only [ByMembership, (residentStays_perm h).mem_iff, residentStatus_perm h]

theorem inReview_perm (h : xs.Perm ys) : InReview xs today date = InReview ys today date := by
  funext seat
  simp only [InReview, (residentStays_perm h).mem_iff, residentStatus_perm h, attendanceOpen_perm h]

theorem longStayGuest_perm (h : xs.Perm ys) (member : Bool) :
    longStayGuest xs today date member = longStayGuest ys today date member := by
  funext stay
  simp only [longStayGuest, earnsLongStay_perm h, byMembership_perm h]

theorem settledSeat_perm (h : xs.Perm ys) : settledSeat xs today date = settledSeat ys today date := by
  funext stay
  simp only [settledSeat, earnsLongStay_perm h, inReview_perm h]

theorem residentFigures_iff (h : xs.Perm ys) (includeMembers : Bool) :
    (residentDay xs today date xs includeMembers).figures = (residentDay ys today date ys includeMembers).figures ↔
      (shownGuests ys today date true).card = (shownGuests xs today date true).card ∧
        (shownGuests ys today date false).card = (shownGuests xs today date false).card ∧
          (settledSeats ys today date).card = (settledSeats xs today date).card := by
  obtain ⟨hLong, hKnown, hReview⟩ := residentDay_counts xs today date includeMembers
  obtain ⟨hLong', hKnown', hReview'⟩ := residentDay_counts ys today date includeMembers
  have hMembers : (confirmedMembers xs today date).length = (confirmedMembers ys today date).length :=
    (confirmedMembers_perm h).length_eq
  have hReviews : (residentReviews xs today date).length = (residentReviews ys today date).length :=
    (residentReviews_perm h).length_eq
  have hOpen : (memberReviews xs today date).isEmpty = (memberReviews ys today date).isEmpty :=
    (memberReviews_perm h).isEmpty_eq
  have hOpenCount : (memberReviews xs today date).length = (memberReviews ys today date).length :=
    (memberReviews_perm h).length_eq
  constructor
  · intro hFigures
    have hLongSame := congrArg ResidentFigures.longStay hFigures
    have hKnownSame := congrArg ResidentFigures.knownTotal hFigures
    have hReviewSame := congrArg ResidentFigures.residentReview hFigures
    simp only [CommunityResidentDay.figures] at hLongSame hKnownSame hReviewSame
    omega
  · rintro ⟨hTrue, hFalse, hSettled⟩
    have hLongSame : (residentDay xs today date xs includeMembers).longStay =
        (residentDay ys today date ys includeMembers).longStay := by omega
    have hKnownSame : (residentDay xs today date xs includeMembers).knownTotal =
        (residentDay ys today date ys includeMembers).knownTotal := by omega
    have hReviewSame : (residentDay xs today date xs includeMembers).residentReview =
        (residentDay ys today date ys includeMembers).residentReview := by omega
    have hTotal : ∀ stays, (residentDay stays today date stays includeMembers).total =
        if (residentDay stays today date stays includeMembers).residentReview = 0 then
          some (residentDay stays today date stays includeMembers).knownTotal else none := fun _ => rfl
    rw [CommunityResidentDay.figures, CommunityResidentDay.figures, hTotal, hTotal, hLongSame, hKnownSame, hReviewSame]
    simp only [residentDay, hMembers, hOpen, hOpenCount]

/-- The figures of the date do not depend on the order of the rows exactly if its seats are settled. -/
theorem residentDay_agree_iff (includeMembers : Bool) :
    (∀ ys, xs.Perm ys → (residentDay xs today date xs includeMembers).figures =
      (residentDay ys today date ys includeMembers).figures) ↔ SeatsSettled xs today date := by
  have hReview : Steady CommunityStay.seat (settledSeat xs today date) (residentStays xs today date) ↔
      ∀ s ∈ residentStays xs today date, ∀ t ∈ residentStays xs today date, s.seat = t.seat →
        InReview xs today date s.seat → (EarnsLongStay xs today date s ↔ EarnsLongStay xs today date t) := by
    rw [steady_iff_of_own fun s x hx => ?_]
    · refine forall₅_congr fun s _ t _ hSeat => ?_
      rw [settledSeat, settledSeat, ← hSeat]
      by_cases hOpen : InReview xs today date s.seat
      · by_cases hs : EarnsLongStay xs today date s <;> by_cases ht : EarnsLongStay xs today date t <;> simp [hOpen, hs, ht]
      · simp [hOpen]
    · rw [settledSeat, Option.ite_none_right_eq_some, Option.some_inj] at hx
      exact hx.2.symm
  have hShown : ∀ {ys}, xs.Perm ys → ∀ member, shownGuests ys today date member =
      values CommunityStay.seat (longStayGuest xs today date member) (residentStays ys today date) := fun h member => by
    rw [shownGuests, longStayGuest_perm h]
  have hSettled : ∀ {ys}, xs.Perm ys → settledSeats ys today date =
      values CommunityStay.seat (settledSeat xs today date) (residentStays ys today date) := fun h => by
    rw [settledSeats, settledSeat_perm h]
  constructor
  · intro hAgree
    have hOrders : ∀ order, (residentStays xs today date).Perm order → ∃ ys, xs.Perm ys ∧ residentStays ys today date = order :=
      fun order hOrder => ⟨_, (List.filter_append_perm _ xs).symm.trans (hOrder.append_right _), filter_arranged hOrder⟩
    refine ⟨hReview.mp (constant_iff_steady.mp fun order hOrder => ?_), constant_iff_steady.mp fun order hOrder => ?_,
      constant_iff_steady.mp fun order hOrder => ?_⟩
    all_goals
      obtain ⟨ys, hPerm, rfl⟩ := hOrders order hOrder
      obtain ⟨hTrue, hFalse, hSeats⟩ := (residentFigures_iff hPerm includeMembers).mp (hAgree ys hPerm)
    · rw [← hSettled hPerm]
      exact hSeats
    · rw [← hShown hPerm]
      exact hTrue
    · rw [← hShown hPerm]
      exact hFalse
  · intro hSeats ys hPerm
    have hOrder : (residentStays xs today date).Perm (residentStays ys today date) := residentStays_perm hPerm
    rw [residentFigures_iff hPerm, hShown hPerm, hShown hPerm, hSettled hPerm]
    exact ⟨constant_iff_steady.mpr hSeats.members _ hOrder, constant_iff_steady.mpr hSeats.others _ hOrder,
      constant_iff_steady.mpr (hReview.mpr hSeats.review) _ hOrder⟩

end Reordered

end GreenPms
