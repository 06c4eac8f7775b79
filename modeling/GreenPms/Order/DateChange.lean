import Mathlib.Data.List.Nodup
import GreenPms.Order.Timeline

/-! # Plans for a change of the dates of a stay

A complete timeline is a unit for each night of its stay. A plan moves the whole stay, or reads the
unit of the nearest night of the stay as it is, so an extension or a move is undone by planning back.
-/

namespace GreenPms

open Checked

structure CompleteTimeline (timeline : List StayTimelineItem) (arrivalDate departureDate : Nat) : Prop where
  nonempty : arrivalDate < departureDate
  length : departureDate - arrivalDate ≤ maxServiceNights
  dates : timeline.map StayTimelineItem.serviceDate = serviceDates arrivalDate departureDate

theorem assertCompleteTimeline_eq_ok {timeline : List StayTimelineItem} {arrivalDate departureDate : Nat} {u : Unit} :
    assertCompleteTimeline timeline arrivalDate departureDate = .ok u ↔
      CompleteTimeline timeline arrivalDate departureDate := by
  simp only [assertCompleteTimeline, bind_eq_ok, enumerateServiceDates_eq_ok, require_eq_ok]
  constructor
  · rintro ⟨_, ⟨hOpen, hLength, rfl⟩, hDates⟩
    exact ⟨hOpen, hLength, hDates⟩
  · rintro ⟨hOpen, hLength, hDates⟩
    exact ⟨_, ⟨hOpen, hLength, rfl⟩, hDates⟩

/-! ## Units by night -/

def timelineOf (unit : Nat → Nat) (arrivalDate departureDate : Nat) : List StayTimelineItem :=
  (serviceDates arrivalDate departureDate).map fun date => ⟨date, unit date⟩

section

variable {unit other : Nat → Nat} {arrivalDate departureDate : Nat}

theorem timelineOf_dates (unit : Nat → Nat) (arrivalDate departureDate : Nat) :
    (timelineOf unit arrivalDate departureDate).map StayTimelineItem.serviceDate =
      serviceDates arrivalDate departureDate := by
  rw [timelineOf, List.map_map]
  exact List.map_id _

theorem mem_timelineOf {item : StayTimelineItem} : item ∈ timelineOf unit arrivalDate departureDate ↔
    (arrivalDate ≤ item.serviceDate ∧ item.serviceDate < departureDate) ∧ item.inventoryUnitId = unit item.serviceDate := by
  rw [timelineOf, List.mem_map]
  constructor
  · rintro ⟨date, hDate, rfl⟩
    exact ⟨mem_serviceDates.mp hDate, rfl⟩
  · rintro ⟨hDate, hUnit⟩
    exact ⟨item.serviceDate, mem_serviceDates.mpr hDate, by rw [← hUnit]⟩

theorem timelineOf_congr (h : ∀ date, arrivalDate ≤ date → date < departureDate → unit date = other date) :
    timelineOf unit arrivalDate departureDate = timelineOf other arrivalDate departureDate := by
  refine List.map_congr_left fun date hDate => ?_
  obtain ⟨hFrom, hBefore⟩ := mem_serviceDates.mp hDate
  rw [h date hFrom hBefore]

theorem timelineOf_find {date : Nat} (hFrom : arrivalDate ≤ date) (hBefore : date < departureDate) :
    (timelineOf unit arrivalDate departureDate).find? (fun item => item.serviceDate = date) = some ⟨date, unit date⟩ := by
  have hMem : (⟨date, unit date⟩ : StayTimelineItem) ∈ timelineOf unit arrivalDate departureDate :=
    mem_timelineOf.mpr ⟨⟨hFrom, hBefore⟩, rfl⟩
  cases hFind : (timelineOf unit arrivalDate departureDate).find? (fun item => item.serviceDate = date) with
  | none => exact absurd (decide_eq_true rfl) (List.find?_eq_none.mp hFind _ hMem)
  | some found =>
    have hDate : found.serviceDate = date := of_decide_eq_true (List.find?_some hFind :)
    obtain ⟨-, hUnit⟩ := mem_timelineOf.mp (List.mem_of_find?_eq_some hFind)
    subst hDate
    rw [← hUnit]

theorem timelineOf_head (h : arrivalDate < departureDate) :
    (timelineOf unit arrivalDate departureDate).head? = some ⟨arrivalDate, unit arrivalDate⟩ := by
  rw [timelineOf, serviceDates_cons h]
  rfl

theorem timelineOf_last (h : arrivalDate < departureDate) :
    (timelineOf unit arrivalDate departureDate).getLast? = some ⟨departureDate - 1, unit (departureDate - 1)⟩ := by
  obtain ⟨last, rfl⟩ : ∃ last, departureDate = last + 1 := ⟨departureDate - 1, by omega⟩
  rw [timelineOf, serviceDates_succ (by omega), List.map_append, List.map_singleton, List.getLast?_concat]
  rfl

theorem timelineOf_complete (unit : Nat → Nat) (hOpen : arrivalDate < departureDate)
    (hLength : departureDate - arrivalDate ≤ maxServiceNights) :
    CompleteTimeline (timelineOf unit arrivalDate departureDate) arrivalDate departureDate :=
  ⟨hOpen, hLength, timelineOf_dates unit arrivalDate departureDate⟩

theorem exists_timelineOf {timeline : List StayTimelineItem}
    (h : timeline.map StayTimelineItem.serviceDate = serviceDates arrivalDate departureDate) :
    ∃ unit, timeline = timelineOf unit arrivalDate departureDate := by
  have hNodup : (timeline.map StayTimelineItem.serviceDate).Nodup := h ▸ serviceDates_nodup ..
  refine ⟨fun date => ((timeline.find? fun item => item.serviceDate = date).map StayTimelineItem.inventoryUnitId).getD 0, ?_⟩
  rw [timelineOf, ← h, List.map_map]
  refine (List.map_id timeline).symm.trans (List.map_congr_left fun item hItem => ?_)
  cases hFind : timeline.find? fun x => x.serviceDate = item.serviceDate with
  | none => exact absurd (decide_eq_true rfl) (List.find?_eq_none.mp hFind item hItem)
  | some found =>
    have hSame : found.serviceDate = item.serviceDate := of_decide_eq_true (List.find?_some hFind :)
    obtain rfl := List.inj_on_of_nodup_map hNodup (List.mem_of_find?_eq_some hFind) hItem hSame
    simp only [Function.comp_apply, id_eq, hFind, Option.map_some, Option.getD_some]

theorem CompleteTimeline.exists_unit {timeline : List StayTimelineItem}
    (h : CompleteTimeline timeline arrivalDate departureDate) : ∃ unit, timeline = timelineOf unit arrivalDate departureDate :=
  exists_timelineOf h.dates

end

/-! ## Plans -/

def nearestNight (arrivalDate departureDate date : Nat) : Nat :=
  if date < arrivalDate then arrivalDate else if departureDate ≤ date then departureDate - 1 else date

section

variable {arrivalDate departureDate date : Nat}

theorem nearestNight_before (h : date < arrivalDate) : nearestNight arrivalDate departureDate date = arrivalDate :=
  if_pos h

theorem nearestNight_after (hOpen : arrivalDate < departureDate) (h : departureDate ≤ date) :
    nearestNight arrivalDate departureDate date = departureDate - 1 := by
  rw [nearestNight, if_neg (by omega), if_pos h]

theorem nearestNight_kept (hFrom : arrivalDate ≤ date) (hBefore : date < departureDate) :
    nearestNight arrivalDate departureDate date = date := by
  rw [nearestNight, if_neg (by omega), if_neg (by omega)]

end

section

variable {unit : Nat → Nat} {oldArrivalDate oldDepartureDate newArrivalDate newDepartureDate : Nat}

theorem plan_moved (hOld : oldArrivalDate < oldDepartureDate) (hOldLength : oldDepartureDate - oldArrivalDate ≤ maxServiceNights)
    (hMove : newArrivalDate + oldDepartureDate = newDepartureDate + oldArrivalDate) :
    planStayDateChangeTimeline (timelineOf unit oldArrivalDate oldDepartureDate) oldArrivalDate oldDepartureDate
      newArrivalDate newDepartureDate =
        .ok (timelineOf (fun date => unit (date + oldArrivalDate - newArrivalDate)) newArrivalDate newDepartureDate) := by
  have hShifted : (timelineOf unit oldArrivalDate oldDepartureDate).map (fun item =>
      { item with serviceDate := item.serviceDate + newArrivalDate - oldArrivalDate }) =
        timelineOf (fun date => unit (date + oldArrivalDate - newArrivalDate)) newArrivalDate newDepartureDate := by
    have hLength : newDepartureDate - newArrivalDate = oldDepartureDate - oldArrivalDate := by omega
    rw [timelineOf, timelineOf, serviceDates, serviceDates, hLength, List.range'_eq_map_range, List.range'_eq_map_range,
      List.map_map, List.map_map, List.map_map]
    refine List.map_congr_left fun i _ => ?_
    simp only [Function.comp_apply, StayTimelineItem.mk.injEq]
    refine ⟨by omega, congrArg unit (by omega)⟩
  have hNew : newArrivalDate < newDepartureDate := by omega
  have hNewLength : newDepartureDate - newArrivalDate ≤ maxServiceNights := by omega
  rw [planStayDateChangeTimeline, bind_eq_ok]
  refine ⟨(), assertCompleteTimeline_eq_ok.mpr (timelineOf_complete unit hOld hOldLength), ?_⟩
  rw [bind_eq_ok]
  refine ⟨_, enumerateServiceDates_eq_ok.mpr ⟨hNew, hNewLength, rfl⟩, ?_⟩
  rw [if_pos hMove]
  simp only [hShifted, bind_eq_ok, pure_eq_ok]
  exact ⟨(), assertCompleteTimeline_eq_ok.mpr (timelineOf_complete _ hNew hNewLength), trivial⟩

theorem plan_replanned (hOld : oldArrivalDate < oldDepartureDate)
    (hOldLength : oldDepartureDate - oldArrivalDate ≤ maxServiceNights) (hNew : newArrivalDate < newDepartureDate)
    (hNewLength : newDepartureDate - newArrivalDate ≤ maxServiceNights)
    (hMove : newArrivalDate + oldDepartureDate ≠ newDepartureDate + oldArrivalDate) :
    planStayDateChangeTimeline (timelineOf unit oldArrivalDate oldDepartureDate) oldArrivalDate oldDepartureDate
      newArrivalDate newDepartureDate =
        .ok (timelineOf (fun date => unit (nearestNight oldArrivalDate oldDepartureDate date)) newArrivalDate
          newDepartureDate) := by
  rw [planStayDateChangeTimeline, bind_eq_ok]
  refine ⟨(), assertCompleteTimeline_eq_ok.mpr (timelineOf_complete unit hOld hOldLength), ?_⟩
  rw [bind_eq_ok]
  refine ⟨_, enumerateServiceDates_eq_ok.mpr ⟨hNew, hNewLength, rfl⟩, ?_⟩
  rw [if_neg hMove]
  simp only [timelineOf_head hOld, timelineOf_last hOld, Option.map_some, bind_eq_ok, expect_eq_ok]
  refine ⟨_, rfl, _, rfl, ?_⟩
  rw [mapM_eq_ok]
  refine List.forall₂_map_right_iff.mpr (List.forall₂_same.mpr fun date _ => ?_)
  dsimp only
  split
  case isTrue hBefore =>
    rw [nearestNight_before hBefore]
    rfl
  case isFalse hFrom =>
    split
    case isTrue hAfter =>
      rw [nearestNight_after hOld hAfter]
      rfl
    case isFalse hBefore =>
      rw [nearestNight_kept (Nat.not_lt.mp hFrom) (Nat.not_le.mp hBefore)]
      simp only [timelineOf_find (Nat.not_lt.mp hFrom) (Nat.not_le.mp hBefore), bind_eq_ok, expect_eq_ok, pure_eq_ok]
      exact ⟨_, rfl, rfl⟩

end

/-- A plan is complete, keeps the nights of both intervals and carries the first and the last unit on; an
extension at either end and a move of the whole stay are undone by planning back. -/
theorem date_change_planned_back {timeline : List StayTimelineItem}
    {oldArrivalDate oldDepartureDate newArrivalDate newDepartureDate : Nat}
    (h : CompleteTimeline timeline oldArrivalDate oldDepartureDate) (hNew : newArrivalDate < newDepartureDate)
    (hLength : newDepartureDate - newArrivalDate ≤ maxServiceNights) :
    ∃ plan, planStayDateChangeTimeline timeline oldArrivalDate oldDepartureDate newArrivalDate newDepartureDate = .ok plan ∧
      CompleteTimeline plan newArrivalDate newDepartureDate ∧
      ((newArrivalDate : Int) - oldArrivalDate ≠ newDepartureDate - oldDepartureDate → ∀ item ∈ plan,
        (oldArrivalDate ≤ item.serviceDate → item.serviceDate < oldDepartureDate → item ∈ timeline) ∧
        (item.serviceDate < oldArrivalDate →
          timeline.head?.map StayTimelineItem.inventoryUnitId = some item.inventoryUnitId) ∧
        (oldDepartureDate ≤ item.serviceDate →
          timeline.getLast?.map StayTimelineItem.inventoryUnitId = some item.inventoryUnitId)) ∧
      ((newArrivalDate ≤ oldArrivalDate ∧ oldDepartureDate ≤ newDepartureDate) ∨
          (newArrivalDate : Int) - oldArrivalDate = newDepartureDate - oldDepartureDate →
        planStayDateChangeTimeline plan newArrivalDate newDepartureDate oldArrivalDate oldDepartureDate = .ok timeline) := by
  obtain ⟨unit, rfl⟩ := h.exists_unit
  by_cases hMove : newArrivalDate + oldDepartureDate = newDepartureDate + oldArrivalDate
  · refine ⟨_, plan_moved h.nonempty h.length hMove, timelineOf_complete _ hNew hLength, fun hDelta => by omega, fun _ => ?_⟩
    rw [plan_moved hNew hLength (by omega)]
    exact congrArg _ (timelineOf_congr fun date hFrom hBefore => congrArg unit (by omega))
  · refine ⟨_, plan_replanned h.nonempty h.length hNew hLength hMove, timelineOf_complete _ hNew hLength, ?_, ?_⟩
    · intro _ item hItem
      obtain ⟨-, hUnit⟩ := mem_timelineOf.mp hItem
      rw [timelineOf_head h.nonempty, timelineOf_last h.nonempty, Option.map_some, Option.map_some, hUnit]
      refine ⟨fun hFrom hBefore => mem_timelineOf.mpr ⟨⟨hFrom, hBefore⟩, ?_⟩, fun hBefore => ?_, fun hAfter => ?_⟩
      · rw [hUnit, nearestNight_kept hFrom hBefore]
      · rw [nearestNight_before hBefore]
      · rw [nearestNight_after h.nonempty hAfter]
    · intro hExtended
      rw [plan_replanned hNew hLength h.nonempty h.length (by omega)]
      refine congrArg _ (timelineOf_congr fun date hFrom hBefore => ?_)
      rw [nearestNight_kept (by omega : newArrivalDate ≤ date) (by omega : date < newDepartureDate),
        nearestNight_kept hFrom hBefore]

theorem date_change_planned_back_sample :
    planStayDateChangeTimeline [⟨9, 4⟩, ⟨10, 4⟩, ⟨11, 5⟩, ⟨12, 5⟩, ⟨13, 5⟩] 9 14 10 12 = .ok [⟨10, 4⟩, ⟨11, 5⟩] := by
  have hComplete : CompleteTimeline [⟨10, 4⟩, ⟨11, 5⟩] 10 12 := ⟨by decide, by decide, rfl⟩
  obtain ⟨plan, hPlan, -, -, hBack⟩ :=
    date_change_planned_back hComplete (by decide : 9 < 14) (by decide : 14 - 9 ≤ maxServiceNights)
  have hExtended : planStayDateChangeTimeline [⟨10, 4⟩, ⟨11, 5⟩] 10 12 9 14 =
      .ok [⟨9, 4⟩, ⟨10, 4⟩, ⟨11, 5⟩, ⟨12, 5⟩, ⟨13, 5⟩] := rfl
  obtain rfl : plan = [⟨9, 4⟩, ⟨10, 4⟩, ⟨11, 5⟩, ⟨12, 5⟩, ⟨13, 5⟩] := Except.ok.inj (hPlan.symm.trans hExtended)
  exact hBack (.inl (by decide))

end GreenPms
