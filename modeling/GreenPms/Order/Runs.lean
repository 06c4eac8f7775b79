import Mathlib.Data.List.Nodup
import Mathlib.Data.List.Pairwise
import GreenPms.Order.Timeline

/-! # The runs and the difference of timelines

The runs of a timeline are maximal: no night of it prolongs a run at either end. The difference of
two timelines splits the nights of each of them in two.
-/

namespace GreenPms

open Checked

/-! ## Runs -/

def StayTimelineItem.run (item : StayTimelineItem) : TimelineRun :=
  ⟨item.inventoryUnitId, item.serviceDate, item.serviceDate + 1⟩

def TimelineRun.Joins (run next : TimelineRun) : Prop :=
  run.inventoryUnitId = next.inventoryUnitId ∧ run.departureDate = next.arrivalDate

instance (run next : TimelineRun) : Decidable (run.Joins next) :=
  inferInstanceAs (Decidable (_ ∧ _))

/-- One turn of the loop of `timelineRuns`. -/
def pushNight (runs : List TimelineRun) (item : StayTimelineItem) : List TimelineRun :=
  match runs.getLast? with
  | some current =>
      if current.Joins item.run then runs.dropLast ++ [{ current with departureDate := item.serviceDate + 1 }]
      else runs ++ [item.run]
  | none => runs ++ [item.run]

def TimelineRun.joinTo (run : TimelineRun) : List TimelineRun → List TimelineRun
  | next :: rest =>
      if run.Joins next then { run with departureDate := next.departureDate } :: rest else run :: next :: rest
  | [] => [run]

theorem timelineRuns_cons (item : StayTimelineItem) (rest : List StayTimelineItem) :
    timelineRuns (item :: rest) = item.run.joinTo (timelineRuns rest) := by
  rw [timelineRuns]
  cases timelineRuns rest with
  | nil => rfl
  | cons next runs =>
    have hIff : next.inventoryUnitId = item.inventoryUnitId ∧ next.arrivalDate = item.serviceDate + 1 ↔
        item.run.Joins next := and_congr eq_comm eq_comm
    simp only [TimelineRun.joinTo, hIff]
    split
    · next hJoins =>
      obtain ⟨hUnit, -⟩ := hJoins
      rw [← show item.inventoryUnitId = next.inventoryUnitId from hUnit]
      rfl
    · rfl

theorem TimelineRun.joinTo_joinTo {run next : TimelineRun} (h : run.Joins next) (runs : List TimelineRun) :
    run.joinTo (next.joinTo runs) = ({ run with departureDate := next.departureDate } : TimelineRun).joinTo runs := by
  cases runs with
  | nil => simp only [joinTo, if_pos h]
  | cons later rest =>
    have hUnit := h.1
    by_cases hLater : next.Joins later
    · have hLonger : ({ run with departureDate := next.departureDate } : TimelineRun).Joins later :=
        ⟨hUnit.trans hLater.1, hLater.2⟩
      simp only [joinTo, if_pos hLater, if_pos hLonger]
      exact if_pos ⟨hUnit, h.2⟩
    · have hLonger : ¬ ({ run with departureDate := next.departureDate } : TimelineRun).Joins later :=
        fun hJoins => hLater ⟨hUnit.symm.trans hJoins.1, hJoins.2⟩
      simp only [joinTo, if_neg hLater, if_pos h, if_neg hLonger]

theorem foldl_pushNight (done : List TimelineRun) (run : TimelineRun) (rest : List StayTimelineItem) :
    rest.foldl pushNight (done ++ [run]) = done ++ run.joinTo (timelineRuns rest) := by
  induction rest generalizing done run with
  | nil => rfl
  | cons item rest ih =>
    rw [List.foldl_cons, timelineRuns_cons, pushNight, List.getLast?_concat]
    by_cases hJoins : run.Joins item.run
    · simp only [if_pos hJoins, List.dropLast_concat]
      rw [ih, TimelineRun.joinTo_joinTo hJoins]
      rfl
    · simp only [if_neg hJoins]
      rw [ih, List.append_assoc]
      congr 1
      -- the run of the night still starts at the night, so the run before it is not joined either
      cases timelineRuns rest with
      | nil => simp only [TimelineRun.joinTo, if_neg hJoins, List.singleton_append]
      | cons later runs =>
        simp only [TimelineRun.joinTo]
        by_cases hLater : item.run.Joins later
        · rw [if_pos hLater, List.singleton_append]
          exact (if_neg hJoins).symm
        · rw [if_neg hLater, List.singleton_append]
          exact (if_neg hJoins).symm

theorem timelineRuns_eq_foldl (timeline : List StayTimelineItem) :
    timelineRuns timeline = timeline.foldl pushNight [] := by
  cases timeline with
  | nil => rfl
  | cons item rest =>
    rw [List.foldl_cons, timelineRuns_cons]
    exact (foldl_pushNight [] item.run rest).symm

/-- The run ends before the next begins, or where it begins and in another unit. -/
def TimelineRun.Apart (run next : TimelineRun) : Prop :=
  run.departureDate ≤ next.arrivalDate ∧ ¬ run.Joins next

theorem mem_timelineRuns_nights {timeline : List StayTimelineItem} {item : StayTimelineItem} :
    item ∈ timeline ↔ ∃ run ∈ timelineRuns timeline, item.inventoryUnitId = run.inventoryUnitId ∧
      run.arrivalDate ≤ item.serviceDate ∧ item.serviceDate < run.departureDate := by
  nth_rewrite 1 [← (timelineRuns_items timeline).1]
  simp only [List.mem_flatMap, TimelineRun.items, List.mem_map, mem_serviceDates]
  constructor
  · rintro ⟨run, hRun, date, hDate, rfl⟩
    exact ⟨run, hRun, rfl, hDate⟩
  · rintro ⟨run, hRun, hUnit, hDate⟩
    exact ⟨run, hRun, item.serviceDate, hDate, by rw [← hUnit]⟩

theorem TimelineRun.joinTo_apart {run : TimelineRun} {runs : List TimelineRun} (hRuns : runs.Pairwise Apart)
    (hOpen : ∀ next ∈ runs, next.arrivalDate < next.departureDate)
    (hAfter : ∀ next ∈ runs, run.departureDate ≤ next.arrivalDate) : (run.joinTo runs).Pairwise Apart := by
  cases runs with
  | nil => exact List.pairwise_singleton _ _
  | cons next rest =>
    obtain ⟨hNext, hRest⟩ := List.pairwise_cons.mp hRuns
    simp only [joinTo]
    by_cases hJoins : run.Joins next
    · rw [if_pos hJoins]
      refine List.pairwise_cons.mpr ⟨fun later hLater => ?_, hRest⟩
      obtain ⟨hOrder, hApart⟩ := hNext later hLater
      exact ⟨hOrder, fun h => hApart ⟨hJoins.1.symm.trans h.1, h.2⟩⟩
    · rw [if_neg hJoins]
      refine List.pairwise_cons.mpr ⟨List.forall_mem_cons.mpr ⟨⟨hAfter next List.mem_cons_self, hJoins⟩, ?_⟩, hRuns⟩
      intro later hLater
      have hOrder := (hNext later hLater).1
      have hHere := hAfter next List.mem_cons_self
      have hNonempty := hOpen next List.mem_cons_self
      exact ⟨by omega, fun h => by have := h.2; omega⟩

theorem timelineRuns_apart {timeline : List StayTimelineItem}
    (h : (timeline.map StayTimelineItem.serviceDate).Pairwise (· < ·)) :
    (timelineRuns timeline).Pairwise TimelineRun.Apart := by
  induction timeline with
  | nil => exact List.Pairwise.nil
  | cons item rest ih =>
    obtain ⟨hHere, hRest⟩ := List.pairwise_cons.mp h
    have hOpen := (timelineRuns_items rest).2
    rw [timelineRuns_cons]
    refine TimelineRun.joinTo_apart (ih hRest) hOpen fun next hNext => ?_
    have hFirst : (⟨next.arrivalDate, next.inventoryUnitId⟩ : StayTimelineItem) ∈ rest :=
      mem_timelineRuns_nights.mpr ⟨next, hNext, rfl, Nat.le_refl _, hOpen next hNext⟩
    exact hHere _ (List.mem_map_of_mem hFirst)

/-- Runs whose nights in order are those of the timeline, and which no night of it prolongs. -/
structure MaximalRuns (timeline : List StayTimelineItem) (runs : List TimelineRun) : Prop where
  items : runs.flatMap TimelineRun.items = timeline
  nonempty : ∀ run ∈ runs, run.arrivalDate < run.departureDate
  maximal : ∀ run ∈ runs, ∀ item ∈ timeline, item.inventoryUnitId = run.inventoryUnitId →
    item.serviceDate ≠ run.departureDate ∧ item.serviceDate + 1 ≠ run.arrivalDate

theorem timelineRuns_maximal {timeline : List StayTimelineItem}
    (h : (timeline.map StayTimelineItem.serviceDate).Pairwise (· < ·)) :
    MaximalRuns timeline (timelineRuns timeline) := by
  obtain ⟨hItems, hOpen⟩ := timelineRuns_items timeline
  refine ⟨hItems, hOpen, fun run hRun item hItem hUnit => ?_⟩
  obtain ⟨other, hOther, hOtherUnit, hFrom, hTo⟩ := mem_timelineRuns_nights.mp hItem
  have hNonempty := hOpen run hRun
  have hPairs : (timelineRuns timeline).Pairwise fun a b => a.Apart b ∨ b.Apart a :=
    (timelineRuns_apart h).imp .inl
  have : Std.Symm fun a b : TimelineRun => a.Apart b ∨ b.Apart a := ⟨fun _ _ => Or.symm⟩
  by_cases hSame : run = other
  · subst hSame
    omega
  · obtain hLater | hEarlier := hPairs.forall hRun hOther hSame
    · refine ⟨fun hDate => hLater.2 ⟨hUnit.symm.trans hOtherUnit, ?_⟩, ?_⟩
      · have := hLater.1
        omega
      · have := hLater.1
        omega
    · refine ⟨?_, fun hDate => hEarlier.2 ⟨hOtherUnit.symm.trans hUnit, ?_⟩⟩
      · have := hEarlier.1
        omega
      · have := hEarlier.1
        omega

/-! ## Differences -/

/-- Each night of either timeline is in exactly one list of its side. -/
structure DiffExact (before after : List StayTimelineItem) (diff : StayTimelinePairDiff) : Prop where
  before_perm : (diff.preserved ++ diff.released).Perm before
  after_perm : (diff.preserved ++ diff.added).Perm after
  before_dates : ((diff.preserved ++ diff.released).map StayTimelineItem.serviceDate).Nodup
  after_dates : ((diff.preserved ++ diff.added).map StayTimelineItem.serviceDate).Nodup

theorem timelinePairDiff_exact {before after : List StayTimelineItem}
    (hBefore : (before.map StayTimelineItem.serviceDate).Nodup)
    (hAfter : (after.map StayTimelineItem.serviceDate).Nodup) :
    DiffExact before after (timelinePairDiff before after) := by
  have hBeforePerm : ((timelinePairDiff before after).preserved ++ (timelinePairDiff before after).released).Perm before :=
    List.filter_append_perm _ before
  -- the nights that both have, in the order of either timeline
  have hPreserved : (timelinePairDiff before after).preserved.Perm (after.filter fun item => before.contains item) := by
    refine (List.perm_ext_iff_of_nodup ((List.Nodup.of_map _ hBefore).filter _)
      ((List.Nodup.of_map _ hAfter).filter _)).mpr fun item => ?_
    simp only [List.mem_filter, List.contains_iff_mem]
    exact And.comm
  have hAfterPerm : ((timelinePairDiff before after).preserved ++ (timelinePairDiff before after).added).Perm after :=
    (hPreserved.append_right _).trans (List.filter_append_perm _ after)
  exact ⟨hBeforePerm, hAfterPerm, (hBeforePerm.map _).nodup_iff.mpr hBefore, (hAfterPerm.map _).nodup_iff.mpr hAfter⟩

end GreenPms
