import GreenPms.Foundation.Dates

/-! # Stay timelines

The night-by-night arrangement of a stay, and how a change of its dates or unit is compared with
it: a pair of a date and a unit is preserved, released or added.
-/

namespace GreenPms

open Checked

structure StayTimelineItem where
  serviceDate : Nat
  inventoryUnitId : Nat
  deriving DecidableEq, Repr

structure StayTimelinePairDiff where
  preserved : List StayTimelineItem
  released : List StayTimelineItem
  added : List StayTimelineItem

def timelinePairDiff (before after : List StayTimelineItem) : StayTimelinePairDiff where
  preserved := before.filter fun item => after.contains item
  released := before.filter fun item => !after.contains item
  added := after.filter fun item => !before.contains item

def damagedTimelineError : DomainError :=
  domainError .internalError "当前住宿安排时间线损坏，不能调整住宿日期"

def assertCompleteTimeline (timeline : List StayTimelineItem) (arrivalDate departureDate : Nat) :
    Except DomainError Unit := do
  let expectedDates ← enumerateServiceDates arrivalDate departureDate
  require (timeline.map StayTimelineItem.serviceDate = expectedDates) damagedTimelineError

theorem assertCompleteTimeline_dates {timeline : List StayTimelineItem} {arrivalDate departureDate : Nat}
    (h : assertCompleteTimeline timeline arrivalDate departureDate = .ok ()) :
    timeline.map StayTimelineItem.serviceDate = serviceDates arrivalDate departureDate := by
  simp only [assertCompleteTimeline, bind_eq_ok, enumerateServiceDates_eq_ok, require_eq_ok] at h
  obtain ⟨dates, ⟨-, -, rfl⟩, hDates⟩ := h
  exact hDates

/-- The timeline of a stay moved as a whole, or with its first and last unit carried on. -/
def planStayDateChangeTimeline (currentTimeline : List StayTimelineItem)
    (oldArrivalDate oldDepartureDate newArrivalDate newDepartureDate : Nat) :
    Except DomainError (List StayTimelineItem) := do
  assertCompleteTimeline currentTimeline oldArrivalDate oldDepartureDate
  let newDates ← enumerateServiceDates newArrivalDate newDepartureDate
  if newArrivalDate + oldDepartureDate = newDepartureDate + oldArrivalDate then
    let shifted := currentTimeline.map fun item =>
      { item with serviceDate := item.serviceDate + newArrivalDate - oldArrivalDate }
    assertCompleteTimeline shifted newArrivalDate newDepartureDate
    return shifted
  else
    let firstUnitId ← expect damagedTimelineError (currentTimeline.head?.map StayTimelineItem.inventoryUnitId)
    let lastUnitId ← expect damagedTimelineError (currentTimeline.getLast?.map StayTimelineItem.inventoryUnitId)
    newDates.mapM fun serviceDate => do
      if serviceDate < oldArrivalDate then return ⟨serviceDate, firstUnitId⟩
      else if oldDepartureDate ≤ serviceDate then return ⟨serviceDate, lastUnitId⟩
      else
        let item ← expect damagedTimelineError
          (currentTimeline.find? fun item => item.serviceDate = serviceDate)
        return ⟨serviceDate, item.inventoryUnitId⟩

structure TimelineRun where
  inventoryUnitId : Nat
  arrivalDate : Nat
  departureDate : Nat
  deriving DecidableEq, Repr

def timelineRuns : List StayTimelineItem → List TimelineRun
  | [] => []
  | item :: rest =>
      match timelineRuns rest with
      | run :: runs =>
          if run.inventoryUnitId = item.inventoryUnitId ∧ run.arrivalDate = item.serviceDate + 1 then
            { run with arrivalDate := item.serviceDate } :: runs
          else ⟨item.inventoryUnitId, item.serviceDate, item.serviceDate + 1⟩ :: run :: runs
      | [] => [⟨item.inventoryUnitId, item.serviceDate, item.serviceDate + 1⟩]

def TimelineRun.items (run : TimelineRun) : List StayTimelineItem :=
  (serviceDates run.arrivalDate run.departureDate).map fun date => ⟨date, run.inventoryUnitId⟩

theorem TimelineRun.items_dates (run : TimelineRun) :
    run.items.map StayTimelineItem.serviceDate = serviceDates run.arrivalDate run.departureDate := by
  simp [items, Function.comp_def]

theorem timelineRuns_items (timeline : List StayTimelineItem) :
    (timelineRuns timeline).flatMap TimelineRun.items = timeline ∧
      ∀ run ∈ timelineRuns timeline, run.arrivalDate < run.departureDate := by
  induction timeline with
  | nil => exact ⟨rfl, fun _ h => absurd h List.not_mem_nil⟩
  | cons item rest ih =>
    obtain ⟨hItems, hOpen⟩ := ih
    have hSingle : (⟨item.inventoryUnitId, item.serviceDate, item.serviceDate + 1⟩ : TimelineRun).items = [item] := by
      simp [TimelineRun.items, serviceDates]
    rw [timelineRuns]
    split
    case h_2 hNone =>
      rw [hNone, List.flatMap_nil] at hItems
      rw [List.flatMap_singleton, hSingle, ← hItems]
      exact ⟨rfl, List.forall_mem_singleton.mpr (Nat.lt_succ_self _)⟩
    case h_1 run runs hRuns =>
      rw [hRuns] at hItems hOpen
      obtain ⟨hRun, hLater⟩ := List.forall_mem_cons.mp hOpen
      split
      case isFalse =>
        rw [List.flatMap_cons, hSingle, hItems]
        exact ⟨rfl, List.forall_mem_cons.mpr ⟨Nat.lt_succ_self _, hOpen⟩⟩
      case isTrue hSame =>
        obtain ⟨hUnit, hArrival⟩ := hSame
        rw [List.flatMap_cons] at hItems ⊢
        constructor
        · rw [← hItems, ← List.cons_append]
          congr 1
          simp only [TimelineRun.items, serviceDates_cons (by omega : item.serviceDate < run.departureDate), hUnit,
            hArrival, List.map_cons]
        · refine List.forall_mem_cons.mpr ⟨?_, hLater⟩
          simp only
          omega

theorem mem_released {before after : List StayTimelineItem} {item : StayTimelineItem} :
    item ∈ (timelinePairDiff before after).released ↔ item ∈ before ∧ item ∉ after := by
  simp [timelinePairDiff]

theorem mem_added {before after : List StayTimelineItem} {item : StayTimelineItem} :
    item ∈ (timelinePairDiff before after).added ↔ item ∈ after ∧ item ∉ before := by
  simp [timelinePairDiff]

end GreenPms
