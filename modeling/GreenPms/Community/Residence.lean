import Mathlib.Data.List.Sort
import GreenPms.Library.Intervals
import GreenPms.Library.Keyed
import GreenPms.Community.Stays

/-! # Residences, durations and records

The proven stays of a guest, in the order of their dates, are cut into residences wherever a night
is empty. A residence adds its duration and, for a guest who is known by identity, the records of
its begin, of the orders that follow one another in it, and of its end.
-/

namespace GreenPms

open Intervals

inductive RecordKind where
  | new | return_ | renewal | due | early
  deriving DecidableEq, Repr

inductive EventKind where
  | renewal | early
  deriving DecidableEq, Repr

inductive DurationPerspective where
  | current | all
  deriving DecidableEq, Repr

structure CommunityEvent where
  orderId : Nat
  date : Nat
  nights : Nat
  reason : String
  kind : EventKind
  deriving DecidableEq, Repr

structure RecordDraft where
  orderId : Nat
  date : Nat
  nights : Nat
  reason : String
  kind : RecordKind
  deriving DecidableEq, Repr

structure CommunityRecord extends RecordDraft where
  people : Option Nat
  deriving DecidableEq, Repr

inductive Addition where
  | duration (nights : Nat) (perspective : DurationPerspective)
  | record (draft : RecordDraft) (people : List (Option Nat))
  deriving DecidableEq, Repr

structure CommunityRange where
  fromDate : Nat
  toDate : Nat
  today : Nat
  deriving DecidableEq, Repr

namespace CommunityRange

variable (range : CommunityRange)

def covers (date : Nat) : Bool := range.fromDate ≤ date && date ≤ range.toDate

def cutoff : Nat := min range.toDate range.today

/-- A guest who is there stays at least up to the next day. -/
def occupiedUntil (stay : CommunityStay) : Nat :=
  if stay.current && range.today < stay.departure then range.today + 1 else stay.departure

end CommunityRange

def arrivesBefore (a b : CommunityStay) : Prop :=
  a.arrival < b.arrival ∨ (a.arrival = b.arrival ∧ a.departure ≤ b.departure)

instance : DecidableRel arrivesBefore := fun a b => inferInstanceAs (Decidable (_ ∨ _))

def residences (stays : List CommunityStay) : List (List CommunityStay) :=
  chains CommunityStay.arrival CommunityStay.departure (stays.insertionSort arrivesBefore)

section Residence

variable (range : CommunityRange)

def observedEnd (live : Bool) (until_ : Nat) : Nat :=
  if live = true ∨ range.today < until_ then range.today else until_

def wholeDurations (start until_ : Nat) (live : Bool) : List Addition :=
  let observed := observedEnd range live until_
  let occupied := if live then range.today + 1 else until_
  (if live then [.duration (observed - start) .current] else []) ++
    if range.fromDate ≤ range.cutoff ∧ start ≤ range.cutoff ∧ range.fromDate < occupied then
      [.duration (min observed range.cutoff - start) .all]
    else []

def contributions (included : List CommunityStay) (start until_ : Nat) : List CommunityStay :=
  included.filter fun stay => stay.arrival < until_ && start < range.occupiedUntil stay

def operatingNights (included : List CommunityStay) (start until_ through : Nat) : Nat :=
  let intervals := ((contributions range included start until_).map fun stay =>
    (max start stay.arrival, min through stay.departure)).filter fun i => i.1 < i.2
  coveredFrom start (intervals.insertionSort fun a b => a.1 ≤ b.1)

/-- The duration of a residence of which only some stays are included. -/
def includedDurations (included : List CommunityStay) (start until_ : Nat) (live : Bool) : List Addition :=
  let observed := observedEnd range live until_
  let inside := contributions range included start until_
  (if inside.any fun stay => stay.relevant range.today range.today then
    [.duration (operatingNights range included start until_ range.today) .current] else []) ++
    if range.fromDate ≤ range.cutoff ∧ (inside.any fun stay =>
        stay.arrival ≤ range.cutoff && range.fromDate < range.occupiedUntil stay) = true then
      [.duration (operatingNights range included start until_ (min observed range.cutoff)) .all]
    else []

/-- A planned stay that goes on from the end that is confirmed so far. -/
def extendEnd (confirmed : Nat × Nat) (next : CommunityStay) : Nat × Nat :=
  if next.arrival ≤ confirmed.1 ∧ confirmed.1 < next.departure then (next.departure, next.orderId) else confirmed

/-- The end that is confirmed for a residence, and the order that it belongs to. -/
def confirmedEnd (planned : List CommunityStay) (chain : List Visit) : Nat × Nat :=
  let until_ := reach Visit.departure chain
  let dueOrder := ((chain.find? fun visit => visit.departure = until_).map Visit.orderId).getD 0
  (planned.insertionSort fun a b => a.arrival ≤ b.arrival).foldl extendEnd (until_, dueOrder)

/-- The records of the orders that follow one another without an empty night. -/
def renewals (personKey : Nat) : List Visit → List Visit → List Addition
  | _, [] => []
  | chain, visit :: rest =>
      let here := match chain.getLast? with
        | some previous =>
            if previous.orderId ≠ visit.orderId ∧ visit.arrival = reach Visit.departure chain ∧
                range.covers visit.arrival = true then
              [Addition.record ⟨visit.orderId, visit.arrival, 0, "同一住客无空夜接续订单，换房不打断连续居住", .renewal⟩
                [some personKey]]
            else []
        | none => []
      here ++ renewals personKey (chain ++ [visit]) rest

def residenceRecords (planned : List CommunityStay) (personKey : Nat) (previous : Bool) (chain : List Visit)
    (live : Bool) : List Addition :=
  let start := first Visit.arrival chain
  let duration := observedEnd range live (reach Visit.departure chain) - start
  let (confirmed, dueOrder) := confirmedEnd planned chain
  (if range.covers start then
    [.record ⟨((chain.head?.map Visit.orderId).getD 0), start, duration,
      if previous then "同一住客间隔后再次入住" else "首次可核实的入住记录", if previous then .return_ else .new⟩ [some personKey]]
    else []) ++
    if live = true ∧ range.today ≤ confirmed ∧ confirmed < range.today + 7 then
      [.record ⟨dueOrder, confirmed, duration, "未来7天内已确认离店；连续居住末端没有已确认接续", .due⟩ [some personKey]]
    else []

def residenceAdditions (durations : Nat → Nat → Bool → List Addition) (planned : List CommunityStay)
    (personKey : Option Nat) (previous : Bool) (chain : List Visit) (live : Bool) : List Addition :=
  let begun := durations (first Visit.arrival chain) (reach Visit.departure chain) live
  match personKey with
  | none => begun
  | some key => renewals range key [] chain ++ begun ++ residenceRecords range planned key previous chain live

def isLive (chain : List CommunityStay) : Bool := chain.any fun stay => stay.relevant range.today range.today

def personAdditions (durations : Nat → Nat → Bool → List Addition) (planned stays : List CommunityStay) :
    List Addition :=
  let personKey := stays.head?.bind CommunityStay.personKey
  let mine := planned.filter fun stay => personKey.isSome && stay.personKey = personKey
  ((residences stays).zipIdx).flatMap fun (chain, i) =>
    residenceAdditions range durations mine personKey (i ≠ 0) (chain.map CommunityStay.visit) (isLive range chain)

def eventAdditions (stays : List CommunityStay) (event : CommunityEvent) : List Addition :=
  if range.covers event.date = false then []
  else
    let people := stays.filter fun stay => stay.orderId = event.orderId && stay.historical &&
      stay.arrival ≤ event.date && event.date ≤ stay.departure
    match event.kind with
    | .renewal => [.record ⟨event.orderId, event.date, event.nights, event.reason, .renewal⟩
        (if people.isEmpty then [none] else people.map CommunityStay.personKey)]
    | .early =>
        let leaving := people.filter fun person => person.personKey.all fun key =>
          !(stays.any fun other => other.personKey = some key && other.proven && other.orderId ≠ person.orderId &&
            other.arrival ≤ event.date && event.date < other.departure)
        if people.isEmpty = false ∧ leaving.isEmpty = true then []
        else [.record ⟨event.orderId, event.date, event.nights, event.reason ++ "；按住客核对接续，不推断满意度", .early⟩
          (if leaving.isEmpty then [none] else leaving.map CommunityStay.personKey)]

end Residence

end GreenPms
