import Mathlib.Algebra.GroupWithZero.Nat
import GreenPms.Foundation.Dates
import GreenPms.Community.Residents

/-! # Community metrics

The figures of the days, the durations and records of the residences, and the residents. Where the
stays are only those of some rooms, complete stays may be given for continuity: they decide where a
residence begins and ends, and only the included stays count.
-/

namespace GreenPms

open Keyed

structure DurationRow where
  nights : Nat
  current : Nat
  all : Nat
  deriving DecidableEq, Repr

structure RecordEntry where
  draft : RecordDraft
  people : List Nat
  unknown : Bool
  deriving DecidableEq, Repr

structure CommunityCounts where
  new : Nat
  return_ : Nat
  renewal : Nat
  due : Nat
  early : Nat
  deriving DecidableEq, Repr

structure DurationCoverage where
  registrationBased : Nat
  pendingRegistrations : Nat
  pendingOrders : Nat
  issues : List (Nat × String)
  deriving DecidableEq, Repr

structure CommunityContinuity where
  stays : List CommunityStay
  planned : List CommunityStay
  includesEvent : CommunityRecord → Bool

structure CommunityInput where
  stays : List CommunityStay
  events : List CommunityEvent
  planned : List CommunityStay
  range : CommunityRange

structure DashboardCommunity where
  current : CommunityDay
  trend : List CommunityDay
  identityApproximate : Bool
  visitors : Option Nat
  /-- The guests of all days and the number of days. -/
  dailyAverage : Option (Nat × Nat)
  duration : List DurationRow
  durationCoverage : DurationCoverage × DurationCoverage
  records : List CommunityRecord
  counts : CommunityCounts
  reasons : List String
  residentCurrent : CommunityResidentDay
  residentTrend : List CommunityResidentDay
  deriving DecidableEq, Repr

/-! ## Durations and records -/

def Addition.durationPart : Addition → Option (Nat × DurationPerspective)
  | .duration nights perspective => some (nights, perspective)
  | .record _ _ => none

def Addition.recordPart : Addition → Option (RecordDraft × List (Option Nat))
  | .duration _ _ => none
  | .record draft people => some (draft, people)

def countDuration (duration : Nat × DurationPerspective) (row : Option DurationRow) : DurationRow :=
  let r := row.getD ⟨duration.1, 0, 0⟩
  match duration.2 with
  | .current => { r with current := r.current + 1 }
  | .all => { r with all := r.all + 1 }

def distribution (additions : List Addition) : List DurationRow :=
  ((tally Prod.fst countDuration [] (additions.filterMap Addition.durationPart)).map Prod.snd).insertionSort
    fun a b => a.nights ≤ b.nights

def RecordDraft.key (draft : RecordDraft) : RecordKind × Nat × Nat × Nat :=
  (draft.kind, draft.orderId, draft.date, draft.nights)

def addRecord (added : RecordDraft × List (Option Nat)) (entry : Option RecordEntry) : RecordEntry :=
  let e := entry.getD ⟨added.1, [], false⟩
  { e with people := e.people ++ added.2.filterMap id, unknown := e.unknown || added.2.any Option.isNone }

def RecordEntry.record (entry : RecordEntry) : CommunityRecord :=
  { entry.draft with people := if entry.unknown then none else some entry.people.eraseDups.length }

def recordsBefore (a b : CommunityRecord) : Prop := b.date < a.date ∨ (a.date = b.date ∧ a.orderId ≤ b.orderId)

instance : DecidableRel recordsBefore := fun _ _ => inferInstanceAs (Decidable (_ ∨ _))

def recordsOf (additions : List Addition) : List CommunityRecord :=
  ((tally (fun added => added.1.key) addRecord [] (additions.filterMap Addition.recordPart)).map fun row =>
    row.2.record).insertionSort recordsBefore

def countRecords (records : List CommunityRecord) : CommunityCounts :=
  let count (kind : RecordKind) := records.countP fun r => r.kind = kind
  ⟨count .new, count .return_, count .renewal, count .due, count .early⟩

def communityReasons (evidenceIssues : List String) (trend : List CommunityDay) (current : CommunityDay) : List String :=
  evidenceIssues ++
    (if (trend.any fun row => row.unclassified ≠ 0) || current.unclassified ≠ 0 then
      ["同一住客同日存在付费/免费归属冲突：总人数仍按身份去重保留，冲突住客不猜测分类，请核对关联订单归属。"] else []) ++
    if (trend.any fun row => row.unlinked ≠ 0) || current.unlinked ≠ 0 then
      ["部分住宿人缺少可识别昵称、姓名或实际日期依据；不以共用手机或下单会员代替住客。缺项只影响对应日期，已核对分类保留。"] else []

namespace CommunityInput

variable (input : CommunityInput)

def residenceGroups : List (ResidenceKey × List CommunityStay) :=
  Indexes.groups CommunityStay.provenKey input.stays

def wholeAdditions : List Addition :=
  (input.residenceGroups.flatMap fun group =>
    personAdditions input.range (wholeDurations input.range) input.planned group.2) ++
      input.events.flatMap (eventAdditions input.range input.stays)

/-- What complete residences add of which only the stays of the input are included. -/
def includedAdditions (continuity : CommunityContinuity) : List Addition :=
  ((Indexes.groups CommunityStay.provenKey continuity.stays).flatMap fun group =>
    personAdditions input.range (includedDurations input.range
      (input.stays.filter fun stay => stay.provenKey = some group.1)) input.planned group.2) ++
        input.events.flatMap (eventAdditions input.range input.stays)

/-! ## Coverage of the durations -/

def coverageIncludes (perspective : DurationPerspective) (stay : CommunityStay) : Bool :=
  match perspective with
  | .current => stay.relevant input.range.today input.range.today
  | .all => input.range.fromDate ≤ input.range.cutoff && stay.arrival ≤ input.range.cutoff &&
      input.range.fromDate < input.range.occupiedUntil stay

def coverageReason (stay : CommunityStay) : String :=
  stay.durationReviewReason.getD (if stay.historical = false then "实际入住日期待核对，不能以登记日期或订单日期替代。"
    else "住宿人名单或有效住宿时间线待核对，不能推算人数和时长。")

def durationCoverage (perspective : DurationPerspective) : DurationCoverage :=
  let included := input.stays.filter (input.coverageIncludes perspective)
  let (known, pending) := included.partition fun stay => stay.provenKey.isSome
  {
    registrationBased := ((known.filter fun stay => stay.personKey.isNone).filterMap CommunityStay.registrationKey).eraseDups.length
    pendingRegistrations := (pending.filterMap CommunityStay.registrationKey).eraseDups.length
    pendingOrders := ((pending.filter fun stay => stay.registrationKey.isNone).map CommunityStay.orderId).eraseDups.length
    issues := (Indexes.groups (fun stay => some stay.orderId) pending).map fun (orderId, rows) =>
      (orderId, "；".intercalate (rows.map coverageReason).eraseDups) }

/-! ## The metrics -/

def visitors : Nat :=
  (input.residenceGroups.filter fun group => group.2.any fun stay =>
    stay.arrival ≤ input.range.toDate && input.range.fromDate < stay.departure).length

def additions (continuity : Option CommunityContinuity) : List Addition :=
  match continuity with
  | none => input.wholeAdditions
  | some complete => input.includedAdditions complete

/-- With continuity the records are those of the complete stays, as far as they are included. -/
def records (continuity : Option CommunityContinuity) : List CommunityRecord :=
  match continuity with
  | none => recordsOf input.wholeAdditions
  | some complete => (recordsOf { input with stays := complete.stays, planned := complete.planned }.wholeAdditions).filter
      complete.includesEvent

def communityMetrics (evidenceIssues : List String) (continuity : Option CommunityContinuity) :
    Except DomainError DashboardCommunity := do
  let dates ← enumerateServiceDates input.range.fromDate (input.range.toDate + 1)
  let today := input.range.today
  let trend := dates.map (communityDay input.stays today)
  let current := communityDay input.stays today today
  let unknown := trend.any fun row => 0 < row.unlinked
  let records := input.records continuity
  let continuous := (continuity.map CommunityContinuity.stays).getD input.stays
  return {
    current
    trend
    identityApproximate := (input.stays ++ input.planned).any CommunityStay.identityApproximate
    visitors := if unknown then none else some input.visitors
    dailyAverage := if unknown then none else some ((trend.map fun row => row.total.getD 0).sum, max trend.length 1)
    duration := distribution (input.additions continuity)
    durationCoverage := (input.durationCoverage .current, input.durationCoverage .all)
    records
    counts := countRecords records
    reasons := communityReasons evidenceIssues trend current
    residentCurrent := residentDay input.stays today today continuous true
    residentTrend := dates.map fun date => residentDay input.stays today date continuous false }

end CommunityInput

end GreenPms
