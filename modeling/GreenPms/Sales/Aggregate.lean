import Mathlib.Data.List.Sort
import Mathlib.Data.String.Basic
import GreenPms.Foundation.Dates
import GreenPms.Library.Keyed

/-! # The operating sales of a range of dates

A closed month counts with its confirmed total, and its daily events no longer count. Such a total
cannot be split, so it is taken only into ranges that hold the whole month.
-/

namespace GreenPms

open Keyed

/-! ## Dates by month -/

/-- The days of a month, which is its number counted from the first month of the year 0. -/
def monthLength (month : Nat) : Nat :=
  let year := month / 12
  match month % 12 with
  | 1 => if (year % 4 = 0 ∧ year % 100 ≠ 0) ∨ year % 400 = 0 then 29 else 28
  | 3 | 5 | 8 | 10 => 30
  | _ => 31

theorem monthLength_bounds (month : Nat) : 1 ≤ monthLength month ∧ monthLength month ≤ 31 := by
  unfold monthLength
  split
  case h_1 =>
    dsimp only
    split <;> decide
  all_goals decide

/-- A date of the calendar. Dates come in the order of their texts. -/
structure SaleDate where
  month : Nat
  day : Nat
  valid : 1 ≤ day ∧ day ≤ monthLength month
  deriving DecidableEq

namespace SaleDate

def rank (d : SaleDate) : Nat := d.month * 32 + d.day

theorem rank_injective : Function.Injective rank := by
  rintro ⟨m, d, hd⟩ ⟨m', d', hd'⟩ h
  have := (monthLength_bounds m).2
  have := (monthLength_bounds m').2
  simp only [rank] at h
  obtain ⟨rfl, rfl⟩ : m = m' ∧ d = d' := by omega
  rfl

instance : LinearOrder SaleDate := LinearOrder.lift' rank rank_injective

theorem le_def {a b : SaleDate} : a ≤ b ↔ a.rank ≤ b.rank := Iff.rfl

theorem lt_def {a b : SaleDate} : a < b ↔ a.rank < b.rank := Iff.rfl

def first (month : Nat) : SaleDate := ⟨month, 1, Nat.le_refl 1, (monthLength_bounds month).1⟩

def last (month : Nat) : SaleDate := ⟨month, monthLength month, (monthLength_bounds month).1, Nat.le_refl _⟩

theorem month_eq_iff {d : SaleDate} {m : Nat} : d.month = m ↔ first m ≤ d ∧ d ≤ last m := by
  obtain ⟨m', day, hLow, hHigh⟩ := d
  have := (monthLength_bounds m).1
  have := (monthLength_bounds m).2
  have := (monthLength_bounds m').2
  simp only [le_def, rank, first, last]
  constructor
  · rintro rfl
    omega
  · intro h
    omega

theorem month_eq_iff_lt_next {d : SaleDate} {m : Nat} : d.month = m ↔ first m ≤ d ∧ d < first (m + 1) := by
  obtain ⟨m', day, hLow, hHigh⟩ := d
  have := (monthLength_bounds m').2
  simp only [le_def, lt_def, rank, first]
  constructor
  · rintro rfl
    omega
  · intro h
    omega

def monthText (month : Nat) : String := padded 4 (month / 12) ++ "-" ++ padded 2 (month % 12 + 1)

end SaleDate

/-! ## The tables -/

inductive OperatingSalesSource where
  | direct | membership | channel | baseline
  deriving DecidableEq, Repr

inductive OperatingSaleKind where
  | sale | refund | correction | baseline
  deriving DecidableEq, Repr

structure OperatingSaleEvent where
  id : String
  source : OperatingSalesSource
  date : SaleDate
  currency : String
  kind : OperatingSaleKind
  amountMinor : Int
  orderId : Option String
  memberId : Option String
  registeredAt : Option String
  reason : String
  deriving DecidableEq

/-- The confirmed total of a month, which is given by its first day. -/
structure SalesBaseline where
  month : Nat
  currency : String
  amountMinor : Int
  recognitionFrom : SaleDate
  note : Option String

structure OperatingSalesAmount where
  currency : String
  salesMinor : Option Int
  refundsMinor : Option Int
  correctedMinor : Int
  netMinor : Int
  deriving DecidableEq, Repr

structure OperatingSalesSummary where
  enabled : Bool
  complete : Bool
  reason : String
  reviewCount : Nat
  totals : List OperatingSalesAmount
  breakdown : List (OperatingSalesAmount × OperatingSalesSource)
  trend : List (SaleDate × List OperatingSalesAmount)
  sealedMonths : List String

/-! ## Totals by currency -/

structure CurrencySums where
  sales : Int
  refunds : Int
  corrections : Int
  baseline : Int
  hasBaseline : Bool
  deriving DecidableEq, Repr

namespace CurrencySums

def zero : CurrencySums := ⟨0, 0, 0, 0, false⟩

def add (e : OperatingSaleEvent) (value : Option CurrencySums) : CurrencySums :=
  let v := value.getD zero
  match e.kind with
  | .sale => { v with sales := v.sales + e.amountMinor }
  | .refund => { v with refunds := v.refunds - e.amountMinor }
  | .baseline => { v with baseline := v.baseline + e.amountMinor, hasBaseline := true }
  | .correction => { v with corrections := v.corrections + e.amountMinor }

def amount (currency : String) (v : CurrencySums) : OperatingSalesAmount where
  currency
  salesMinor := if v.hasBaseline then none else some v.sales
  refundsMinor := if v.hasBaseline then none else some v.refunds
  correctedMinor := v.corrections
  netMinor := v.sales - v.refunds + v.corrections + v.baseline

end CurrencySums

def totals (events : List OperatingSaleEvent) (currency : String) : List OperatingSalesAmount :=
  let grouped := tally OperatingSaleEvent.currency CurrencySums.add [(currency, CurrencySums.zero)] events
  (grouped.insertionSort fun a b => a.1 ≤ b.1).map fun row => row.2.amount row.1

/-! ## The aggregate -/

structure SalesInput where
  fromDate : SaleDate
  toDate : SaleDate
  ordered : fromDate ≤ toDate
  currency : String
  events : List OperatingSaleEvent
  reviews : List SaleDate
  baselines : List SalesBaseline

namespace SalesBaseline

def text (b : SalesBaseline) : String := SaleDate.monthText b.month

def event (b : SalesBaseline) : OperatingSaleEvent where
  id := "baseline:" ++ b.text ++ "-01:" ++ b.currency
  source := .baseline
  date := .last b.month
  currency := b.currency
  kind := .baseline
  amountMinor := b.amountMinor
  orderId := none
  memberId := none
  registeredAt := none
  reason := b.text ++ "已确认封账合计，不代表月末单日发生额。" ++ b.note.getD ""

end SalesBaseline

namespace SalesInput

variable (input : SalesInput)

def Covers (date : SaleDate) : Prop := input.fromDate ≤ date ∧ date ≤ input.toDate

instance (date : SaleDate) : Decidable (input.Covers date) := inferInstanceAs (Decidable (_ ∧ _))

def closed (month : Nat) : Bool := month ∈ input.baselines.map SalesBaseline.month

def misses (month : Nat) : Bool := input.toDate < .first month || .last month < input.fromDate

def holds (month : Nat) : Bool := input.fromDate ≤ .first month && .last month ≤ input.toDate

def counts (start : SaleDate) (e : OperatingSaleEvent) : Bool :=
  input.Covers e.date && start ≤ e.date && !input.closed e.date.month

def countedEvents (start : SaleDate) : List OperatingSaleEvent :=
  lastByKey OperatingSaleEvent.id (input.events.filter (input.counts start))

/-- The baselines that are taken into the range, and whether the range cuts one. -/
def sealedBaselines : List SalesBaseline :=
  input.baselines.filter fun b => !input.misses b.month && input.holds b.month

def partialSealed : Bool := input.baselines.any fun b => !input.misses b.month && !input.holds b.month

def openReviews (start : SaleDate) : List SaleDate :=
  input.reviews.filter fun date => input.Covers date && start ≤ date

def advance (cursor : SaleDate) (b : SalesBaseline) : SaleDate :=
  if .first b.month ≤ cursor ∧ cursor < .first (b.month + 1) then .first (b.month + 1) else cursor

def historicalCursor : SaleDate :=
  (input.baselines.insertionSort fun a b => a.month ≤ b.month).foldl advance input.fromDate

def historyCovered (start : SaleDate) : Bool :=
  start ≤ input.fromDate || input.toDate < input.historicalCursor || start ≤ input.historicalCursor

def complete (start : SaleDate) : Bool :=
  !input.partialSealed && (input.openReviews start).isEmpty && input.historyCovered start

def reason (start : SaleDate) : String :=
  if input.partialSealed then "封账月份只有月度基准，不能按部分日期拆分；请选择整月或新口径起始日之后"
  else if (input.openReviews start).isEmpty = false then "部分款项缺少可核实的收款或关联证据，暂不显示完整合计"
  else if input.complete start = false then "所选区间包含未承接的历史范围"
  else "按已确认业务统计；未匹配收银不计收入，渠道按应结金额，内部转款不重复计"

end SalesInput

def breakdownOf (events : List OperatingSaleEvent) (currency : String) (source : OperatingSalesSource) :
    List (OperatingSalesAmount × OperatingSalesSource) :=
  let selected := events.filter fun e => e.source = source
  if selected.isEmpty then [] else (totals selected currency).map fun t => (t, source)

def trendOf (events : List OperatingSaleEvent) (currency : String) : List (SaleDate × List OperatingSalesAmount) :=
  let daily := events.filter fun e => e.kind ≠ .baseline
  ((daily.map OperatingSaleEvent.date).eraseDups.insertionSort fun a b => a ≤ b).map fun date =>
    (date, totals (daily.filter fun e => e.date = date) currency)

def aggregateOperatingSales (input : SalesInput) : OperatingSalesSummary × List OperatingSaleEvent :=
  match input.baselines with
  | [] =>
      ({
        enabled := false
        complete := false
        reason := "历史已计收入来源尚未承接，暂不显示经营销售额"
        reviewCount := 0
        totals := []
        breakdown := []
        trend := []
        sealedMonths := [] }, [])
  | head :: _ =>
      let start := head.recognitionFrom
      let events := input.countedEvents start ++ input.sealedBaselines.map SalesBaseline.event
      ({
        enabled := true
        complete := input.complete start
        reason := input.reason start
        reviewCount := (input.openReviews start).length
        totals := totals events input.currency
        breakdown := [.direct, .membership, .channel, .baseline].flatMap (breakdownOf events input.currency)
        trend := trendOf events input.currency
        sealedMonths := input.sealedBaselines.map SalesBaseline.text }, events)

end GreenPms
