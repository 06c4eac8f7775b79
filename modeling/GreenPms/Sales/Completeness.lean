import Mathlib.Algebra.BigOperators.Group.Finset.Piecewise
import Mathlib.Algebra.Order.Monoid.Unbundled.WithTop
import GreenPms.Library.Indexes
import GreenPms.Library.Totals
import GreenPms.Sales.Aggregate

/-! # Completeness of the operating sales

The cursor walks from the first date of the range through the closed months in their order, and
stops at the first date that no closed month holds. The rows of a currency are a fold over its
events, so that every way to split the events adds up to the same amounts.
-/

namespace GreenPms

open Keyed

namespace SalesInput

variable {input : SalesInput} {start : SaleDate}

theorem misses_iff {month : Nat} : input.misses month = true ↔ ∀ date, input.Covers date → date.month ≠ month := by
  rw [misses, Bool.or_eq_true, decide_eq_true_eq, decide_eq_true_eq]
  constructor
  · rintro (hAfter | hBefore) date ⟨hFrom, hTo⟩ hMonth
    · exact absurd (hAfter.trans_le (SaleDate.month_eq_iff.mp hMonth).1) (not_lt.mpr hTo)
    · exact absurd ((SaleDate.month_eq_iff.mp hMonth).2.trans_lt hBefore) (not_lt.mpr hFrom)
  · intro hNone
    by_contra hOverlap
    obtain ⟨hFirst, hLast⟩ := not_or.mp hOverlap
    -- The later of the two first dates is in the range and in the month.
    refine hNone (max input.fromDate (.first month)) ⟨le_max_left _ _, max_le input.ordered (not_lt.mp hFirst)⟩ ?_
    refine SaleDate.month_eq_iff.mpr ⟨le_max_right _ _, max_le (not_lt.mp hLast) ?_⟩
    exact (SaleDate.month_eq_iff.mp (show (SaleDate.first month).month = month from rfl)).2

theorem closed_iff {month : Nat} : input.closed month = true ↔ ∃ b ∈ input.baselines, b.month = month := by
  rw [closed, decide_eq_true_eq, List.mem_map]

theorem closed_eq_false {month : Nat} : input.closed month = false ↔ ∀ b ∈ input.baselines, b.month ≠ month := by
  rw [← Bool.not_eq_true, closed_iff]
  push Not
  rfl

theorem holds_iff {month : Nat} :
    input.holds month = true ↔ input.fromDate ≤ .first month ∧ .last month ≤ input.toDate := by
  rw [holds, Bool.and_eq_true, decide_eq_true_eq, decide_eq_true_eq]

theorem partialSealed_eq_false : input.partialSealed = false ↔
    ∀ date, input.Covers date → input.closed date.month = true → input.holds date.month = true := by
  rw [partialSealed, List.any_eq_false]
  constructor
  · intro hNone date hDate hClosed
    obtain ⟨b, hb, hMonth⟩ := closed_iff.mp hClosed
    have hMeets : input.misses b.month = false :=
      Bool.eq_false_iff.mpr fun hMisses => misses_iff.mp hMisses date hDate hMonth.symm
    have hHolds := hNone b hb
    rw [hMonth] at hMeets hHolds
    simpa [hMeets] using hHolds
  · intro hAll b hb
    cases hMisses : input.misses b.month with
    | true => simp
    | false =>
      obtain ⟨date, hDate, hMonth⟩ : ∃ date, input.Covers date ∧ date.month = b.month := by
        by_contra hNone
        push Not at hNone
        exact Bool.eq_false_iff.mp hMisses (misses_iff.mpr hNone)
      have hHolds := hAll date hDate (closed_iff.mpr ⟨b, hb, hMonth.symm⟩)
      rw [hMonth] at hHolds
      simp [hHolds]

/-! ## The cursor -/

theorem advance_eq {cursor : SaleDate} {b : SalesBaseline} :
    advance cursor b = if cursor.month = b.month then .first (b.month + 1) else cursor := by
  rw [advance]
  exact if_congr SaleDate.month_eq_iff_lt_next.symm rfl rfl

theorem walk_end (walked : List SalesBaseline) (cursor : SaleDate) :
    walked.foldl advance cursor = cursor ∨ ∃ b ∈ walked, walked.foldl advance cursor = .first (b.month + 1) := by
  induction walked generalizing cursor with
  | nil => exact .inl rfl
  | cons b rest ih =>
    rw [List.foldl_cons]
    obtain hStays | ⟨c, hc, hBehind⟩ := ih (advance cursor b)
    · rw [hStays, advance_eq]
      split
      case isTrue => exact .inr ⟨b, List.mem_cons_self, rfl⟩
      case isFalse => exact .inl rfl
    · exact .inr ⟨c, List.mem_cons_of_mem _ hc, hBehind⟩

theorem walk_grows (walked : List SalesBaseline) (cursor : SaleDate) : cursor ≤ walked.foldl advance cursor := by
  induction walked generalizing cursor with
  | nil => exact le_refl cursor
  | cons b rest ih =>
    refine le_trans ?_ (ih (advance cursor b))
    rw [advance_eq]
    split
    case isTrue hHere => exact (SaleDate.month_eq_iff_lt_next.mp hHere).2.le
    case isFalse => exact le_refl cursor

theorem walk_leaves {walked : List SalesBaseline} (hSorted : walked.Pairwise fun a b => a.month ≤ b.month)
    (cursor : SaleDate) : ∀ b ∈ walked, (walked.foldl advance cursor).month ≠ b.month := by
  induction walked generalizing cursor with
  | nil => exact fun _ h => (List.not_mem_nil h).elim
  | cons b rest ih =>
    obtain ⟨hLater, hSorted⟩ := List.pairwise_cons.mp hSorted
    refine List.forall_mem_cons.mpr ⟨?_, ih hSorted (advance cursor b)⟩
    rw [List.foldl_cons]
    obtain hStays | ⟨c, hc, hBehind⟩ := walk_end rest (advance cursor b)
    · rw [hStays, advance_eq]
      split
      case isTrue => exact Nat.succ_ne_self b.month
      case isFalse hOther => exact hOther
    · rw [hBehind]
      exact Nat.ne_of_gt (Nat.lt_succ_of_le (hLater c hc))

/-- It passes only dates of the months. -/
theorem walk_passes {walked : List SalesBaseline} {closed : Nat → Prop} (hMonths : ∀ b ∈ walked, closed b.month)
    (cursor : SaleDate) {date : SaleDate} (hFrom : cursor ≤ date) (hPassed : date < walked.foldl advance cursor) :
    closed date.month := by
  induction walked generalizing cursor with
  | nil => exact absurd hPassed (not_lt.mpr hFrom)
  | cons b rest ih =>
    obtain ⟨hMonth, hMonths⟩ := List.forall_mem_cons.mp hMonths
    rw [List.foldl_cons] at hPassed
    obtain hLater | hEarlier := le_or_gt (advance cursor b) date
    · exact ih hMonths _ hLater hPassed
    · rw [advance_eq] at hEarlier
      split at hEarlier
      case isTrue hHere =>
        have hIn := (SaleDate.month_eq_iff_lt_next.mp hHere).1.trans hFrom
        rwa [SaleDate.month_eq_iff_lt_next.mpr ⟨hIn, hEarlier⟩]
      case isFalse => exact absurd hEarlier (not_lt.mpr hFrom)

theorem historicalCursor_open : input.closed input.historicalCursor.month = false := by
  refine Bool.eq_false_iff.mpr fun hClosed => ?_
  obtain ⟨b, hb, hMonth⟩ := closed_iff.mp hClosed
  have : Std.Total fun a b : SalesBaseline => a.month ≤ b.month := ⟨fun a b => Nat.le_total a.month b.month⟩
  have : IsTrans SalesBaseline fun a b => a.month ≤ b.month := ⟨fun _ _ _ => Nat.le_trans⟩
  have hSorted := List.pairwise_insertionSort (fun a b : SalesBaseline => a.month ≤ b.month) input.baselines
  exact walk_leaves hSorted input.fromDate b ((List.mem_insertionSort _).mpr hb) hMonth.symm

theorem closed_of_lt_cursor {date : SaleDate} (hFrom : input.fromDate ≤ date) (hBefore : date < input.historicalCursor) :
    input.closed date.month = true :=
  @walk_passes _ (fun month => input.closed month = true)
    (fun b hb => closed_iff.mpr ⟨b, (List.mem_insertionSort _).mp hb, rfl⟩) input.fromDate _ hFrom hBefore

theorem openReviews_isEmpty : (input.openReviews start).isEmpty = true ↔
    ∀ date ∈ input.reviews, input.Covers date → ¬ start ≤ date := by
  rw [List.isEmpty_iff, openReviews, List.filter_eq_nil_iff]
  simp

theorem complete_iff : input.complete start = true ↔
    (∀ date ∈ input.reviews, input.Covers date → ¬ start ≤ date) ∧
      ∀ date, input.Covers date → (start ≤ date ∧ input.closed date.month = false) ∨
        (input.closed date.month = true ∧ input.holds date.month = true) := by
  rw [complete, Bool.and_eq_true, Bool.and_eq_true, Bool.not_eq_true', openReviews_isEmpty, partialSealed_eq_false,
    historyCovered, Bool.or_eq_true, Bool.or_eq_true, decide_eq_true_eq, decide_eq_true_eq, decide_eq_true_eq]
  constructor
  · rintro ⟨⟨hWhole, hReviews⟩, hHistory⟩
    refine ⟨hReviews, fun date hDate => ?_⟩
    cases hClosed : input.closed date.month with
    | true => exact .inr ⟨rfl, hWhole date hDate hClosed⟩
    | false =>
      refine .inl ⟨?_, rfl⟩
      -- The walk has not come past an open date.
      have hReached : input.historicalCursor ≤ date := by
        by_contra hBefore
        exact Bool.eq_false_iff.mp hClosed (closed_of_lt_cursor hDate.1 (not_le.mp hBefore))
      obtain (hFrom | hPast) | hStart := hHistory
      · exact hFrom.trans hDate.1
      · exact absurd (hPast.trans_le hReached) (not_lt.mpr hDate.2)
      · exact hStart.trans hReached
  · rintro ⟨hReviews, hDays⟩
    refine ⟨⟨fun date hDate hClosed => ?_, hReviews⟩, ?_⟩
    · obtain ⟨_, hOpen⟩ | ⟨_, hHolds⟩ := hDays date hDate
      · exact absurd hClosed (Bool.eq_false_iff.mp hOpen)
      · exact hHolds
    · by_contra hNone
      push Not at hNone
      obtain ⟨⟨_, hCursor⟩, hBefore⟩ := hNone
      -- The cursor itself is a date of the range, before the start and in no closed month.
      have hDate : input.Covers input.historicalCursor := ⟨walk_grows _ _, hCursor⟩
      obtain ⟨hStart, _⟩ | ⟨hClosed, _⟩ := hDays _ hDate
      · exact absurd hBefore (not_lt.mpr hStart)
      · exact Bool.eq_false_iff.mp historicalCursor_open hClosed

theorem counts_iff {e : OperatingSaleEvent} : input.counts start e = true ↔
    input.Covers e.date ∧ start ≤ e.date ∧ ∀ b ∈ input.baselines, b.month ≠ e.date.month := by
  rw [counts, Bool.and_eq_true, Bool.and_eq_true, decide_eq_true_eq, decide_eq_true_eq, Bool.not_eq_true',
    closed_eq_false, and_assoc]

theorem mem_countedEvents {e : OperatingSaleEvent} (h : e ∈ input.countedEvents start) :
    e ∈ input.events ∧ input.counts start e = true :=
  List.mem_filter.mp (mem_of_mem_lastByKey h)

theorem sealedBaselines_eq : input.sealedBaselines = input.baselines.filter fun b => input.holds b.month := by
  refine List.filter_congr fun b _ => ?_
  cases hHolds : input.holds b.month with
  | false => exact Bool.and_false _
  | true =>
    rw [Bool.and_true, Bool.not_eq_true']
    rw [holds_iff] at hHolds
    refine Bool.eq_false_iff.mpr fun hMisses => ?_
    have hOrdered : SaleDate.first b.month ≤ .last b.month := (SaleDate.month_eq_iff.mp rfl).2
    exact misses_iff.mp hMisses _ ⟨hHolds.1, hOrdered.trans hHolds.2⟩ rfl

end SalesInput

/-! ## The rows of a currency -/

section Rows

variable {M : Type*} [AddCommMonoid M]

def rowsTotal (g : OperatingSalesAmount → M) (currency : String) (rows : List OperatingSalesAmount) : M :=
  ((rows.filter fun row => row.currency = currency).map g).sum

def eventsTotal (f : OperatingSaleEvent → M) (currency : String) (events : List OperatingSaleEvent) : M :=
  ((events.filter fun e => e.currency = currency).map f).sum

structure Column (g : OperatingSalesAmount → M) (f : OperatingSaleEvent → M) : Prop where
  zero : ∀ currency, g (CurrencySums.zero.amount currency) = 0
  add : ∀ currency v e, g ((CurrencySums.add e (some v)).amount currency) = g (v.amount currency) + f e

variable {g : OperatingSalesAmount → M} {f : OperatingSaleEvent → M}

theorem Column.fold (h : Column g f) (currency : String) (events : List OperatingSaleEvent) (v : CurrencySums) :
    ∃ w, events.foldl (fun v e => some (CurrencySums.add e v)) (some v) = some w ∧
      g (w.amount currency) = g (v.amount currency) + (events.map f).sum := by
  induction events generalizing v with
  | nil => exact ⟨v, rfl, (add_zero _).symm⟩
  | cons e events ih =>
    obtain ⟨w, hFold, hValue⟩ := ih (CurrencySums.add e (some v))
    refine ⟨w, hFold, ?_⟩
    rw [hValue, h.add, List.map_cons, List.sum_cons, add_assoc]

theorem CurrencySums.add_none (e : OperatingSaleEvent) : add e none = add e (some zero) := rfl

theorem rowsTotal_totals (h : Column g f) (events : List OperatingSaleEvent) (own currency : String) :
    rowsTotal g currency (totals events own) = eventsTotal f currency events := by
  have hKeyed : ((tally OperatingSaleEvent.currency CurrencySums.add [(own, CurrencySums.zero)] events).map
      Prod.fst).Nodup := tally_keyed (List.nodup_singleton own)
  have hRows : rowsTotal g currency (totals events own) = ((((tally OperatingSaleEvent.currency CurrencySums.add
      [(own, CurrencySums.zero)] events).filter fun row => row.1 = currency).map
        fun row => g (row.2.amount row.1)).sum) := by
    rw [rowsTotal, totals, List.filter_map, List.map_map]
    exact (((List.perm_insertionSort _ _).filter _).map _).sum_eq
  rw [hRows, filter_eq_valueAt hKeyed, valueAt_tally, eventsTotal]
  by_cases hOwn : own = currency
  · subst hOwn
    obtain ⟨w, hFold, hValue⟩ := h.fold own (events.filter fun e => e.currency = own) .zero
    have hStart : valueAt own [(own, CurrencySums.zero)] = some .zero := by simp [valueAt]
    rw [hStart, hFold]
    simp [hValue, h.zero]
  · have hStart : valueAt currency [(own, CurrencySums.zero)] = none := by simp [valueAt, hOwn]
    rw [hStart]
    cases events.filter fun e => e.currency = currency with
    | nil => rfl
    | cons e rest =>
      rw [List.foldl_cons, CurrencySums.add_none]
      obtain ⟨w, hFold, hValue⟩ := h.fold currency rest (CurrencySums.add e (some .zero))
      rw [hFold]
      simp [hValue, h.add, h.zero]

theorem rowsTotal_append (currency : String) (xs ys : List OperatingSalesAmount) :
    rowsTotal g currency (xs ++ ys) = rowsTotal g currency xs + rowsTotal g currency ys := by
  rw [rowsTotal, List.filter_append, List.map_append, List.sum_append]
  rfl

theorem eventsTotal_cons (currency : String) (e : OperatingSaleEvent) (events : List OperatingSaleEvent) :
    eventsTotal f currency (e :: events) = (if e.currency = currency then f e else 0) + eventsTotal f currency events := by
  rw [eventsTotal, List.filter_cons]
  split
  case isTrue hHere => rw [if_pos (of_decide_eq_true hHere), List.map_cons, List.sum_cons, eventsTotal]
  case isFalse hOther => rw [if_neg (of_decide_eq_false (Bool.eq_false_iff.mpr hOther)), zero_add, eventsTotal]

theorem eventsTotal_groups {κ : Type*} [DecidableEq κ] (key : OperatingSaleEvent → κ) (currency : String)
    {keys : List κ} (hKeys : keys.Nodup) {events : List OperatingSaleEvent} (hAll : ∀ e ∈ events, key e ∈ keys) :
    (keys.map fun k => eventsTotal f currency (events.filter fun e => key e = k)).sum =
      eventsTotal f currency events := by
  induction events with
  | nil => simp [eventsTotal]
  | cons e rest ih =>
    obtain ⟨hKey, hRest⟩ := List.forall_mem_cons.mp hAll
    have hGroup : ∀ k, eventsTotal f currency ((e :: rest).filter fun e => key e = k) =
        (if k = key e then (if e.currency = currency then f e else 0) else 0) +
          eventsTotal f currency (rest.filter fun e => key e = k) := by
      intro k
      rw [List.filter_cons]
      by_cases hSame : key e = k
      · rw [if_pos (decide_eq_true hSame), if_pos hSame.symm, eventsTotal_cons]
      · rw [if_neg (by simp [hSame]), if_neg (Ne.symm hSame), zero_add]
    have hOne : (keys.map fun k => if k = key e then (if e.currency = currency then f e else 0) else 0).sum =
        if e.currency = currency then f e else 0 := by
      rw [← List.sum_toFinset _ hKeys, Finset.sum_ite_eq', if_pos (List.mem_toFinset.mpr hKey)]
    simp only [hGroup]
    rw [List.sum_map_add, hOne, ih hRest, eventsTotal_cons]

def sources : List OperatingSalesSource := [.direct, .membership, .channel, .baseline]

theorem rowsTotal_flatMap {ι : Type*} (currency : String) (rows : ι → List OperatingSalesAmount) (is : List ι) :
    rowsTotal g currency (is.flatMap rows) = (is.map fun i => rowsTotal g currency (rows i)).sum := by
  induction is with
  | nil => rfl
  | cons i is ih => rw [List.flatMap_cons, rowsTotal_append, ih, List.map_cons, List.sum_cons]

theorem rowsTotal_breakdown (h : Column g f) (events : List OperatingSaleEvent) (own currency : String) :
    rowsTotal g currency ((sources.flatMap (breakdownOf events own)).map Prod.fst) =
      rowsTotal g currency (totals events own) := by
  have hSource : ∀ source, rowsTotal g currency ((breakdownOf events own source).map Prod.fst) =
      eventsTotal f currency (events.filter fun e => e.source = source) := by
    intro source
    rw [breakdownOf]
    split
    case isTrue hEmpty =>
      rw [List.isEmpty_iff.mp hEmpty]
      rfl
    case isFalse =>
      rw [List.map_map, ← rowsTotal_totals h _ own]
      exact congrArg _ (List.map_id _)
  have hAll : ∀ e ∈ events, e.source ∈ sources := by
    intro e _
    cases e.source <;> decide
  rw [List.map_flatMap, rowsTotal_flatMap, rowsTotal_totals h]
  simp only [hSource]
  exact eventsTotal_groups OperatingSaleEvent.source currency (by decide) hAll

theorem rowsTotal_trend (h : Column g f) (events : List OperatingSaleEvent) (own currency : String) :
    rowsTotal g currency ((trendOf events own).flatMap Prod.snd) =
      eventsTotal f currency (events.filter fun e => e.kind ≠ .baseline) := by
  have hDays : ((((events.filter fun e => e.kind ≠ .baseline).map OperatingSaleEvent.date).eraseDups).insertionSort
      fun a b => a ≤ b).Nodup := (List.perm_insertionSort _ _).nodup_iff.mpr (Indexes.nodup_eraseDups _)
  rw [trendOf, List.flatMap_map, rowsTotal_flatMap]
  simp only [rowsTotal_totals h]
  refine eventsTotal_groups OperatingSaleEvent.date currency hDays fun e he => ?_
  rw [List.mem_insertionSort, List.mem_eraseDups]
  exact List.mem_map_of_mem he

end Rows

theorem column_net : Column OperatingSalesAmount.netMinor OperatingSaleEvent.amountMinor where
  zero _ := rfl
  add currency v e := by
    cases hKind : e.kind <;> simp only [CurrencySums.add, CurrencySums.amount, hKind, Option.getD_some] <;> omega

theorem column_corrected : Column OperatingSalesAmount.correctedMinor
    fun e => if e.kind = .correction then e.amountMinor else 0 where
  zero _ := rfl
  add currency v e := by
    cases hKind : e.kind <;> simp [CurrencySums.add, CurrencySums.amount, hKind]

def known : Option Int → WithTop Int
  | none => ⊤
  | some amount => (amount : WithTop Int)

@[simp] theorem known_none : known none = ⊤ := rfl

@[simp] theorem known_some (amount : Int) : known (some amount) = (amount : WithTop Int) := rfl

def knownPart (kind : OperatingSaleKind) (part : Int) (e : OperatingSaleEvent) : WithTop Int :=
  if e.kind = .baseline then ⊤ else if e.kind = kind then (part : WithTop Int) else 0

theorem column_sales : Column (fun row => known row.salesMinor) fun e => knownPart .sale e.amountMinor e where
  zero _ := rfl
  add currency v e := by
    cases hKind : e.kind <;> cases hBase : v.hasBaseline <;>
      simp [CurrencySums.add, CurrencySums.amount, knownPart, hKind, hBase]

theorem column_refunds : Column (fun row => known row.refundsMinor) fun e => knownPart .refund (-e.amountMinor) e where
  zero _ := rfl
  add currency v e := by
    cases hKind : e.kind <;> cases hBase : v.hasBaseline <;>
      simp [CurrencySums.add, CurrencySums.amount, knownPart, hKind, hBase, Int.sub_eq_add_neg]

theorem eventsTotal_split (p : OperatingSaleEvent → Bool) (currency : String) (events : List OperatingSaleEvent) :
    eventsTotal OperatingSaleEvent.amountMinor currency (events.filter p) +
      eventsTotal OperatingSaleEvent.amountMinor currency (events.filter fun e => !p e) =
        eventsTotal OperatingSaleEvent.amountMinor currency events := by
  induction events with
  | nil => rfl
  | cons e events ih =>
    rw [List.filter_cons, List.filter_cons, eventsTotal_cons, ← ih]
    cases p e
    · simp only [Bool.false_eq_true, if_false, Bool.not_false, if_true, eventsTotal_cons]
      exact add_left_comm _ _ _
    · simp only [if_true, Bool.not_true, Bool.false_eq_true, if_false, eventsTotal_cons]
      exact add_assoc _ _ _

def SalesInput.salesEvents (input : SalesInput) (start : SaleDate) : List OperatingSaleEvent :=
  input.countedEvents start ++ input.sealedBaselines.map SalesBaseline.event

theorem aggregateOperatingSales_of_start {input : SalesInput} {start : SaleDate} (hBaselines : input.baselines ≠ [])
    (hStart : ∀ b ∈ input.baselines, b.recognitionFrom = start) : aggregateOperatingSales input =
      ({
        enabled := true
        complete := input.complete start
        reason := input.reason start
        reviewCount := (input.openReviews start).length
        totals := totals (input.salesEvents start) input.currency
        breakdown := sources.flatMap (breakdownOf (input.salesEvents start) input.currency)
        trend := trendOf (input.salesEvents start) input.currency
        sealedMonths := input.sealedBaselines.map SalesBaseline.text }, input.salesEvents start) := by
  rw [aggregateOperatingSales]
  split
  case h_1 hNone => exact absurd hNone hBaselines
  case h_2 head rest hList =>
    have hHead : head.recognitionFrom = start := hStart head (hList ▸ List.mem_cons_self)
    rw [hHead]
    rfl

/-- The sales of a range are complete exactly when every day of it is in force or in a closed month
that the range holds. The events that count do so once, the totals are their sums, and every split of
them adds up. -/
theorem operating_sales_complete_and_consistent (input : SalesInput) {start : SaleDate}
    (hBaselines : input.baselines ≠ []) (hStart : ∀ b ∈ input.baselines, b.recognitionFrom = start) :
    ((aggregateOperatingSales input).1.complete = true ↔
      (∀ date ∈ input.reviews, input.Covers date → ¬ start ≤ date) ∧
        ∀ date, input.Covers date → (start ≤ date ∧ ∀ b ∈ input.baselines, b.month ≠ date.month) ∨
          ∃ b ∈ input.baselines, b.month = date.month ∧ input.fromDate ≤ .first b.month ∧ .last b.month ≤ input.toDate) ∧
    (∃ counted, (aggregateOperatingSales input).2 = counted ++
        (input.baselines.filter fun b => input.fromDate ≤ .first b.month ∧ .last b.month ≤ input.toDate).map
          SalesBaseline.event ∧
      (counted.map OperatingSaleEvent.id).Nodup ∧
      (∀ e ∈ counted, e ∈ input.events) ∧
      (∀ e ∈ counted, input.Covers e.date ∧ start ≤ e.date ∧ ∀ b ∈ input.baselines, b.month ≠ e.date.month) ∧
      ∀ e ∈ input.events, input.Covers e.date → start ≤ e.date → (∀ b ∈ input.baselines, b.month ≠ e.date.month) →
        e.id ∈ counted.map OperatingSaleEvent.id) ∧
    ∀ currency, let (summary, events) := aggregateOperatingSales input
      let breakdown := summary.breakdown.map Prod.fst
      (rowsTotal OperatingSalesAmount.netMinor currency summary.totals =
          eventsTotal OperatingSaleEvent.amountMinor currency events ∧
        rowsTotal OperatingSalesAmount.correctedMinor currency summary.totals =
          eventsTotal (fun e => if e.kind = .correction then e.amountMinor else 0) currency events ∧
        rowsTotal (fun row => known row.salesMinor) currency summary.totals =
          eventsTotal (fun e => knownPart .sale e.amountMinor e) currency events ∧
        rowsTotal (fun row => known row.refundsMinor) currency summary.totals =
          eventsTotal (fun e => knownPart .refund (-e.amountMinor) e) currency events) ∧
      rowsTotal OperatingSalesAmount.netMinor currency summary.totals =
        rowsTotal OperatingSalesAmount.netMinor currency breakdown ∧
      rowsTotal OperatingSalesAmount.correctedMinor currency summary.totals =
        rowsTotal OperatingSalesAmount.correctedMinor currency breakdown ∧
      rowsTotal (fun row => known row.salesMinor) currency summary.totals =
        rowsTotal (fun row => known row.salesMinor) currency breakdown ∧
      rowsTotal (fun row => known row.refundsMinor) currency summary.totals =
        rowsTotal (fun row => known row.refundsMinor) currency breakdown ∧
      rowsTotal OperatingSalesAmount.netMinor currency summary.totals =
        rowsTotal OperatingSalesAmount.netMinor currency (summary.trend.flatMap Prod.snd) +
          eventsTotal OperatingSaleEvent.amountMinor currency (events.filter fun e => e.kind = .baseline) := by
  rw [aggregateOperatingSales_of_start hBaselines hStart]
  refine ⟨?_, ⟨input.countedEvents start, ?_, lastByKey_nodup, ?_, ?_, ?_⟩, fun currency => ⟨?_, ?_, ?_, ?_, ?_, ?_⟩⟩
  · refine SalesInput.complete_iff.trans (and_congr_right fun _ => forall₂_congr fun date _ => ?_)
    rw [SalesInput.closed_eq_false, SalesInput.closed_iff, SalesInput.holds_iff]
    refine or_congr Iff.rfl ⟨?_, ?_⟩
    · rintro ⟨⟨b, hb, hMonth⟩, hHolds⟩
      exact ⟨b, hb, hMonth, hMonth ▸ hHolds⟩
    · rintro ⟨b, hb, hMonth, hHolds⟩
      exact ⟨⟨b, hb, hMonth⟩, hMonth ▸ hHolds⟩
  · dsimp only
    rw [SalesInput.salesEvents, SalesInput.sealedBaselines_eq]
    exact congrArg _ (congrArg _ (List.filter_congr fun b _ => Bool.eq_iff_iff.mpr
      (SalesInput.holds_iff.trans decide_eq_true_iff.symm)))
  · exact fun e he => (SalesInput.mem_countedEvents he).1
  · exact fun e he => SalesInput.counts_iff.mp (SalesInput.mem_countedEvents he).2
  · intro e he hDate hFrom hOpen
    refine mem_lastByKey_keys.mpr (List.mem_map_of_mem (List.mem_filter.mpr ⟨he, ?_⟩))
    exact SalesInput.counts_iff.mpr ⟨hDate, hFrom, hOpen⟩
  · exact ⟨rowsTotal_totals column_net _ _ _, rowsTotal_totals column_corrected _ _ _,
      rowsTotal_totals column_sales _ _ _, rowsTotal_totals column_refunds _ _ _⟩
  · exact (rowsTotal_breakdown column_net _ _ _).symm
  · exact (rowsTotal_breakdown column_corrected _ _ _).symm
  · exact (rowsTotal_breakdown column_sales _ _ _).symm
  · exact (rowsTotal_breakdown column_refunds _ _ _).symm
  · dsimp only
    rw [rowsTotal_totals column_net, rowsTotal_trend column_net, ← eventsTotal_split fun e => e.kind ≠ .baseline]
    simp only [decide_not, Bool.not_not]

def sampleSales : SalesInput where
  fromDate := ⟨24320, 1, by decide⟩
  toDate := ⟨24321, 31, by decide⟩
  ordered := by decide
  currency := "CNY"
  events := [⟨"c1", .channel, ⟨24321, 2, by decide⟩, "CNY", .sale, 16500, some "o1", none, none, ""⟩]
  reviews := [⟨24320, 3, by decide⟩]
  baselines := [⟨24320, "CNY", 4864998, .first 24321, none⟩]

theorem operating_sales_complete_and_consistent_sample : sampleSales.Covers (.first 24320) ∧
    ((SaleDate.first 24321 ≤ SaleDate.first 24320 ∧ ∀ b ∈ sampleSales.baselines, b.month ≠ 24320) ∨
      ∃ b ∈ sampleSales.baselines, b.month = 24320 ∧ sampleSales.fromDate ≤ .first b.month ∧
        .last b.month ≤ sampleSales.toDate) := by
  have hCovers : sampleSales.Covers (.first 24320) := by decide
  obtain ⟨hComplete, _⟩ := operating_sales_complete_and_consistent sampleSales (List.cons_ne_nil _ _)
    (List.forall_mem_singleton.mpr rfl)
  exact ⟨hCovers, (hComplete.mp (by decide +kernel)).2 _ hCovers⟩

end GreenPms
