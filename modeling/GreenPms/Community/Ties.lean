import GreenPms.Community.LongStay

/-! # Ties among the stays of a guest

The stays of a guest are sorted by their dates only. The rows decide whose order the begin, the
renewals and the end of a residence are recorded for: the first row with the dates of the stay that
begins a residence or goes on in it, the last one with the dates of the stay before it.
-/

namespace GreenPms

open Intervals

namespace CommunityStay

def sameDates (s t : CommunityStay) : Bool := t.arrival = s.arrival && t.departure = s.departure

theorem sameDates_iff {s t : CommunityStay} :
    s.sameDates t = true ↔ t.arrival = s.arrival ∧ t.departure = s.departure := by
  rw [sameDates, Bool.and_eq_true, decide_eq_true_eq, decide_eq_true_eq]

theorem sameDates_self (s : CommunityStay) : s.sameDates s = true := sameDates_iff.mpr ⟨rfl, rfl⟩

theorem sameDates_congr {s t : CommunityStay} (h : s.sameDates t = true) : t.sameDates = s.sameDates := by
  obtain ⟨hArrival, hDeparture⟩ := sameDates_iff.mp h
  funext u
  rw [sameDates, sameDates, hArrival, hDeparture]

end CommunityStay

def IsFirst (rows : List CommunityStay) (s : CommunityStay) : Prop := rows.find? s.sameDates = some s

def IsLast (rows : List CommunityStay) (s : CommunityStay) : Prop := (rows.filter s.sameDates).getLast? = some s

/-- A stay that begins a residence: all stays with an earlier arrival have ended before, with a night
between, and none with its arrival is shorter. -/
structure Begins (rows : List CommunityStay) (s : CommunityStay) : Prop where
  mem : s ∈ rows
  apart : ∀ t ∈ rows, t.arrival < s.arrival → t.departure < s.arrival
  shortest : ∀ t ∈ rows, t.arrival = s.arrival → s.departure ≤ t.departure

/-- A stay that goes on where the stays before it end, and the last stay before it. -/
structure Renews (rows : List CommunityStay) (s t : CommunityStay) : Prop where
  mem : s ∈ rows
  mem_next : t ∈ rows
  before : s.arrival < t.arrival
  latest : ∀ u ∈ rows, u.arrival < t.arrival → arrivesBefore u s
  shortest : ∀ u ∈ rows, u.arrival = t.arrival → t.departure ≤ u.departure
  ended : ∀ u ∈ rows, u.arrival < t.arrival → u.departure ≤ t.arrival
  touches : ∃ u ∈ rows, u.arrival < t.arrival ∧ u.departure = t.arrival

structure Ends (rows : List CommunityStay) (until_ : Nat) (s : CommunityStay) : Prop where
  mem : s ∈ rows
  departs : s.departure = until_
  earliest : ∀ t ∈ rows, t.departure = until_ → s.arrival ≤ t.arrival

/-- The first date from a day on whose night no row covers. -/
structure FreeFrom (rows : List CommunityStay) (day until_ : Nat) : Prop where
  le : day ≤ until_
  covered : ∀ n, day ≤ n → n < until_ → ∃ t ∈ rows, t.arrival ≤ n ∧ n < t.departure
  free : ¬ ∃ t ∈ rows, t.arrival ≤ until_ ∧ until_ < t.departure

section Ties

variable {rows others : List CommunityStay} {s t : CommunityStay}

theorem FreeFrom.unique {day until_ end_ : Nat} (h : FreeFrom rows day until_) (h' : FreeFrom rows day end_) :
    until_ = end_ := by
  obtain hLess | hEq | hMore := Nat.lt_trichotomy until_ end_
  · exact absurd (h'.covered until_ h.le hLess) h.free
  · exact hEq
  · exact absurd (h.covered end_ h'.le hMore) h'.free

theorem IsFirst.mem (h : IsFirst rows s) : s ∈ rows := List.mem_of_find?_eq_some h

theorem IsLast.mem (h : IsLast rows s) : s ∈ rows := (List.mem_filter.mp (List.mem_of_getLast? h)).1

theorem IsFirst.unique (hs : IsFirst rows s) (ht : IsFirst rows t) (h : s.sameDates t = true) : s = t := by
  rw [IsFirst, CommunityStay.sameDates_congr h, hs] at ht
  exact Option.some.inj ht

theorem IsLast.unique (hs : IsLast rows s) (ht : IsLast rows t) (h : s.sameDates t = true) : s = t := by
  rw [IsLast, CommunityStay.sameDates_congr h, hs] at ht
  exact Option.some.inj ht

theorem exists_isFirst (hs : s ∈ rows) : ∃ t, IsFirst rows t ∧ s.sameDates t = true := by
  cases hFind : rows.find? s.sameDates with
  | none => exact absurd s.sameDates_self (List.find?_eq_none.mp hFind s hs)
  | some t =>
    have hSame : s.sameDates t = true := List.find?_some hFind
    refine ⟨t, ?_, hSame⟩
    rw [IsFirst, CommunityStay.sameDates_congr hSame]
    exact hFind

theorem exists_isLast (hs : s ∈ rows) : ∃ t, IsLast rows t ∧ s.sameDates t = true := by
  have hFull : rows.filter s.sameDates ≠ [] := List.ne_nil_of_mem (List.mem_filter.mpr ⟨hs, s.sameDates_self⟩)
  have hSame : s.sameDates ((rows.filter s.sameDates).getLast hFull) = true :=
    (List.mem_filter.mp (List.getLast_mem hFull)).2
  refine ⟨_, ?_, hSame⟩
  rw [IsLast, CommunityStay.sameDates_congr hSame]
  exact List.getLast?_eq_some_getLast hFull

theorem exists_first_order (hs : s ∈ rows) : ∃ order, rows.Perm order ∧ IsFirst order s := by
  obtain ⟨front, back, rfl⟩ := List.append_of_mem hs
  exact ⟨s :: (front ++ back), List.perm_middle, List.find?_cons_of_pos s.sameDates_self⟩

theorem exists_last_first_order (hs : s ∈ rows) (ht : t ∈ rows) (hOther : s.arrival ≠ t.arrival) :
    ∃ order, rows.Perm order ∧ IsLast order s ∧ IsFirst order t := by
  obtain ⟨front, back, rfl⟩ := List.append_of_mem ht
  have hs : s ∈ front ++ back := by
    have hNe : s ≠ t := fun hEq => hOther (congrArg CommunityStay.arrival hEq)
    simpa [hNe] using hs
  obtain ⟨front', back', hSplit⟩ := List.append_of_mem hs
  refine ⟨t :: (front' ++ back' ++ [s]), List.perm_middle.trans (List.Perm.cons t ?_), ?_,
    List.find?_cons_of_pos t.sameDates_self⟩
  · rw [hSplit]
    exact List.perm_middle.trans (List.perm_append_singleton s _).symm
  · rw [IsLast, ← List.cons_append, List.filter_append, List.filter_singleton, s.sameDates_self, cond_true]
    exact List.getLast?_concat

theorem Begins.perm (h : rows.Perm others) (hs : Begins rows s) : Begins others s where
  mem := h.mem_iff.mp hs.mem
  apart t ht := hs.apart t (h.mem_iff.mpr ht)
  shortest t ht := hs.shortest t (h.mem_iff.mpr ht)

theorem Begins.sameDates (hs : Begins rows s) (ht : t ∈ rows) (h : s.sameDates t = true) : Begins rows t := by
  obtain ⟨hArrival, hDeparture⟩ := CommunityStay.sameDates_iff.mp h
  refine ⟨ht, fun u hu => ?_, fun u hu => ?_⟩
  · rw [hArrival]
    exact hs.apart u hu
  · rw [hArrival, hDeparture]
    exact hs.shortest u hu

theorem Renews.perm (h : rows.Perm others) (hst : Renews rows s t) : Renews others s t where
  mem := h.mem_iff.mp hst.mem
  mem_next := h.mem_iff.mp hst.mem_next
  before := hst.before
  latest u hu := hst.latest u (h.mem_iff.mpr hu)
  shortest u hu := hst.shortest u (h.mem_iff.mpr hu)
  ended u hu := hst.ended u (h.mem_iff.mpr hu)
  touches := by
    obtain ⟨u, hu, hEnd⟩ := hst.touches
    exact ⟨u, h.mem_iff.mp hu, hEnd⟩

theorem Renews.sameDates {s' t' : CommunityStay} (hst : Renews rows s t) (hs' : s' ∈ rows) (ht' : t' ∈ rows)
    (hs : s.sameDates s' = true) (ht : t.sameDates t' = true) : Renews rows s' t' := by
  obtain ⟨hArrivalS, hDepartureS⟩ := CommunityStay.sameDates_iff.mp hs
  obtain ⟨hArrivalT, hDepartureT⟩ := CommunityStay.sameDates_iff.mp ht
  refine ⟨hs', ht', by rw [hArrivalS, hArrivalT]; exact hst.before, fun u hu hBefore => ?_, fun u hu hSame => ?_,
    fun u hu hBefore => ?_, ?_⟩
  · rw [arrivesBefore, hArrivalS, hDepartureS]
    exact hst.latest u hu (hArrivalT ▸ hBefore)
  · exact hDepartureT ▸ hst.shortest u hu (hSame.trans hArrivalT)
  · exact hArrivalT ▸ hst.ended u hu (hArrivalT ▸ hBefore)
  · exact hArrivalT ▸ hst.touches

theorem Ends.perm {until_ : Nat} (h : rows.Perm others) (hs : Ends rows until_ s) : Ends others until_ s where
  mem := h.mem_iff.mp hs.mem
  departs := hs.departs
  earliest t ht := hs.earliest t (h.mem_iff.mpr ht)

theorem FreeFrom.perm {day until_ : Nat} (h : rows.Perm others) (hFree : FreeFrom rows day until_) :
    FreeFrom others day until_ where
  le := hFree.le
  covered n hFrom hUntil := by
    obtain ⟨t, ht, hCovers⟩ := hFree.covered n hFrom hUntil
    exact ⟨t, h.mem_iff.mp ht, hCovers⟩
  free := fun ⟨t, ht, hCovers⟩ => hFree.free ⟨t, h.mem_iff.mpr ht, hCovers⟩

end Ties

/-! ## The rows as they are sorted -/

section Sorted

variable {rows : List CommunityStay} {s t : CommunityStay}

theorem arrivesBefore_of_sameDates {a b : CommunityStay} (ha : s.sameDates a = true) (hb : s.sameDates b = true) :
    arrivesBefore a b := by
  obtain ⟨hArrivalA, hDepartureA⟩ := CommunityStay.sameDates_iff.mp ha
  obtain ⟨hArrivalB, hDepartureB⟩ := CommunityStay.sameDates_iff.mp hb
  exact .inr ⟨by rw [hArrivalA, hArrivalB], by rw [hDepartureA, hDepartureB]⟩

theorem filter_sorted (rows : List CommunityStay) (s : CommunityStay) :
    (rows.insertionSort arrivesBefore).filter s.sameDates = rows.filter s.sameDates :=
  Indexes.filter_insertionSort arrivesBefore_total.total arrivesBefore_trans.trans
    fun _ _ _ _ ha hb => arrivesBefore_of_sameDates ha hb

theorem isFirst_sorted : IsFirst (rows.insertionSort arrivesBefore) s ↔ IsFirst rows s := by
  rw [IsFirst, IsFirst, ← List.head?_filter, ← List.head?_filter, filter_sorted]

theorem isLast_sorted : IsLast (rows.insertionSort arrivesBefore) s ↔ IsLast rows s := by
  rw [IsLast, IsLast, filter_sorted]

theorem sorted_split {front back : List CommunityStay} (hSplit : rows.insertionSort arrivesBefore = front ++ s :: back) :
    (∀ a ∈ front, arrivesBefore a s) ∧ (∀ b ∈ back, arrivesBefore s b) ∧ front.Pairwise arrivesBefore ∧
      ∀ a ∈ rows, a ∈ front ∨ a = s ∨ a ∈ back := by
  have := arrivesBefore_total
  have := arrivesBefore_trans
  have hSorted := List.pairwise_insertionSort arrivesBefore rows
  rw [hSplit, List.pairwise_append, List.pairwise_cons] at hSorted
  obtain ⟨hFront, ⟨hBack, -⟩, hCross⟩ := hSorted
  refine ⟨fun a ha => hCross a ha s List.mem_cons_self, hBack, hFront, fun a ha => ?_⟩
  have hMem : a ∈ rows.insertionSort arrivesBefore := (List.mem_insertionSort _).mpr ha
  rw [hSplit] at hMem
  simpa using hMem

theorem IsFirst.split (hFirst : IsFirst rows t) (hShortest : ∀ u ∈ rows, u.arrival = t.arrival → t.departure ≤ u.departure) :
    ∃ front back, rows.insertionSort arrivesBefore = front ++ t :: back ∧ ∀ a ∈ front, a.arrival < t.arrival := by
  obtain ⟨-, front, back, hSplit, hOther⟩ := List.find?_eq_some_iff_append.mp (isFirst_sorted.mpr hFirst)
  refine ⟨front, back, hSplit, fun a ha => ?_⟩
  have hOrder := (sorted_split hSplit).1 a ha
  have hShort := hShortest a ((List.mem_insertionSort _).mp (hSplit ▸ List.mem_append_left _ ha))
  have hNot := hOther a ha
  rw [Bool.not_eq_true', ← Bool.not_eq_true, CommunityStay.sameDates_iff] at hNot
  unfold arrivesBefore at hOrder
  omega

theorem IsFirst.of_split {front back : List CommunityStay}
    (hSplit : rows.insertionSort arrivesBefore = front ++ t :: back) (hFront : ∀ a ∈ front, a.arrival < t.arrival) :
    IsFirst rows t := by
  refine isFirst_sorted.mp ?_
  rw [IsFirst, hSplit, List.find?_eq_some_iff_append]
  refine ⟨t.sameDates_self, front, back, rfl, fun a ha => ?_⟩
  rw [Bool.not_eq_true', ← Bool.not_eq_true, CommunityStay.sameDates_iff]
  exact fun h => absurd h.1 (Nat.ne_of_lt (hFront a ha))

/-- The rows before a row that is the first of its arrival are those with an earlier arrival. -/
theorem mem_front_iff {front back : List CommunityStay} (hSplit : rows.insertionSort arrivesBefore = front ++ t :: back)
    (hFront : ∀ a ∈ front, a.arrival < t.arrival) {u : CommunityStay} (hu : u ∈ rows) :
    u ∈ front ↔ u.arrival < t.arrival := by
  obtain ⟨-, hBack, -, hSides⟩ := sorted_split hSplit
  refine ⟨hFront u, fun hBefore => ?_⟩
  obtain hHere | rfl | hAfter := hSides u hu
  · exact hHere
  · exact absurd hBefore (Nat.lt_irrefl _)
  · have hLater := hBack u hAfter
    unfold arrivesBefore at hLater
    omega

theorem shortest_of_split {front back : List CommunityStay}
    (hSplit : rows.insertionSort arrivesBefore = front ++ t :: back) (hFront : ∀ a ∈ front, a.arrival < t.arrival)
    {u : CommunityStay} (hu : u ∈ rows) (hSame : u.arrival = t.arrival) : t.departure ≤ u.departure := by
  obtain ⟨-, hBack, -, hSides⟩ := sorted_split hSplit
  obtain hHere | rfl | hAfter := hSides u hu
  · exact absurd hSame (Nat.ne_of_lt (hFront u hHere))
  · exact Nat.le_refl _
  · have hLater := hBack u hAfter
    unfold arrivesBefore at hLater
    omega

theorem isLast_of_split {front back : List CommunityStay}
    (hSplit : rows.insertionSort arrivesBefore = front ++ t :: back) (hEarlier : s.arrival < t.arrival) :
    IsLast rows s ↔ (front.filter s.sameDates).getLast? = some s := by
  obtain ⟨-, hBack, -, -⟩ := sorted_split hSplit
  have hNone : (t :: back).filter s.sameDates = [] := by
    refine List.filter_eq_nil_iff.mpr (List.forall_mem_cons.mpr ⟨fun hSame => ?_, fun b hb hSame => ?_⟩)
    · exact absurd (CommunityStay.sameDates_iff.mp hSame).1.symm (Nat.ne_of_lt hEarlier)
    · have hLater := hBack b hb
      have hArrival := (CommunityStay.sameDates_iff.mp hSame).1
      unfold arrivesBefore at hLater
      omega
  rw [← isLast_sorted, IsLast, hSplit, List.filter_append, hNone, List.append_nil]

theorem begins_iff (hPos : ∀ a ∈ rows, a.arrival < a.departure) :
    (∃ c ∈ residences rows, c.head? = some s) ↔ Begins rows s ∧ IsFirst rows s := by
  have hPosSorted : ∀ a ∈ rows.insertionSort arrivesBefore, a.arrival < a.departure :=
    fun a ha => hPos a ((List.mem_insertionSort _).mp ha)
  rw [residences, head_of_chain_iff hPosSorted (sorted_arrivals rows)]
  constructor
  · rintro ⟨front, back, hSplit, hFront⟩
    have hMem : ∀ a ∈ front ++ s :: back, a ∈ rows := fun a ha => (List.mem_insertionSort _).mp (hSplit ▸ ha)
    have hEarlier : ∀ a ∈ front, a.arrival < s.arrival := fun a ha =>
      (hPos a (hMem a (List.mem_append_left _ ha))).trans (hFront a ha)
    exact ⟨⟨hMem s (by simp), fun t ht hBefore => hFront t ((mem_front_iff hSplit hEarlier ht).mpr hBefore),
      fun t ht => shortest_of_split hSplit hEarlier ht⟩, IsFirst.of_split hSplit hEarlier⟩
  · rintro ⟨hBegins, hFirst⟩
    obtain ⟨front, back, hSplit, hEarlier⟩ := hFirst.split hBegins.shortest
    refine ⟨front, back, hSplit, fun a ha => hBegins.apart a ?_ (hEarlier a ha)⟩
    exact (List.mem_insertionSort _).mp (hSplit ▸ List.mem_append_left _ ha)

theorem renews_iff (hPos : ∀ a ∈ rows, a.arrival < a.departure) :
    (∃ mid rest, mid ++ t :: rest ∈ residences rows ∧ mid.getLast? = some s ∧
      t.arrival = reach CommunityStay.departure mid) ↔ Renews rows s t ∧ IsLast rows s ∧ IsFirst rows t := by
  have hPosSorted : ∀ a ∈ rows.insertionSort arrivesBefore, a.arrival < a.departure :=
    fun a ha => hPos a ((List.mem_insertionSort _).mp ha)
  rw [residences, next_in_chain_iff hPosSorted (sorted_arrivals rows)]
  constructor
  · rintro ⟨front, back, hSplit, hLast, hTouches⟩
    have hMem : ∀ a ∈ front ++ t :: back, a ∈ rows := fun a ha => (List.mem_insertionSort _).mp (hSplit ▸ ha)
    have hEnded : ∀ a ∈ front, a.departure ≤ t.arrival := reach_le_iff.mp hTouches.ge
    have hEarlier : ∀ a ∈ front, a.arrival < t.arrival := fun a ha =>
      (hPos a (hMem a (List.mem_append_left _ ha))).trans_le (hEnded a ha)
    have hOrder := (sorted_split hSplit).2.2.1
    obtain ⟨init, rfl⟩ := List.getLast?_eq_some_iff.mp hLast
    have hs : s ∈ init ++ [s] := List.mem_append_right _ List.mem_cons_self
    refine ⟨⟨hMem s (List.mem_append_left _ hs), hMem t (by simp), hEarlier s hs, fun u hu hBefore => ?_,
      fun u hu => shortest_of_split hSplit hEarlier hu,
      fun u hu hBefore => hEnded u ((mem_front_iff hSplit hEarlier hu).mpr hBefore), ?_⟩, ?_,
      IsFirst.of_split hSplit hEarlier⟩
    · obtain hInit | hHere := List.mem_append.mp ((mem_front_iff hSplit hEarlier hu).mpr hBefore)
      · exact (List.pairwise_append.mp hOrder).2.2 u hInit s List.mem_cons_self
      · rw [List.mem_singleton.mp hHere]
        exact .inr ⟨rfl, Nat.le_refl _⟩
    · obtain ⟨u, hu, hReach⟩ := exists_reach CommunityStay.departure (List.ne_nil_of_mem hs)
      exact ⟨u, hMem u (List.mem_append_left _ hu), hEarlier u hu, hReach.trans hTouches.symm⟩
    · rw [isLast_of_split hSplit (hEarlier s hs), List.filter_append, List.filter_singleton, s.sameDates_self]
      exact List.getLast?_concat
  · rintro ⟨hRenews, hLast, hFirst⟩
    obtain ⟨front, back, hSplit, hEarlier⟩ := hFirst.split hRenews.shortest
    have hs : s ∈ front := (mem_front_iff hSplit hEarlier hRenews.mem).mpr hRenews.before
    obtain ⟨u, hu, hBefore, hTouches⟩ := hRenews.touches
    refine ⟨front, back, hSplit, ?_, Nat.le_antisymm ?_ (reach_le_iff.mpr fun a ha => ?_)⟩
    · obtain ⟨init, last, rfl⟩ := (List.eq_nil_or_concat' front).resolve_left (List.ne_nil_of_mem hs)
      have hLastMem : last ∈ rows.insertionSort arrivesBefore := by simp [hSplit]
      have hLatest := hRenews.latest last ((List.mem_insertionSort _).mp hLastMem) (hEarlier last (by simp))
      have hSame : s.sameDates last = true := by
        rw [CommunityStay.sameDates_iff]
        obtain hInit | hHere := List.mem_append.mp hs
        · have hOrder := (List.pairwise_append.mp (sorted_split hSplit).2.2.1).2.2 s hInit last List.mem_cons_self
          unfold arrivesBefore at hLatest hOrder
          omega
        · rw [List.mem_singleton.mp hHere]
          exact ⟨rfl, rfl⟩
      rw [isLast_of_split hSplit hRenews.before, List.filter_append, List.filter_singleton, hSame] at hLast
      rw [cond_true, List.getLast?_concat] at hLast
      rw [List.getLast?_concat, hLast]
    · exact hTouches ▸ le_reach ((mem_front_iff hSplit hEarlier hu).mpr hBefore)
    · exact hRenews.ended a ((List.mem_insertionSort _).mp (hSplit ▸ List.mem_append_left _ ha)) (hEarlier a ha)

/-! ## The end of a residence -/

/-- The loop over sorted stays ends on the first night that none covers, with the order of the first
stay up to it. -/
theorem foldl_extendEnd {planned : List CommunityStay} (hSorted : planned.Pairwise fun a b => a.arrival ≤ b.arrival)
    (until_ order : Nat) : FreeFrom planned until_ (planned.foldl extendEnd (until_, order)).1 ∧
      (planned.foldl extendEnd (until_, order) = (until_, order) ∨
        until_ < (planned.foldl extendEnd (until_, order)).1 ∧
          (planned.find? fun s => s.departure = (planned.foldl extendEnd (until_, order)).1).map CommunityStay.orderId =
            some (planned.foldl extendEnd (until_, order)).2) := by
  induction planned generalizing until_ order with
  | nil =>
    refine ⟨⟨Nat.le_refl _, fun n hFrom hUntil => absurd hFrom (Nat.not_le.mpr hUntil), ?_⟩, .inl rfl⟩
    rintro ⟨t, ht, -⟩
    cases ht
  | cons s rest ih =>
    obtain ⟨hLater, hRest⟩ := List.pairwise_cons.mp hSorted
    rw [List.foldl_cons]
    by_cases hGoesOn : s.arrival ≤ until_ ∧ until_ < s.departure
    · rw [extendEnd, if_pos hGoesOn]
      obtain ⟨hFree, hOrder⟩ := ih hRest s.departure s.orderId
      generalize rest.foldl extendEnd (s.departure, s.orderId) = ended at hFree hOrder
      refine ⟨⟨hGoesOn.2.le.trans hFree.le, fun n hFrom hUntil => ?_, ?_⟩, .inr ⟨hGoesOn.2.trans_le hFree.le, ?_⟩⟩
      · obtain hHere | hBehind := Nat.lt_or_ge n s.departure
        · exact ⟨s, List.mem_cons_self, hGoesOn.1.trans hFrom, hHere⟩
        · obtain ⟨t, ht, hCovers⟩ := hFree.covered n hBehind hUntil
          exact ⟨t, List.mem_cons_of_mem _ ht, hCovers⟩
      · rintro ⟨t, ht, hArrived, hStays⟩
        obtain rfl | ht := List.mem_cons.mp ht
        · exact absurd hStays (Nat.not_lt.mpr hFree.le)
        · exact hFree.free ⟨t, ht, hArrived, hStays⟩
      · obtain rfl | ⟨hFurther, hFound⟩ := hOrder
        · simp
        · rw [List.find?_cons_of_neg (by simpa using Nat.ne_of_lt hFurther), hFound]
    · rw [extendEnd, if_neg hGoesOn]
      obtain ⟨hFree, hOrder⟩ := ih hRest until_ order
      generalize rest.foldl extendEnd (until_, order) = ended at hFree hOrder
      -- Behind a stay that begins later no stay is reached.
      have hStops : until_ < s.arrival → ended.1 = until_ := fun hGap => by
        by_contra hFurther
        obtain ⟨t, ht, hArrived, -⟩ := hFree.covered until_ (Nat.le_refl _) (lt_of_le_of_ne hFree.le (Ne.symm hFurther))
        exact absurd (hGap.trans_le (hLater t ht)) (Nat.not_lt.mpr hArrived)
      have hLe := hFree.le
      refine ⟨⟨hLe, fun n hFrom hUntil => ?_, ?_⟩, hOrder.imp_right fun ⟨hFurther, hFound⟩ => ⟨hFurther, ?_⟩⟩
      · obtain ⟨t, ht, hCovers⟩ := hFree.covered n hFrom hUntil
        exact ⟨t, List.mem_cons_of_mem _ ht, hCovers⟩
      · rintro ⟨t, ht, hArrived, hStays⟩
        obtain rfl | ht := List.mem_cons.mp ht
        · omega
        · exact hFree.free ⟨t, ht, hArrived, hStays⟩
      · rw [List.find?_cons_of_neg ?_, hFound]
        rw [decide_eq_true_eq]
        omega

/-- The first stay up to a date, among stays that are sorted by their arrival at least. -/
theorem ends_of_find {rows sorted : List CommunityStay} {until_ : Nat} (hMem : ∀ a, a ∈ sorted ↔ a ∈ rows)
    (hSorted : sorted.Pairwise fun a b => a.arrival ≤ b.arrival)
    (hOpen : ∀ s : CommunityStay, IsFirst sorted s ↔ IsFirst rows s)
    (h : sorted.find? (fun s => s.departure = until_) = some s) : Ends rows until_ s ∧ IsFirst rows s := by
  obtain ⟨hDeparts, front, back, rfl, hFront⟩ := List.find?_eq_some_iff_append.mp h
  have hUntil : s.departure = until_ := of_decide_eq_true hDeparts
  have hOther : ∀ a ∈ front, a.departure ≠ until_ := fun a ha => by simpa using hFront a ha
  refine ⟨⟨(hMem s).mp (by simp), hUntil, fun t ht hSame => ?_⟩, (hOpen s).mp ?_⟩
  · obtain hHere | hBehind := List.mem_append.mp ((hMem t).mpr ht)
    · exact absurd hSame (hOther t hHere)
    · obtain rfl | hBehind := List.mem_cons.mp hBehind
      · exact Nat.le_refl _
      · exact (List.pairwise_cons.mp (List.pairwise_append.mp hSorted).2.1).1 t hBehind
  · rw [IsFirst, List.find?_eq_some_iff_append]
    refine ⟨s.sameDates_self, front, back, rfl, fun a ha => ?_⟩
    rw [Bool.not_eq_true', ← Bool.not_eq_true, CommunityStay.sameDates_iff]
    exact fun hSame => hOther a ha (hSame.2.trans hUntil)

theorem mem_of_departure (hPos : ∀ a ∈ rows, a.arrival < a.departure) {c : List CommunityStay}
    (hc : c ∈ residences rows) (hs : s ∈ rows) (hDeparts : untilOf c ≤ s.departure) (hArrives : s.arrival ≤ untilOf c) :
    s ∈ c ∧ s.departure = untilOf c := by
  have hChain := residence_isChain hPos hc
  have hMem : s ∈ c := by
    by_contra hOut
    obtain hBefore | hBehind := hChain.apart s ((List.mem_insertionSort _).mpr hs) hOut
    · obtain ⟨a, as, hEq⟩ := List.exists_cons_of_ne_nil hChain.nonempty
      have ha : a ∈ c := hEq ▸ List.mem_cons_self
      have hPosA := hPos a ((List.mem_insertionSort _).mp (hChain.sub a ha))
      have hFirst := hChain.first_le a ha
      have hReach : a.departure ≤ untilOf c := le_reach ha
      omega
    · exact absurd hBehind (Nat.not_lt.mpr hArrives)
  exact ⟨hMem, Nat.le_antisymm (le_reach hMem) hDeparts⟩

/-- The stay up to the end of a residence whose order its end is recorded for. -/
theorem exists_ends (hPos : ∀ a ∈ rows, a.arrival < a.departure) {c : List CommunityStay} (hc : c ∈ residences rows) :
    ∃ s, c.find? (fun s => s.departure = untilOf c) = some s ∧ Ends rows (untilOf c) s ∧ IsFirst rows s := by
  obtain ⟨before, back, hSplit, hBefore⟩ := chain_place (sorted_arrivals rows) hc
  obtain ⟨a, ha, hReach⟩ := exists_reach CommunityStay.departure (residence_isChain hPos hc).nonempty
  obtain ⟨s, hFind⟩ : ∃ s, c.find? (fun s => s.departure = untilOf c) = some s := by
    cases hFind : c.find? fun s => s.departure = untilOf c with
    | none => exact absurd (decide_eq_true hReach) (List.find?_eq_none.mp hFind a ha)
    | some s => exact ⟨s, rfl⟩
  have hPosA : a.arrival < a.departure :=
    hPos a ((List.mem_insertionSort _).mp ((residence_isChain hPos hc).sub a ha))
  have hNone : before.find? (fun s => s.departure = untilOf c) = none := by
    refine List.find?_eq_none.mpr fun b hb h => ?_
    have hGap := hBefore b hb a ha
    have hUntil : b.departure = reach CommunityStay.departure c := of_decide_eq_true h
    omega
  refine ⟨s, hFind, ends_of_find (fun a => List.mem_insertionSort _) (sorted_arrivals rows) (fun _ => isFirst_sorted) ?_⟩
  rw [hSplit, List.find?_append, List.find?_append, hNone, hFind]
  rfl

/-- The end that is confirmed for a residence, and a stay of the order that it is recorded for. -/
theorem confirmedEnd_spec (hPos : ∀ a ∈ rows, a.arrival < a.departure) {c : List CommunityStay} (hc : c ∈ residences rows)
    (planned : List CommunityStay) : ∃ end_ s, confirmedEnd planned (c.map CommunityStay.visit) = (end_, s.orderId) ∧
      FreeFrom planned (untilOf c) end_ ∧ Ends (if end_ = untilOf c then rows else planned) end_ s ∧
        IsFirst (if end_ = untilOf c then rows else planned) s := by
  have hTotal : ∀ a b : CommunityStay, a.arrival ≤ b.arrival ∨ b.arrival ≤ a.arrival := fun _ _ => Nat.le_total _ _
  have hTrans : ∀ a b c : CommunityStay, a.arrival ≤ b.arrival → b.arrival ≤ c.arrival → a.arrival ≤ c.arrival :=
    fun _ _ _ => Nat.le_trans
  have : Std.Total fun a b : CommunityStay => a.arrival ≤ b.arrival := ⟨hTotal⟩
  have : IsTrans CommunityStay fun a b => a.arrival ≤ b.arrival := ⟨hTrans⟩
  obtain ⟨due, hDue, hEnds, hFirst⟩ := exists_ends hPos hc
  have hStart : confirmedEnd planned (c.map CommunityStay.visit) =
      (planned.insertionSort fun a b => a.arrival ≤ b.arrival).foldl extendEnd (untilOf c, due.orderId) := by
    have hVisit : (c.map CommunityStay.visit).find? (fun visit => visit.departure = untilOf c) = some due.visit := by
      rw [List.find?_map]
      exact congrArg (Option.map CommunityStay.visit) hDue
    simp only [confirmedEnd, reach_map]
    rw [show reach (fun a : CommunityStay => a.visit.departure) c = untilOf c from rfl, hVisit]
    rfl
  have hSorted := List.pairwise_insertionSort (fun a b : CommunityStay => a.arrival ≤ b.arrival) planned
  obtain ⟨hFree, hOrder⟩ := foldl_extendEnd hSorted (untilOf c) due.orderId
  rw [← hStart] at hFree hOrder
  have hPlanned : FreeFrom planned (untilOf c) (confirmedEnd planned (c.map CommunityStay.visit)).1 :=
    hFree.perm (List.perm_insertionSort _ planned)
  obtain hSame | ⟨hFurther, hFound⟩ := hOrder
  · rw [hSame] at hPlanned ⊢
    exact ⟨untilOf c, due, rfl, hPlanned, by rwa [if_pos rfl], by rwa [if_pos rfl]⟩
  · obtain ⟨s, hFind, hs⟩ := Option.map_eq_some_iff.mp hFound
    have hOpen : ∀ s : CommunityStay, IsFirst (planned.insertionSort fun a b => a.arrival ≤ b.arrival) s ↔ IsFirst planned s := by
      intro s
      have hTies : (planned.insertionSort fun a b => a.arrival ≤ b.arrival).filter s.sameDates = planned.filter s.sameDates := by
        refine Indexes.filter_insertionSort hTotal hTrans fun a _ b _ ha hb => ?_
        rw [(CommunityStay.sameDates_iff.mp ha).1, (CommunityStay.sameDates_iff.mp hb).1]
      rw [IsFirst, IsFirst, ← List.head?_filter, ← List.head?_filter, hTies]
    obtain ⟨hLatest, hFirstPlanned⟩ := ends_of_find (fun a => List.mem_insertionSort _) hSorted hOpen hFind
    have hNe := Nat.ne_of_gt hFurther
    exact ⟨_, s, Prod.ext rfl hs.symm, hPlanned, by rwa [if_neg hNe], by rwa [if_neg hNe]⟩

theorem confirmedEnd_free (hPos : ∀ a ∈ rows, a.arrival < a.departure) {c : List CommunityStay} (hc : c ∈ residences rows)
    {planned : List CommunityStay} {end_ orderId : Nat}
    (h : confirmedEnd planned (c.map CommunityStay.visit) = (end_, orderId)) : FreeFrom planned (untilOf c) end_ := by
  obtain ⟨end', s, hSpec, hFree, -⟩ := confirmedEnd_spec hPos hc planned
  rw [h, Prod.mk.injEq] at hSpec
  exact hSpec.1 ▸ hFree

theorem freeFrom_of_live (hPos : ∀ a ∈ rows, a.arrival < a.departure) {range : CommunityRange} {c : List CommunityStay}
    (hc : c ∈ residences rows) (hLive : isLive range c = true) : FreeFrom rows range.today (untilOf c) := by
  have hChain := residence_isChain hPos hc
  obtain ⟨s, hs, hHere⟩ := List.any_eq_true.mp hLive
  obtain ⟨hArrived, hStays⟩ := relevant_dates hHere
  have hReach : s.departure ≤ untilOf c := le_reach hs
  refine ⟨hStays.le.trans hReach, fun n hFrom hUntil => ?_, ?_⟩
  · obtain ⟨t, ht, hCovers⟩ := hChain.covers n (((hChain.first_le s hs).trans hArrived).trans hFrom) hUntil
    exact ⟨t, (List.mem_insertionSort _).mp (hChain.sub t ht), hCovers⟩
  · rintro ⟨t, ht, hArrives, hLater⟩
    exact absurd (mem_of_departure hPos hc ht hLater.le hArrives).2 (Nat.ne_of_gt hLater)

theorem exists_live {range : CommunityRange} {s : CommunityStay} (hs : s ∈ rows)
    (hHere : s.relevant range.today range.today = true) : ∃ c ∈ residences rows, isLive range c = true := by
  have hMem : s ∈ rows.insertionSort arrivesBefore := (List.mem_insertionSort _).mpr hs
  rw [← chains_flatten CommunityStay.arrival CommunityStay.departure (rows.insertionSort arrivesBefore)] at hMem
  obtain ⟨c, hc, hsc⟩ := List.mem_flatten.mp hMem
  exact ⟨c, hc, List.any_eq_true.mpr ⟨s, hsc, hHere⟩⟩

end Sorted

end GreenPms
