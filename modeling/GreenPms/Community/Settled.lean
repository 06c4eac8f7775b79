import GreenPms.Community.Recorded

/-! # Records of rows in another order

The records do not depend on the order of the rows exactly if no tie that the begin, a renewal or the
end of a residence reads can change the order that it is recorded for.
-/

namespace GreenPms

open Intervals Indexes

/-- The stays that the end of the residence of today may be recorded for: those up to the first night
that neither a stay nor a planned one covers. -/
structure Leaves (range : CommunityRange) (rows planned : List CommunityStay) (until_ end_ : Nat)
    (s : CommunityStay) : Prop where
  here : ∃ t ∈ rows, t.relevant range.today range.today = true
  stays : FreeFrom rows range.today until_
  goesOn : FreeFrom planned until_ end_
  soon : end_ < range.today + 7
  ends : Ends (if end_ = until_ then rows else planned) end_ s

structure RecordsSettled (input : CommunityInput) : Prop where
  begins : ∀ p s t, Begins (input.staysOf p) s → Begins (input.staysOf p) t → s.arrival = t.arrival →
    input.range.covers s.arrival = true → s.orderId = t.orderId
  renewals : ∀ p s t s' t', Renews (input.staysOf p) s t → Renews (input.staysOf p) s' t' → t.arrival = t'.arrival →
    input.range.covers t.arrival = true → s.orderId ≠ t.orderId → (∀ event ∈ input.events, ¬ event.RenewalOf t) →
      t'.orderId = t.orderId ∧ s'.orderId ≠ t'.orderId
  ends : ∀ p until_ end_ s t, Leaves input.range (input.staysOf p) (input.plannedOf p) until_ end_ s →
    Leaves input.range (input.staysOf p) (input.plannedOf p) until_ end_ t → s.orderId = t.orderId

section Rows

variable {range : CommunityRange} {rows others planned : List CommunityStay} {s t : CommunityStay}

theorem residences_getElem? (h : rows.Perm others) {c : List CommunityStay} {i : Nat}
    (hc : (residences rows)[i]? = some c) : ∃ c', (residences others)[i]? = some c' ∧ startOf c' = startOf c ∧
      untilOf c' = untilOf c := by
  have hSpan : (residenceSpans rows)[i]? = some (startOf c, untilOf c) := by
    rw [residenceSpans, List.getElem?_map, hc]
    rfl
  rw [residenceSpans_perm h, residenceSpans, List.getElem?_map, Option.map_eq_some_iff] at hSpan
  obtain ⟨c', hc', hDates⟩ := hSpan
  obtain ⟨hStart, hUntil⟩ := Prod.mk.inj hDates
  exact ⟨c', hc', hStart, hUntil⟩

theorem isLive_of_dates (hPos : ∀ s ∈ rows, s.arrival < s.departure) (h : rows.Perm others) {c c' : List CommunityStay}
    (hc : c ∈ residences rows) (hc' : c' ∈ residences others) (hStart : startOf c' = startOf c)
    (hUntil : untilOf c' = untilOf c) : isLive range c' = isLive range c := by
  rw [isLive_eq hPos hc, isLive_eq (fun s hs => hPos s (h.mem_iff.mpr hs)) hc', hStart, hUntil, liveIn_perm h]

theorem startOf_head {c : List CommunityStay} (h : c.head? = some s) : startOf c = s.arrival := by
  obtain ⟨rest, rfl⟩ := List.head?_eq_some_iff.mp h
  rfl

theorem Begins.departure_eq (hs : Begins rows s) (ht : Begins rows t) (h : s.arrival = t.arrival) :
    s.sameDates t = true :=
  CommunityStay.sameDates_iff.mpr ⟨h.symm, Nat.le_antisymm (ht.shortest s hs.mem h) (hs.shortest t ht.mem h.symm)⟩

theorem Ends.sameDates {until_ : Nat} (hs : Ends rows until_ s) (ht : Ends rows until_ t) : s.sameDates t = true :=
  CommunityStay.sameDates_iff.mpr ⟨Nat.le_antisymm (ht.earliest s hs.mem hs.departs) (hs.earliest t ht.mem ht.departs),
    ht.departs.trans hs.departs.symm⟩

theorem Renews.sameDates_next {s' t' : CommunityStay} (h : Renews rows s t) (h' : Renews rows s' t')
    (hArrival : t.arrival = t'.arrival) : s.sameDates s' = true ∧ t.sameDates t' = true := by
  have hLatest := h.latest s' h'.mem (hArrival ▸ h'.before)
  have hLatest' := h'.latest s h.mem (hArrival ▸ h.before)
  have hShortest := h.shortest t' h'.mem_next hArrival.symm
  have hShortest' := h'.shortest t h.mem_next hArrival
  unfold arrivesBefore at hLatest hLatest'
  rw [CommunityStay.sameDates_iff, CommunityStay.sameDates_iff]
  omega

end Rows

/-! ## Settled ties -/

section Settled

variable {a b : CommunityInput} {p : Nat} {key : RecordKey}

theorem Reordered.symm (h : Reordered a b) : Reordered b a := ⟨h.stays.symm, h.events.symm, h.planned.symm, h.range.symm⟩

theorem Reordered.staysOf (h : Reordered a b) (p : Nat) : (a.staysOf p).Perm (b.staysOf p) := h.stays.filter _

theorem Reordered.plannedOf (h : Reordered a b) (p : Nat) : (a.plannedOf p).Perm (b.plannedOf p) := h.planned.filter _

theorem Leaves.perm {range : CommunityRange} {rows others planned next : List CommunityStay} {until_ end_ : Nat}
    {s : CommunityStay} (hRows : rows.Perm others) (hPlanned : planned.Perm next)
    (h : Leaves range rows planned until_ end_ s) : Leaves range others next until_ end_ s where
  here := by
    obtain ⟨t, ht, hHere⟩ := h.here
    exact ⟨t, hRows.mem_iff.mp ht, hHere⟩
  stays := h.stays.perm hRows
  goesOn := h.goesOn.perm hPlanned
  soon := h.soon
  ends := by
    refine h.ends.perm ?_
    split
    · exact hRows
    · exact hPlanned

theorem RecordsSettled.reordered (h : Reordered a b) (hSettled : RecordsSettled a) : RecordsSettled b where
  begins p s t hs ht hArrival hCovers := hSettled.begins p s t (hs.perm (h.staysOf p).symm) (ht.perm (h.staysOf p).symm)
    hArrival (h.range ▸ hCovers)
  renewals p s t s' t' hst hst' hArrival hCovers hOther hEvents :=
    hSettled.renewals p s t s' t' (hst.perm (h.staysOf p).symm) (hst'.perm (h.staysOf p).symm) hArrival (h.range ▸ hCovers)
      hOther fun event hEvent => hEvents event (h.events.mem_iff.mp hEvent)
  ends p until_ end_ s t hs ht := hSettled.ends p until_ end_ s t
    (h.range ▸ hs.perm (h.staysOf p).symm (h.plannedOf p).symm) (h.range ▸ ht.perm (h.staysOf p).symm (h.plannedOf p).symm)

theorem leaves_of_due {range : CommunityRange} {rows planned : List CommunityStay}
    (hPos : ∀ s ∈ rows, s.arrival < s.departure) {c : List CommunityStay} (hc : c ∈ residences rows)
    (hLive : isLive range c = true) {end_ orderId : Nat}
    (hEnd : confirmedEnd planned (c.map CommunityStay.visit) = (end_, orderId)) (hSoon : end_ < range.today + 7) :
    ∃ s, s.orderId = orderId ∧ Leaves range rows planned (untilOf c) end_ s ∧
      IsFirst (if end_ = untilOf c then rows else planned) s := by
  obtain ⟨end', s, hSpec, hFree, hEnds, hFirst⟩ := confirmedEnd_spec hPos hc planned
  obtain ⟨rfl, rfl⟩ := Prod.mk.inj (hSpec.symm.trans hEnd)
  obtain ⟨t, ht, hHere⟩ := List.any_eq_true.mp hLive
  have hMem := (List.mem_insertionSort _).mp ((residence_isChain hPos hc).sub t ht)
  exact ⟨s, rfl, ⟨⟨t, hMem, hHere⟩, freeFrom_of_live hPos hc hLive, hFree, hSoon, hEnds⟩, hFirst⟩

theorem StayRecord.reordered (h : Reordered a b) (hPos : ∀ s ∈ a.stays, s.arrival < s.departure) (hSettled : RecordsSettled a)
    (hRecord : StayRecord a.range (a.plannedOf p) (a.staysOf p) key) :
    StayRecord b.range (b.plannedOf p) (b.staysOf p) key ∨ Mentions b.eventPart key (some p) := by
  have hRows := h.staysOf p
  have hPosA : ∀ s ∈ a.staysOf p, s.arrival < s.departure := fun s hs => hPos s (mem_staysOf.mp hs).1
  have hPosB : ∀ s ∈ b.staysOf p, s.arrival < s.departure := fun s hs => hPosA s (hRows.mem_iff.mpr hs)
  rw [← h.range]
  cases hRecord with
  | @begun c i s hResidence hHead hCovers =>
    obtain ⟨c', hResidence', hStart, hUntil⟩ := residences_getElem? hRows hResidence
    have hc : c ∈ residences (a.staysOf p) := List.mem_of_getElem? hResidence
    have hc' : c' ∈ residences (b.staysOf p) := List.mem_of_getElem? hResidence'
    obtain ⟨s', rest, rfl⟩ := List.exists_cons_of_ne_nil (residence_isChain hPosB hc').nonempty
    obtain ⟨hBegins, -⟩ := (begins_iff hPosA).mp ⟨c, hc, hHead⟩
    obtain ⟨hBegins', -⟩ := (begins_iff hPosB).mp ⟨_, hc', rfl⟩
    have hArrival : s'.arrival = s.arrival := hStart.trans (startOf_head hHead)
    have hOrder := hSettled.begins p s s' hBegins (hBegins'.perm hRows.symm) hArrival.symm hCovers
    have hBegun : StayRecord a.range (b.plannedOf p) (b.staysOf p) _ := .begun hResidence' rfl (hArrival ▸ hCovers)
    rw [← hOrder, hArrival, hUntil, isLive_of_dates hPosA hRows hc hc' hStart hUntil] at hBegun
    exact .inl hBegun
  | @renewed s t hRenews hLast hFirst hOther hCovers =>
    obtain ⟨s', hLast', hSameS⟩ := exists_isLast (hRows.mem_iff.mp hRenews.mem)
    obtain ⟨t', hFirst', hSameT⟩ := exists_isFirst (hRows.mem_iff.mp hRenews.mem_next)
    have hRenews' := (hRenews.perm hRows).sameDates hLast'.mem hFirst'.mem hSameS hSameT
    have hArrival : t'.arrival = t.arrival := (CommunityStay.sameDates_iff.mp hSameT).1
    by_cases hEvent : ∃ event ∈ a.events, event.RenewalOf t
    · obtain ⟨event, hMem, hRenewal⟩ := hEvent
      exact .inr (mentions_eventPart_reordered h
        (mentions_renewalOf hMem hRenews.mem_next (hPosA t hRenews.mem_next) hRenewal hCovers))
    · obtain ⟨hOrder, hOther'⟩ := hSettled.renewals p s t s' t' hRenews (hRenews'.perm hRows.symm) hArrival.symm hCovers
        hOther fun event hMem hRenewal => hEvent ⟨event, hMem, hRenewal⟩
      have hRenewed : StayRecord a.range (b.plannedOf p) (b.staysOf p) _ :=
        .renewed hRenews' hLast' hFirst' hOther' (hArrival ▸ hCovers)
      rw [hOrder, hArrival] at hRenewed
      exact .inl hRenewed
  | @due c end_ orderId hResidence hLive hEnds hComes hSoon =>
    obtain ⟨i, hi⟩ := List.mem_iff_getElem?.mp hResidence
    obtain ⟨c', hResidence', hStart, hUntil⟩ := residences_getElem? hRows hi
    have hc' : c' ∈ residences (b.staysOf p) := List.mem_of_getElem? hResidence'
    have hLive' := (isLive_of_dates hPosA hRows hResidence hc' hStart hUntil).trans hLive
    obtain ⟨end', order', hEnds'⟩ : ∃ end' order', confirmedEnd (b.plannedOf p) (c'.map CommunityStay.visit) =
      (end', order') := ⟨_, _, rfl⟩
    obtain ⟨s, rfl, hLeaves, -⟩ := leaves_of_due hPosA hResidence hLive hEnds hSoon
    obtain rfl : end' = end_ :=
      (hUntil ▸ confirmedEnd_free hPosB hc' hEnds').unique ((confirmedEnd_free hPosA hResidence hEnds).perm (h.plannedOf p))
    obtain ⟨s', rfl, hLeaves', -⟩ := leaves_of_due hPosB hc' hLive' hEnds' hSoon
    have hOrder := hSettled.ends p _ _ s s' hLeaves
      (hUntil ▸ hLeaves'.perm hRows.symm (h.plannedOf p).symm)
    have hDue : StayRecord a.range (b.plannedOf p) (b.staysOf p) _ := .due hc' hLive' hEnds' hComes hSoon
    rw [← hOrder, hUntil, hStart] at hDue
    exact .inl hDue

theorem mentions_reordered (h : Reordered a b) (hPos : ∀ s ∈ a.stays, s.arrival < s.departure)
    (hSettled : RecordsSettled a) {person : Option Nat} (hMentions : Mentions a.wholeAdditions key person) :
    Mentions b.wholeAdditions key person := by
  rw [mentions_wholeAdditions fun s hs => hPos s (h.stays.mem_iff.mpr hs)]
  obtain ⟨p, rfl, hRecord⟩ | hEvent := (mentions_wholeAdditions hPos).mp hMentions
  · exact (hRecord.reordered h hPos hSettled).imp_left fun hRecord' => ⟨p, rfl, hRecord'⟩
  · exact .inr (mentions_eventPart_reordered h hEvent)

theorem records_perm (h : Reordered a b) (hPos : ∀ s ∈ a.stays, s.arrival < s.departure) (hSettled : RecordsSettled a) :
    ((recordsOf a.wholeAdditions).map CommunityRecord.figure).Perm
      ((recordsOf b.wholeAdditions).map CommunityRecord.figure) :=
  figures_of_mentions (voiced_wholeAdditions a) (voiced_wholeAdditions b) fun _ _ =>
    ⟨mentions_reordered h hPos hSettled,
      mentions_reordered h.symm (fun s hs => hPos s (h.stays.mem_iff.mpr hs)) (hSettled.reordered h)⟩

end Settled

/-! ## Open ties -/

def CommunityInput.arranged (input : CommunityInput) (p : Nat) (rows planned : List CommunityStay) : CommunityInput :=
  { input with
    stays := rows ++ input.stays.filter fun s => !(s.proven && s.personKey = some p)
    planned := planned ++ input.planned.filter fun s => !decide (s.personKey = some p) }

section Open

variable {input : CommunityInput} {p : Nat} {rows planned : List CommunityStay} {key : RecordKey}

theorem arranged_reordered (hRows : (input.staysOf p).Perm rows) (hPlanned : (input.plannedOf p).Perm planned) :
    Reordered input (input.arranged p rows planned) where
  stays := (List.filter_append_perm _ _).symm.trans (hRows.append_right _)
  events := List.Perm.refl _
  planned := (List.filter_append_perm _ _).symm.trans (hPlanned.append_right _)
  range := rfl

/-- With the rows of one guest in another order every other guest records what he did. -/
theorem mentions_arranged (hPos : ∀ s ∈ input.stays, s.arrival < s.departure)
    (hEvents : ∀ person, ¬ Mentions input.eventPart key person) (hRows : (input.staysOf p).Perm rows)
    (hPlanned : (input.plannedOf p).Perm planned) (person : Option Nat) :
    Mentions (input.arranged p rows planned).wholeAdditions key person ↔
      ∃ q, person = some q ∧ if q = p then StayRecord input.range planned rows key else
        StayRecord input.range (input.plannedOf q) (input.staysOf q) key := by
  have hOrder := arranged_reordered hRows hPlanned
  rw [mentions_wholeAdditions fun s hs => hPos s (hOrder.stays.mem_iff.mpr hs),
    or_iff_left fun h => hEvents person (mentions_eventPart_reordered hOrder.symm h)]
  refine exists_congr fun q => and_congr_right fun _ => ?_
  by_cases hSame : q = p
  · subst hSame
    rw [if_pos rfl, CommunityInput.staysOf, CommunityInput.plannedOf]
    simp only [CommunityInput.arranged]
    rw [filter_arranged hRows, filter_arranged hPlanned]
  · rw [if_neg hSame, CommunityInput.staysOf, CommunityInput.plannedOf]
    simp only [CommunityInput.arranged]
    have hApart : ∀ s : CommunityStay, s.personKey = some p → decide (s.personKey = some q) = false := fun s hs =>
      decide_eq_false fun h => hSame (Option.some.inj (h.symm.trans hs))
    rw [filter_arranged_other hRows, filter_arranged_other hPlanned]
    · rfl
    · exact fun s hs => hApart s (of_decide_eq_true hs)
    · intro s hs
      rw [hApart s (of_decide_eq_true (Bool.and_eq_true_iff.mp hs).2), Bool.and_false]

/-- What a guest records in one order of his rows he records in any other, if the figures agree and no
event is recorded alike. -/
theorem stayRecord_arranged (hPos : ∀ s ∈ input.stays, s.arrival < s.departure)
    (hAgree : ∀ b, Reordered input b → ((recordsOf input.wholeAdditions).map CommunityRecord.figure).Perm
      ((recordsOf b.wholeAdditions).map CommunityRecord.figure)) {rows' planned' : List CommunityStay}
    (hRows : (input.staysOf p).Perm rows) (hPlanned : (input.plannedOf p).Perm planned)
    (hRows' : (input.staysOf p).Perm rows') (hPlanned' : (input.plannedOf p).Perm planned')
    (hEvents : ∀ person, ¬ Mentions input.eventPart key person) (hRecord : StayRecord input.range planned rows key) :
    StayRecord input.range planned' rows' key := by
  have hFigures := (hAgree _ (arranged_reordered hRows hPlanned)).symm.trans (hAgree _ (arranged_reordered hRows' hPlanned'))
  have hFirst := mentions_arranged hPos hEvents hRows hPlanned
  have hSecond := mentions_arranged hPos hEvents hRows' hPlanned'
  have hMentions : Mentions (input.arranged p rows' planned').wholeAdditions key (some p) := by
    refine mentions_of_figures hFigures (fun h => ?_) (fun q hOther h => ?_) ((hFirst _).mpr ⟨p, rfl, ?_⟩)
    · obtain ⟨_, hNone, _⟩ := (hFirst _).mp h
      cases hNone
    · obtain ⟨_, hEq, hRecordOther⟩ := (hSecond _).mp h
      obtain rfl := Option.some.inj hEq
      rw [if_neg hOther] at hRecordOther
      exact (hFirst _).mpr ⟨q, rfl, by rwa [if_neg hOther]⟩
    · rwa [if_pos rfl]
  obtain ⟨_, hEq, hRecordOther⟩ := (hSecond _).mp hMentions
  obtain rfl := Option.some.inj hEq
  rwa [if_pos rfl] at hRecordOther

/-! ### The order that a record names -/

section Named

variable {range : CommunityRange} {s t : CommunityStay}

theorem stayRecord_begun (hPos : ∀ s ∈ rows, s.arrival < s.departure) (hBegins : Begins rows s) (hFirst : IsFirst rows s)
    (hCovers : range.covers s.arrival = true) : ∃ key, StayRecord range planned rows key ∧ (key.1 = .new ∨ key.1 = .return_) ∧
      key.2.1 = s.orderId ∧ key.2.2.1 = s.arrival := by
  obtain ⟨c, hc, hHead⟩ := (begins_iff hPos).mpr ⟨hBegins, hFirst⟩
  obtain ⟨i, hi⟩ := List.mem_iff_getElem?.mp hc
  refine ⟨_, .begun hi hHead hCovers, ?_, rfl, rfl⟩
  dsimp only
  split
  · exact .inr rfl
  · exact .inl rfl

theorem begun_of_stayRecord (hPos : ∀ s ∈ rows, s.arrival < s.departure) (h : StayRecord range planned rows key)
    (hKind : key.1 = .new ∨ key.1 = .return_) :
    ∃ s, Begins rows s ∧ IsFirst rows s ∧ key.2.1 = s.orderId ∧ key.2.2.1 = s.arrival := by
  cases h with
  | begun hResidence hHead _ =>
    obtain ⟨hBegins, hFirst⟩ := (begins_iff hPos).mp ⟨_, List.mem_of_getElem? hResidence, hHead⟩
    exact ⟨_, hBegins, hFirst, rfl, rfl⟩
  | renewed => simp at hKind
  | due => simp at hKind

theorem renewed_of_stayRecord (h : StayRecord range planned rows key) (hKind : key.1 = .renewal) :
    ∃ s t, Renews rows s t ∧ IsLast rows s ∧ IsFirst rows t ∧ s.orderId ≠ t.orderId ∧ key.2.1 = t.orderId ∧
      key.2.2.1 = t.arrival := by
  cases h with
  | begun =>
    dsimp only at hKind
    split at hKind <;> cases hKind
  | renewed hRenews hLast hFirst hOther _ => exact ⟨_, _, hRenews, hLast, hFirst, hOther, rfl, rfl⟩
  | due => cases hKind

theorem Leaves.order {until_ end_ : Nat} (hPos : ∀ s ∈ rows, s.arrival < s.departure)
    (hLeaves : Leaves range rows planned until_ end_ s) (hFirst : IsFirst (if end_ = until_ then rows else planned) s)
    {c : List CommunityStay} (hc : c ∈ residences rows) (hLive : isLive range c = true) :
    confirmedEnd planned (c.map CommunityStay.visit) = (end_, s.orderId) := by
  obtain ⟨end', t, hSpec, hFree, hEnds, hFirst'⟩ := confirmedEnd_spec hPos hc planned
  obtain rfl : until_ = untilOf c := hLeaves.stays.unique (freeFrom_of_live hPos hc hLive)
  obtain rfl : end_ = end' := hLeaves.goesOn.unique hFree
  rw [hSpec, hFirst.unique hFirst' (hLeaves.ends.sameDates hEnds)]

theorem stayRecord_due {until_ end_ : Nat} (hPos : ∀ s ∈ rows, s.arrival < s.departure)
    (hLeaves : Leaves range rows planned until_ end_ s) (hFirst : IsFirst (if end_ = until_ then rows else planned) s) :
    ∃ key, StayRecord range planned rows key ∧ key.1 = .due ∧ key.2.1 = s.orderId := by
  obtain ⟨t, ht, hHere⟩ := hLeaves.here
  obtain ⟨c, hc, hLive⟩ := exists_live ht hHere
  exact ⟨_, .due hc hLive (hLeaves.order hPos hFirst hc hLive) (hLeaves.stays.le.trans hLeaves.goesOn.le) hLeaves.soon,
    rfl, rfl⟩

theorem due_of_stayRecord {until_ end_ : Nat} (hPos : ∀ s ∈ rows, s.arrival < s.departure)
    (hLeaves : Leaves range rows planned until_ end_ s) (hFirst : IsFirst (if end_ = until_ then rows else planned) s)
    (h : StayRecord range planned rows key) (hKind : key.1 = .due) : key.2.1 = s.orderId := by
  cases h with
  | begun =>
    dsimp only at hKind
    split at hKind <;> cases hKind
  | renewed => cases hKind
  | due hResidence hLive hEnds _ _ =>
    exact (Prod.mk.inj (hEnds.symm.trans (hLeaves.order hPos hFirst hResidence hLive))).2

end Named

/-! ### Figures that agree -/

theorem no_event_of_kind (hRenewal : key.1 ≠ .renewal) (hEarly : key.1 ≠ .early) (person : Option Nat) :
    ¬ Mentions input.eventPart key person := by
  intro hMentions
  obtain ⟨event, -, rfl⟩ := key_of_eventPart hMentions
  dsimp only at hRenewal hEarly
  split at hRenewal
  · exact hRenewal rfl
  · exact hEarly (if_neg ‹_›)

theorem positive_of_perm (hPos : ∀ s ∈ input.stays, s.arrival < s.departure) (hRows : (input.staysOf p).Perm rows) :
    ∀ s ∈ rows, s.arrival < s.departure :=
  fun s hs => hPos s (mem_staysOf.mp (hRows.mem_iff.mpr hs)).1

theorem Leaves.exists_order {range : CommunityRange} {until_ end_ : Nat} {s : CommunityStay}
    (h : Leaves range rows planned until_ end_ s) : ∃ rows' planned', rows.Perm rows' ∧ planned.Perm planned' ∧
      IsFirst (if end_ = until_ then rows' else planned') s := by
  obtain ⟨order, hOrder, hFirst⟩ := exists_first_order h.ends.mem
  by_cases hSame : end_ = until_
  · rw [if_pos hSame] at hOrder
    exact ⟨order, planned, hOrder, List.Perm.refl _, by rwa [if_pos hSame]⟩
  · rw [if_neg hSame] at hOrder
    exact ⟨rows, order, List.Perm.refl _, hOrder, by rwa [if_neg hSame]⟩

section Agreed

variable {s t s' t' : CommunityStay} {until_ end_ : Nat} (hPos : ∀ s ∈ input.stays, s.arrival < s.departure)
  (hAgree : ∀ b, Reordered input b → ((recordsOf input.wholeAdditions).map CommunityRecord.figure).Perm
    ((recordsOf b.wholeAdditions).map CommunityRecord.figure))
include hPos hAgree

theorem begins_of_agree (hs : Begins (input.staysOf p) s) (ht : Begins (input.staysOf p) t)
    (hArrival : s.arrival = t.arrival) (hCovers : input.range.covers s.arrival = true) : s.orderId = t.orderId := by
  obtain ⟨rows, hRows, hFirst⟩ := exists_first_order hs.mem
  obtain ⟨rows', hRows', hFirst'⟩ := exists_first_order ht.mem
  obtain ⟨key, hRecord, hKind, hOrder, hDate⟩ :=
    stayRecord_begun (positive_of_perm hPos hRows) (hs.perm hRows) hFirst hCovers
  have hNone : ∀ person, ¬ Mentions input.eventPart key person :=
    no_event_of_kind (fun h => by simp [h] at hKind) fun h => by simp [h] at hKind
  have hRecord' := stayRecord_arranged hPos hAgree hRows (List.Perm.refl _) hRows' (List.Perm.refl _) hNone hRecord
  obtain ⟨u, hu, hFirstU, hOrderU, hDateU⟩ := begun_of_stayRecord (positive_of_perm hPos hRows') hRecord' hKind
  have hSame : t = u := hFirst'.unique hFirstU
    ((ht.perm hRows').departure_eq hu (hArrival.symm.trans (hDate.symm.trans hDateU)))
  rw [← hOrder, hOrderU, hSame]

theorem renewals_of_agree (h : Renews (input.staysOf p) s t) (h' : Renews (input.staysOf p) s' t')
    (hArrival : t.arrival = t'.arrival) (hCovers : input.range.covers t.arrival = true) (hOther : s.orderId ≠ t.orderId)
    (hEvents : ∀ event ∈ input.events, ¬ event.RenewalOf t) : t'.orderId = t.orderId ∧ s'.orderId ≠ t'.orderId := by
  obtain ⟨rows, hRows, hLast, hFirst⟩ := exists_last_first_order h.mem h.mem_next h.before.ne
  obtain ⟨rows', hRows', hLast', hFirst'⟩ := exists_last_first_order h'.mem h'.mem_next h'.before.ne
  have hRecord : StayRecord input.range (input.plannedOf p) rows (.renewal, t.orderId, t.arrival, 0) :=
    .renewed (h.perm hRows) hLast hFirst hOther hCovers
  have hNone : ∀ person, ¬ Mentions input.eventPart (.renewal, t.orderId, t.arrival, 0) person := by
    intro person hMentions
    obtain ⟨event, hEvent, hKey⟩ := key_of_eventPart hMentions
    obtain ⟨hKind, hOrder, hDate, hNights⟩ := by simpa only [Prod.mk.injEq] using hKey
    refine hEvents event hEvent ⟨?_, hOrder.symm, hDate.symm, hNights.symm⟩
    by_contra hEarly
    rw [if_neg hEarly] at hKind
    cases hKind
  have hRecord' := stayRecord_arranged hPos hAgree hRows (List.Perm.refl _) hRows' (List.Perm.refl _) hNone hRecord
  obtain ⟨u, v, huv, hLastU, hFirstV, hOtherUV, hOrder, hDate⟩ := renewed_of_stayRecord hRecord' rfl
  obtain ⟨hSameU, hSameV⟩ := (h'.perm hRows').sameDates_next huv (hArrival.symm.trans hDate)
  rw [hLast'.unique hLastU hSameU, hFirst'.unique hFirstV hSameV]
  exact ⟨hOrder.symm, hOtherUV⟩

theorem ends_of_agree (hs : Leaves input.range (input.staysOf p) (input.plannedOf p) until_ end_ s)
    (ht : Leaves input.range (input.staysOf p) (input.plannedOf p) until_ end_ t) : s.orderId = t.orderId := by
  obtain ⟨rows, planned, hRows, hPlanned, hFirst⟩ := hs.exists_order
  obtain ⟨rows', planned', hRows', hPlanned', hFirst'⟩ := ht.exists_order
  obtain ⟨key, hRecord, hKind, hOrder⟩ :=
    stayRecord_due (positive_of_perm hPos hRows) (hs.perm hRows hPlanned) hFirst
  have hNone : ∀ person, ¬ Mentions input.eventPart key person :=
    no_event_of_kind (by rw [hKind]; decide) (by rw [hKind]; decide)
  have hRecord' := stayRecord_arranged hPos hAgree hRows hPlanned hRows' hPlanned' hNone hRecord
  rw [← hOrder, due_of_stayRecord (positive_of_perm hPos hRows') (ht.perm hRows' hPlanned') hFirst' hRecord' hKind]

theorem recordsSettled_of_agree : RecordsSettled input where
  begins _ _ _ := begins_of_agree hPos hAgree
  renewals _ _ _ _ _ := renewals_of_agree hPos hAgree
  ends _ _ _ _ _ := ends_of_agree hPos hAgree

end Agreed

end Open

end GreenPms
