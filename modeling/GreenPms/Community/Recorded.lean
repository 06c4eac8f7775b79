import Mathlib.Data.List.Perm.Subperm
import GreenPms.Community.Reordering
import GreenPms.Community.Ties

/-! # What the rows of a guest record

The begin of a residence is recorded for the order of its first stay, a renewal for the order that
goes on, and the end for the order of a stay up to it.
-/

namespace GreenPms

open Intervals Indexes

/-! ## Mentions -/

section Mentions

variable {as bs : List Addition} {key : RecordKey} {person : Option Nat}

theorem mentions_append : Mentions (as ++ bs) key person ↔ Mentions as key person ∨ Mentions bs key person := by
  simp only [Mentions, drafts, List.filterMap_append, List.mem_append, or_and_right, exists_or]

theorem mentions_flatMap {ι : Type*} {xs : List ι} {f : ι → List Addition} :
    Mentions (xs.flatMap f) key person ↔ ∃ x ∈ xs, Mentions (f x) key person := by
  simp only [Mentions, drafts, List.filterMap_flatMap, List.mem_flatMap]
  constructor
  · rintro ⟨d, ⟨x, hx, hd⟩, h⟩
    exact ⟨x, hx, d, hd, h⟩
  · rintro ⟨x, hx, d, hd, h⟩
    exact ⟨d, ⟨x, hx, hd⟩, h⟩

theorem not_mentions_nil : ¬ Mentions [] key person := by
  rintro ⟨_, h, _⟩
  cases h

theorem mentions_record {draft : RecordDraft} {people : List (Option Nat)} :
    Mentions [.record draft people] key person ↔ draft.key = key ∧ person ∈ people := by
  simp [Mentions, drafts, Addition.recordPart]

theorem mentions_recordIf {p : Prop} [Decidable p] {draft : RecordDraft} {people : List (Option Nat)} :
    Mentions (if p then [.record draft people] else []) key person ↔ p ∧ draft.key = key ∧ person ∈ people := by
  split
  case isTrue h => rw [mentions_record, and_iff_right h]
  case isFalse h => exact iff_of_false not_mentions_nil fun hAll => h hAll.1

theorem drafts_durations (range : CommunityRange) (start until_ : Nat) (live : Bool) :
    drafts (wholeDurations range start until_ live) = [] := by
  simp only [drafts, wholeDurations, List.filterMap_append]
  cases live
  all_goals
    simp only [Bool.false_eq_true, if_true, if_false]
    split <;> rfl

theorem not_mentions_durations (range : CommunityRange) (start until_ : Nat) (live : Bool) :
    ¬ Mentions (wholeDurations range start until_ live) key person := by
  rintro ⟨d, hd, -⟩
  rw [drafts_durations] at hd
  cases hd

theorem mentions_renewals {range : CommunityRange} {p : Nat} {chain rest : List Visit} :
    Mentions (renewals range p chain rest) key person ↔ ∃ mid visit post previous, rest = mid ++ visit :: post ∧
      (chain ++ mid).getLast? = some previous ∧ (previous.orderId ≠ visit.orderId ∧
        visit.arrival = reach Visit.departure (chain ++ mid) ∧ range.covers visit.arrival = true) ∧
          (RecordKind.renewal, visit.orderId, visit.arrival, 0) = key ∧ person = some p := by
  induction rest generalizing chain with
  | nil =>
    refine iff_of_false not_mentions_nil ?_
    rintro ⟨mid, visit, post, _, hSplit, -⟩
    simp at hSplit
  | cons visit rest ih =>
    rw [renewals, mentions_append, ih]
    refine (or_congr_left (b := ∃ previous, chain.getLast? = some previous ∧ (previous.orderId ≠ visit.orderId ∧
        visit.arrival = reach Visit.departure chain ∧ range.covers visit.arrival = true) ∧
          (RecordKind.renewal, visit.orderId, visit.arrival, 0) = key ∧ person = some p) ?_).trans ?_
    · cases chain.getLast? with
      | none => simp [not_mentions_nil]
      | some previous => simp [mentions_recordIf, RecordDraft.key]
    constructor
    · rintro (⟨previous, hLast, h⟩ | ⟨mid, v, post, previous, rfl, hLast, h⟩)
      · exact ⟨[], visit, rest, previous, rfl, by rwa [List.append_nil], by rwa [List.append_nil]⟩
      · exact ⟨visit :: mid, v, post, previous, rfl, by simpa using hLast, by simpa using h⟩
    · rintro ⟨mid, v, post, previous, hSplit, hLast, h⟩
      cases mid with
      | nil =>
        obtain ⟨rfl, rfl⟩ := List.cons.inj hSplit
        rw [List.append_nil] at hLast h
        exact .inl ⟨previous, hLast, h⟩
      | cons w mid =>
        obtain ⟨rfl, rfl⟩ := List.cons.inj hSplit
        exact .inr ⟨mid, v, post, previous, rfl, by simpa using hLast, by simpa using h⟩

end Mentions

/-! ## A guest -/

inductive StayRecord (range : CommunityRange) (planned rows : List CommunityStay) : RecordKey → Prop where
  | begun {c : List CommunityStay} {i : Nat} {s : CommunityStay} (residence : (residences rows)[i]? = some c)
      (head : c.head? = some s) (covered : range.covers s.arrival = true) : StayRecord range planned rows
        (if i ≠ 0 then .return_ else .new, s.orderId, s.arrival,
          observedEnd range (isLive range c) (untilOf c) - s.arrival)
  | renewed {s t : CommunityStay} (renews : Renews rows s t) (last : IsLast rows s) (first : IsFirst rows t)
      (other : s.orderId ≠ t.orderId) (covered : range.covers t.arrival = true) :
        StayRecord range planned rows (.renewal, t.orderId, t.arrival, 0)
  | due {c : List CommunityStay} {end_ orderId : Nat} (residence : c ∈ residences rows) (live : isLive range c = true)
      (ends : confirmedEnd planned (c.map CommunityStay.visit) = (end_, orderId)) (comes : range.today ≤ end_)
      (soon : end_ < range.today + 7) : StayRecord range planned rows
        (.due, orderId, end_, observedEnd range true (untilOf c) - startOf c)

section Residence

variable {range : CommunityRange} {planned rows : List CommunityStay} {key : RecordKey} {person : Option Nat} {p : Nat}

theorem mentions_residenceAdditions {previous : Bool} {chain : List Visit} {live : Bool} :
    Mentions (residenceAdditions range (wholeDurations range) planned (some p) previous chain live) key person ↔
      Mentions (renewals range p [] chain) key person ∨ (person = some p ∧
        ((range.covers (first Visit.arrival chain) = true ∧ (if previous then RecordKind.return_ else .new,
            (chain.head?.map Visit.orderId).getD 0, first Visit.arrival chain,
              observedEnd range live (reach Visit.departure chain) - first Visit.arrival chain) = key) ∨
          ((live = true ∧ range.today ≤ (confirmedEnd planned chain).1 ∧ (confirmedEnd planned chain).1 < range.today + 7) ∧
            (RecordKind.due, (confirmedEnd planned chain).2, (confirmedEnd planned chain).1,
              observedEnd range live (reach Visit.departure chain) - first Visit.arrival chain) = key))) := by
  have hSingle : ∀ person : Option Nat, person ∈ [some p] ↔ person = some p := fun _ => List.mem_singleton
  rw [residenceAdditions, mentions_append, mentions_append, or_iff_left (not_mentions_durations _ _ _ _)]
  simp only [residenceRecords, mentions_append, mentions_recordIf, RecordDraft.key, hSingle]
  refine or_congr_right ?_
  constructor
  · rintro (⟨hCovers, hKey, hPerson⟩ | ⟨hDue, hKey, hPerson⟩)
    · exact ⟨hPerson, .inl ⟨hCovers, hKey⟩⟩
    · exact ⟨hPerson, .inr ⟨hDue, hKey⟩⟩
  · rintro ⟨hPerson, ⟨hCovers, hKey⟩ | ⟨hDue, hKey⟩⟩
    · exact .inl ⟨hCovers, hKey, hPerson⟩
    · exact .inr ⟨hDue, hKey, hPerson⟩

theorem mentions_residences (hPos : ∀ s ∈ rows, s.arrival < s.departure) :
    (∃ indexed ∈ (residences rows).zipIdx, Mentions (residenceAdditions range (wholeDurations range) planned (some p)
      (indexed.2 ≠ 0) (indexed.1.map CommunityStay.visit) (isLive range indexed.1)) key person) ↔
        person = some p ∧ StayRecord range planned rows key := by
  constructor
  · rintro ⟨⟨c, i⟩, hIndexed, hMentions⟩
    have hc : c ∈ residences rows := List.fst_mem_of_mem_zipIdx hIndexed
    obtain ⟨head, rest, rfl⟩ := List.exists_cons_of_ne_nil (residence_isChain hPos hc).nonempty
    obtain hRenewal | ⟨hPerson, ⟨hCovers, rfl⟩ | ⟨⟨hLive, hComes, hSoon⟩, rfl⟩⟩ := mentions_residenceAdditions.mp hMentions
    · obtain ⟨mid, visit, post, previous, hSplit, hLast, ⟨hOther, hTouches, hCovers⟩, rfl, hPerson⟩ :=
        mentions_renewals.mp hRenewal
      obtain ⟨front, back, hRows, rfl, hBack⟩ := List.map_eq_append_iff.mp hSplit
      obtain ⟨t, after, rfl, rfl, rfl⟩ := List.map_eq_cons_iff.mp hBack
      rw [List.nil_append, List.getLast?_map, Option.map_eq_some_iff] at hLast
      obtain ⟨s, hLast, rfl⟩ := hLast
      rw [List.nil_append, reach_map] at hTouches
      obtain ⟨hRenews, hIsLast, hIsFirst⟩ := (renews_iff hPos).mp ⟨front, after, hRows ▸ hc, hLast, hTouches⟩
      exact ⟨hPerson, .renewed hRenews hIsLast hIsFirst hOther hCovers⟩
    · have hBegun : StayRecord range planned rows _ := .begun (List.mk_mem_zipIdx_iff_getElem?.mp hIndexed) rfl hCovers
      rw [reach_map]
      simpa only [decide_eq_true_eq] using ⟨hPerson, hBegun⟩
    · rw [hLive, first_map, reach_map]
      exact ⟨hPerson, .due hc hLive rfl hComes hSoon⟩
  · rintro ⟨hPerson, hRecord⟩
    cases hRecord with
    | begun hResidence hHead hCovers =>
      refine ⟨_, List.mk_mem_zipIdx_iff_getElem?.mpr hResidence,
        mentions_residenceAdditions.mpr (.inr ⟨hPerson, .inl ?_⟩)⟩
      obtain ⟨rest, rfl⟩ := List.head?_eq_some_iff.mp hHead
      rw [first_map, reach_map]
      refine ⟨hCovers, ?_⟩
      simp only [decide_eq_true_eq]
      rfl
    | @renewed s t hRenews hLast hFirst hOther hCovers =>
      obtain ⟨mid, rest, hc, hBefore, hTouches⟩ := (renews_iff hPos).mpr ⟨hRenews, hLast, hFirst⟩
      obtain ⟨i, hi⟩ := List.mem_iff_getElem?.mp hc
      refine ⟨_, List.mk_mem_zipIdx_iff_getElem?.mpr hi, mentions_residenceAdditions.mpr (.inl (mentions_renewals.mpr ?_))⟩
      refine ⟨mid.map CommunityStay.visit, t.visit, rest.map CommunityStay.visit, s.visit, List.map_append, ?_,
        ⟨hOther, ?_, hCovers⟩, rfl, hPerson⟩
      · rw [List.nil_append, List.getLast?_map, hBefore]
        rfl
      · rw [List.nil_append, reach_map]
        exact hTouches
    | due hc hLive hEnds hComes hSoon =>
      obtain ⟨i, hi⟩ := List.mem_iff_getElem?.mp hc
      refine ⟨_, List.mk_mem_zipIdx_iff_getElem?.mpr hi, mentions_residenceAdditions.mpr (.inr ⟨hPerson, .inr ?_⟩)⟩
      rw [hEnds, hLive, first_map, reach_map]
      exact ⟨⟨rfl, hComes, hSoon⟩, rfl⟩

end Residence

/-! ## All guests -/

namespace CommunityInput

variable (input : CommunityInput) (p : Nat)

def staysOf : List CommunityStay := input.stays.filter fun s => s.proven && s.personKey = some p

def plannedOf : List CommunityStay := input.planned.filter fun s => s.personKey = some p

def eventPart : List Addition := input.events.flatMap (eventAdditions input.range input.stays)

end CommunityInput

section Guests

variable {a b input : CommunityInput} {key : RecordKey} {person : Option Nat} {p : Nat}

theorem provenKey_identity {s : CommunityStay} :
    s.provenKey = some (.identity p) ↔ s.proven = true ∧ s.personKey = some p := by
  constructor
  · exact personKey_of_provenKey
  · rintro ⟨hProven, hPerson⟩
    rw [CommunityStay.provenKey, if_pos hProven, CommunityStay.residenceKey, hPerson]

theorem staysOf_eq : input.staysOf p = input.stays.filter fun s => s.provenKey = some (.identity p) := by
  refine List.filter_congr fun s _ => ?_
  rw [Bool.eq_iff_iff, Bool.and_eq_true, decide_eq_true_eq, decide_eq_true_eq, provenKey_identity]

theorem mem_staysOf {s : CommunityStay} : s ∈ input.staysOf p ↔ s ∈ input.stays ∧ s.proven = true ∧ s.personKey = some p := by
  rw [CommunityInput.staysOf, List.mem_filter, Bool.and_eq_true, decide_eq_true_eq]

theorem StayRecord.nonempty {range : CommunityRange} {planned rows : List CommunityStay} (h : StayRecord range planned rows key) :
    rows ≠ [] := by
  rintro rfl
  cases h with
  | begun hResidence => cases hResidence
  | renewed hRenews => cases hRenews.mem
  | due hResidence => cases hResidence

theorem head_personKey {rows : List CommunityStay} {k : Option Nat} (hFull : rows ≠ [])
    (hKey : ∀ s ∈ rows, s.personKey = k) : rows.head?.bind CommunityStay.personKey = k := by
  obtain ⟨s, rest, rfl⟩ := List.exists_cons_of_ne_nil hFull
  exact hKey s List.mem_cons_self

theorem mentions_personAdditions {rows : List CommunityStay} (hPos : ∀ s ∈ rows, s.arrival < s.departure)
    (hFull : rows ≠ []) (hKey : ∀ s ∈ rows, s.personKey = some p) :
    Mentions (personAdditions input.range (wholeDurations input.range) input.planned rows) key person ↔
      person = some p ∧ StayRecord input.range (input.plannedOf p) rows key := by
  rw [← mentions_residences hPos, personAdditions, mentions_flatMap, head_personKey hFull hKey]
  simp only [Option.isSome_some, Bool.true_and]
  rfl

theorem mentions_residencePart (hPos : ∀ s ∈ input.stays, s.arrival < s.departure) :
    Mentions (residencePart input) key person ↔
      ∃ p, person = some p ∧ StayRecord input.range (input.plannedOf p) (input.staysOf p) key := by
  have hPosGroup : ∀ k, ∀ s ∈ input.stays.filter (fun s => s.provenKey = some k), s.arrival < s.departure :=
    fun k s hs => hPos s (List.mem_filter.mp hs).1
  rw [residencePart, mentions_flatMap]
  constructor
  · rintro ⟨group, hGroup, hMentions⟩
    obtain ⟨⟨s, hs, hKey⟩, hRows⟩ := mem_groups.mp hGroup
    rw [hRows] at hMentions
    generalize group.1 = k at hKey hMentions
    have hFull : input.stays.filter (fun s => s.provenKey = some k) ≠ [] :=
      List.ne_nil_of_mem (List.mem_filter.mpr ⟨hs, decide_eq_true hKey⟩)
    cases k with
    | identity p =>
      rw [mentions_personAdditions (hPosGroup _) hFull fun s hs =>
        (provenKey_identity.mp (of_decide_eq_true (List.mem_filter.mp hs).2)).2, ← staysOf_eq] at hMentions
      exact ⟨p, hMentions⟩
    | registration o r =>
      have hNone := head_personKey hFull fun s hs =>
        (personKey_of_provenKey (of_decide_eq_true (List.mem_filter.mp hs).2)).2.1
      rw [personAdditions, mentions_flatMap, hNone] at hMentions
      obtain ⟨_, _, hMentions⟩ := hMentions
      exact absurd hMentions (not_mentions_durations _ _ _ _)
  · rintro ⟨p, hRecord⟩
    obtain ⟨s, hs⟩ := List.exists_mem_of_ne_nil _ hRecord.2.nonempty
    have hKey := mem_staysOf.mp hs
    refine ⟨(.identity p, input.staysOf p), mem_groups.mpr ⟨⟨s, hKey.1, provenKey_identity.mpr hKey.2⟩, staysOf_eq⟩, ?_⟩
    exact (mentions_personAdditions (fun s hs => hPos s (mem_staysOf.mp hs).1) hRecord.2.nonempty
      fun s hs => (mem_staysOf.mp hs).2.2).mpr hRecord

theorem mentions_wholeAdditions (hPos : ∀ s ∈ input.stays, s.arrival < s.departure) :
    Mentions input.wholeAdditions key person ↔
      (∃ p, person = some p ∧ StayRecord input.range (input.plannedOf p) (input.staysOf p) key) ∨
        Mentions input.eventPart key person := by
  rw [wholeAdditions_eq, mentions_append, mentions_residencePart hPos]
  rfl

/-! ### Events -/

def CommunityEvent.RenewalOf (event : CommunityEvent) (s : CommunityStay) : Prop :=
  event.kind = .renewal ∧ event.orderId = s.orderId ∧ event.date = s.arrival ∧ event.nights = 0

theorem mentions_eventPart_reordered (h : Reordered a b) (hMentions : Mentions a.eventPart key person) :
    Mentions b.eventPart key person := by
  obtain ⟨event, hEvent, hMentions⟩ := mentions_flatMap.mp hMentions
  refine mentions_flatMap.mpr ⟨event, h.events.mem_iff.mp hEvent, ?_⟩
  rw [← h.range]
  obtain ⟨hNone, -⟩ | ⟨draft, us, vs, hPerm, hLeft, hRight⟩ := eventAdditions_perm a.range h.stays event
  · rw [hNone] at hMentions
    exact absurd hMentions not_mentions_nil
  · rw [hLeft, mentions_record] at hMentions
    rw [hRight, mentions_record]
    exact ⟨hMentions.1, hPerm.mem_iff.mp hMentions.2⟩

theorem key_of_eventPart (h : Mentions input.eventPart key person) : ∃ event ∈ input.events,
    key = (if event.kind = .renewal then .renewal else .early, event.orderId, event.date, event.nights) := by
  obtain ⟨event, hEvent, hMentions⟩ := mentions_flatMap.mp h
  refine ⟨event, hEvent, ?_⟩
  rw [eventAdditions] at hMentions
  split at hMentions
  case isTrue => exact absurd hMentions not_mentions_nil
  case isFalse =>
    cases hKind : event.kind with
    | renewal =>
      rw [hKind, mentions_record] at hMentions
      rw [if_pos rfl]
      exact hMentions.1.symm
    | early =>
      rw [hKind] at hMentions
      dsimp only at hMentions
      split at hMentions
      case isTrue => exact absurd hMentions not_mentions_nil
      case isFalse =>
        rw [mentions_record] at hMentions
        rw [if_neg (by decide)]
        exact hMentions.1.symm

theorem mentions_renewalOf {event : CommunityEvent} (hEvent : event ∈ input.events) {s : CommunityStay}
    (hs : s ∈ input.staysOf p) (hPos : s.arrival < s.departure) (h : event.RenewalOf s)
    (hCovers : input.range.covers s.arrival = true) :
    Mentions input.eventPart (.renewal, s.orderId, s.arrival, 0) (some p) := by
  obtain ⟨hKind, hOrder, hDate, hNights⟩ := h
  obtain ⟨hMem, hProven, hPerson⟩ := mem_staysOf.mp hs
  refine mentions_flatMap.mpr ⟨event, hEvent, ?_⟩
  have hHistorical : s.historical = true := by
    rw [CommunityStay.proven, Bool.and_eq_true, Bool.and_eq_true] at hProven
    exact hProven.1.1
  have hPeople : s ∈ input.stays.filter fun stay => stay.orderId = event.orderId && stay.historical &&
      stay.arrival ≤ event.date && event.date ≤ stay.departure := by
    simp [hMem, hHistorical, hOrder, hDate, hPos.le]
  rw [eventAdditions, if_neg (by rw [hDate, hCovers]; decide), hKind, mentions_record]
  refine ⟨by rw [RecordDraft.key, hOrder, hDate, hNights], ?_⟩
  rw [if_neg fun hEmpty => List.ne_nil_of_mem hPeople (List.isEmpty_iff.mp hEmpty)]
  exact List.mem_map.mpr ⟨s, hPeople, hPerson⟩

/-! ### Every record mentions someone -/

def Voiced (additions : List Addition) : Prop := ∀ d ∈ drafts additions, d.2 ≠ []

theorem Voiced.append {as bs : List Addition} (ha : Voiced as) (hb : Voiced bs) : Voiced (as ++ bs) := by
  rw [Voiced, drafts, List.filterMap_append]
  exact List.forall_mem_append.mpr ⟨ha, hb⟩

theorem Voiced.flatMap {ι : Type*} {xs : List ι} {f : ι → List Addition} (h : ∀ x ∈ xs, Voiced (f x)) :
    Voiced (xs.flatMap f) := by
  intro d hd
  rw [drafts, List.filterMap_flatMap] at hd
  obtain ⟨x, hx, hd⟩ := List.mem_flatMap.mp hd
  exact h x hx d hd

theorem voiced_nil : Voiced [] := fun _ h => absurd h List.not_mem_nil

theorem voiced_recordIf (p : Prop) [Decidable p] (draft : RecordDraft) {people : List (Option Nat)} (h : people ≠ []) :
    Voiced (if p then [.record draft people] else []) := by
  split
  case isTrue =>
    intro d hd
    rw [List.mem_singleton.mp hd]
    exact h
  case isFalse => exact voiced_nil

theorem voiced_renewals (range : CommunityRange) (p : Nat) (chain rest : List Visit) :
    Voiced (renewals range p chain rest) := by
  induction rest generalizing chain with
  | nil => exact voiced_nil
  | cons visit rest ih =>
    refine Voiced.append ?_ (ih _)
    cases chain.getLast? with
    | none => exact voiced_nil
    | some previous => exact voiced_recordIf _ _ (List.cons_ne_nil _ _)

theorem voiced_personAdditions (range : CommunityRange) (planned rows : List CommunityStay) :
    Voiced (personAdditions range (wholeDurations range) planned rows) := by
  refine Voiced.flatMap fun indexed _ => ?_
  have hDurations : ∀ start until_ live, Voiced (wholeDurations range start until_ live) := fun start until_ live d hd => by
    rw [drafts_durations] at hd
    cases hd
  dsimp only [residenceAdditions]
  cases rows.head?.bind CommunityStay.personKey with
  | none => exact hDurations _ _ _
  | some p =>
    exact ((voiced_renewals _ _ _ _).append (hDurations _ _ _)).append
      ((voiced_recordIf _ _ (List.cons_ne_nil _ _)).append (voiced_recordIf _ _ (List.cons_ne_nil _ _)))

theorem voiced_eventAdditions (range : CommunityRange) (stays : List CommunityStay) (event : CommunityEvent) :
    Voiced (eventAdditions range stays event) := by
  have hPeople : ∀ xs : List CommunityStay, (if xs.isEmpty then [none] else xs.map CommunityStay.personKey) ≠ [] := by
    intro xs
    cases xs with
    | nil => exact List.cons_ne_nil _ _
    | cons s xs => exact List.cons_ne_nil _ _
  have hOne : ∀ (draft : RecordDraft) {people : List (Option Nat)}, people ≠ [] → Voiced [.record draft people] :=
    fun draft _ h => by simpa using voiced_recordIf True draft h
  rw [eventAdditions]
  split
  · exact voiced_nil
  · dsimp only
    split
    · exact hOne _ (hPeople _)
    · split
      · exact voiced_nil
      · exact hOne _ (hPeople _)

theorem voiced_wholeAdditions (input : CommunityInput) : Voiced input.wholeAdditions := by
  rw [wholeAdditions_eq]
  exact (Voiced.flatMap fun group _ => voiced_personAdditions _ _ _).append
    (Voiced.flatMap fun event _ => voiced_eventAdditions _ _ _)

theorem figures_of_mentions {as bs : List Addition} (ha : Voiced as) (hb : Voiced bs)
    (h : ∀ key person, Mentions as key person ↔ Mentions bs key person) :
    ((recordsOf as).map CommunityRecord.figure).Perm ((recordsOf bs).map CommunityRecord.figure) := by
  have hKeys : ∀ {as : List Addition}, Voiced as → ∀ key, key ∈ (drafts as).map (fun d => d.1.key) ↔
      ∃ person, Mentions as key person := by
    intro as hVoiced key
    rw [List.mem_map]
    constructor
    · rintro ⟨d, hd, hKey⟩
      obtain ⟨person, hPerson⟩ := List.exists_mem_of_ne_nil _ (hVoiced d hd)
      exact ⟨person, d, hd, hKey, hPerson⟩
    · rintro ⟨_, d, hd, hKey, -⟩
      exact ⟨d, hd, hKey⟩
  refine figures_congr (fun key => ?_) h
  rw [hKeys ha, hKeys hb]
  exact exists_congr (h key)

def mentioned (additions : List Addition) (key : RecordKey) : List Nat :=
  ((drafts additions).filter fun d => d.1.key = key).flatMap fun d => d.2.filterMap id

theorem peopleFigure_known {as : List Addition} (h : ¬ Mentions as key none) :
    peopleFigure as key = some (mentioned as key).eraseDups.length := if_neg (mt any_mentions.mp h)

theorem peopleFigure_unknown {as : List Addition} (h : Mentions as key none) : peopleFigure as key = none :=
  if_pos (any_mentions.mpr h)

/-- A guest that one list of additions mentions is mentioned by another with the same figures, if they
agree in all others. -/
theorem mentions_of_figures {as bs : List Addition} {key : RecordKey} {p : Nat}
    (hFigures : ((recordsOf as).map CommunityRecord.figure).Perm ((recordsOf bs).map CommunityRecord.figure))
    (hKnown : ¬ Mentions as key none) (hOthers : ∀ q, q ≠ p → Mentions bs key (some q) → Mentions as key (some q))
    (h : Mentions as key (some p)) : Mentions bs key (some p) := by
  have hFigure : (key, peopleFigure as key) ∈ ((drafts bs).map fun d => d.1.key).eraseDups.map fun k =>
      (k, peopleFigure bs k) := by
    refine ((figures_recordsOf as).symm.trans (hFigures.trans (figures_recordsOf bs))).mem_iff.mp ?_
    obtain ⟨d, hd, hKey, -⟩ := h
    exact List.mem_map.mpr ⟨key, List.mem_eraseDups.mpr (List.mem_map.mpr ⟨d, hd, hKey⟩), rfl⟩
  obtain ⟨k, -, hEq⟩ := List.mem_map.mp hFigure
  obtain ⟨rfl, hPeople⟩ := Prod.mk.inj hEq
  by_contra hMissing
  have hKnownToo : ¬ Mentions bs k none := fun hUnknown => by
    rw [peopleFigure_unknown hUnknown, peopleFigure_known hKnown] at hPeople
    cases hPeople
  rw [peopleFigure_known hKnown, peopleFigure_known hKnownToo, Option.some_inj] at hPeople
  -- The guests of the second list are guests of the first, and the guest is one more.
  have hNodup : (p :: (mentioned bs k).eraseDups).Nodup :=
    List.nodup_cons.mpr ⟨fun hMem => hMissing (mem_mentions.mp (List.mem_eraseDups.mp hMem)), nodup_eraseDups _⟩
  have hSub : p :: (mentioned bs k).eraseDups ⊆ (mentioned as k).eraseDups := by
    refine List.cons_subset.mpr ⟨List.mem_eraseDups.mpr (mem_mentions.mpr h), fun q hq => ?_⟩
    have hMentioned : Mentions bs k (some q) := mem_mentions.mp (List.mem_eraseDups.mp hq)
    refine List.mem_eraseDups.mpr (mem_mentions.mpr (hOthers q (fun hSame => hMissing (hSame ▸ hMentioned)) hMentioned))
  have hLength := (List.subperm_of_subset hNodup hSub).length_le
  rw [List.length_cons] at hLength
  omega

end Guests

end GreenPms
