import Mathlib.Data.Multiset.Basic
import GreenPms.Community.Continuity

/-! # Community metrics of rows in another order

The rows come from a query without an order. A set of rows decides the figures of the days and the
durations. The order of a record is that of the first or of the last stay of a residence, so that it
depends on the order of the rows where two stays of a guest have the same dates.
-/

namespace GreenPms

open Intervals Keyed Indexes

section Days

variable {xs ys : List CommunityStay}

theorem categories_perm {us vs : List CommunityStay} (h : us.Perm vs) :
    (us.map CommunityStay.categoryKey).eraseDups.Perm (vs.map CommunityStay.categoryKey).eraseDups :=
  perm_eraseDups fun _ => (h.map _).mem_iff

/-- What is counted of the categories of the groups does not depend on the order of the rows. -/
theorem countP_categoriesBy_perm {κ : Type*} [DecidableEq κ] (key : CommunityStay → Option κ) (h : xs.Perm ys)
    {p : List String → Bool} (hp : ∀ us vs : List String, us.Perm vs → p us = p vs) :
    (categoriesBy key xs).countP p = (categoriesBy key ys).countP p := by
  have hRead : ∀ stays, (categoriesBy key stays).countP p = ((groups key stays).map fun group =>
      p (group.2.map CommunityStay.categoryKey).eraseDups).countP id := by
    intro stays
    rw [categoriesBy, List.countP_map, List.countP_map]
    rfl
  rw [hRead, hRead]
  refine List.Perm.countP_eq _ (groups_map_perm h fun k => ?_)
  exact hp _ _ (categories_perm (h.filter _))

theorem countCategory_perm {κ : Type*} [DecidableEq κ] (key : CommunityStay → Option κ) (h : xs.Perm ys)
    (chosen : String → Bool) : countCategory chosen (categoriesBy key xs) = countCategory chosen (categoriesBy key ys) :=
  countP_categoriesBy_perm key h fun us vs hPerm => by rw [single_perm hPerm]

theorem length_categoriesBy_perm {κ : Type*} [DecidableEq κ] (key : CommunityStay → Option κ) (h : xs.Perm ys) :
    (categoriesBy key xs).length = (categoriesBy key ys).length := by
  have hAll := countP_categoriesBy_perm key h (p := fun _ => true) fun _ _ _ => rfl
  simpa using hAll

def unlinkedRegistration (s : CommunityStay) : Option UnlinkedKey := s.registrationKey.map (.registration s.orderId)

/-- The stays without a link are counted by their registrations, and one by one without them. -/
theorem unlinked_length (rows : List CommunityStay) (k : Nat) :
    ((rows.zipIdx k).map fun (s, i) => unlinkedKey s i).eraseDups.length =
      (rows.filterMap unlinkedRegistration).eraseDups.length + rows.countP fun s => s.registrationKey.isNone := by
  induction rows generalizing k with
  | nil => rfl
  | cons s rows ih =>
    rw [List.zipIdx_cons, List.map_cons, length_eraseDups_cons, ih]
    cases hKey : s.registrationKey with
    | none =>
      have hNew : unlinkedKey s k ∉ (rows.zipIdx (k + 1)).map fun (s, i) => unlinkedKey s i := by
        intro hMem
        obtain ⟨row, hRow, hEq⟩ := List.mem_map.mp hMem
        have hIndex := List.le_snd_of_mem_zipIdx hRow
        cases hOther : row.1.registrationKey with
        | none =>
          simp only [unlinkedKey, hKey, hOther, UnlinkedKey.place.injEq] at hEq
          omega
        | some key => simp [unlinkedKey, hKey, hOther] at hEq
      simp only [if_neg hNew]
      simp [unlinkedRegistration, hKey, Nat.add_assoc]
    | some key =>
      have hMem : (unlinkedKey s k ∈ (rows.zipIdx (k + 1)).map fun (s, i) => unlinkedKey s i) ↔
          UnlinkedKey.registration s.orderId key ∈ rows.filterMap unlinkedRegistration := by
        rw [List.mem_map, List.mem_filterMap]
        constructor
        · rintro ⟨row, hRow, hEq⟩
          refine ⟨row.1, List.fst_mem_of_mem_zipIdx hRow, ?_⟩
          cases hOther : row.1.registrationKey with
          | none => simp [unlinkedKey, hKey, hOther] at hEq
          | some other => simpa [unlinkedKey, unlinkedRegistration, hKey, hOther] using hEq
        · rintro ⟨other, hOther, hEq⟩
          rw [← List.zipIdx_map_fst (k + 1) rows] at hOther
          obtain ⟨row, hRow, rfl⟩ := List.mem_map.mp hOther
          refine ⟨row, hRow, ?_⟩
          cases hRegistration : row.1.registrationKey with
          | none => simp [unlinkedRegistration, hRegistration] at hEq
          | some other => simpa [unlinkedKey, unlinkedRegistration, hKey, hRegistration] using hEq
      have hHere : unlinkedRegistration s = some (.registration s.orderId key) := by rw [unlinkedRegistration, hKey]; rfl
      rw [if_congr hMem rfl rfl, List.filterMap_cons_some hHere, length_eraseDups_cons]
      simp [hKey]
      omega

theorem communityDay_perm (h : xs.Perm ys) (today date : Nat) : communityDay xs today date = communityDay ys today date := by
  have hActive := h.filter fun stay => stay.relevant today date
  have hUnlinked : (unlinkedKeys (xs.filter fun stay => stay.relevant today date)).eraseDups.length =
      (unlinkedKeys (ys.filter fun stay => stay.relevant today date)).eraseDups.length := by
    have hRows := hActive.filter fun stay => stay.dayIdentity.isNone
    rw [unlinkedKeys, unlinkedKeys, unlinked_length, unlinked_length,
      (perm_eraseDups fun a => (hRows.filterMap unlinkedRegistration).mem_iff).length_eq, hRows.countP_eq]
  have hUnclassified := countP_categoriesBy_perm CommunityStay.dayIdentity hActive
    (p := fun categories => 1 < categories.length) fun us vs hPerm => by rw [hPerm.length_eq]
  have hOdd := countP_categoriesBy_perm CommunityStay.dayRegistration hActive
    (p := fun categories => categories.length ≠ 1) fun us vs hPerm => by rw [hPerm.length_eq]
  have hAny : (categoriesBy CommunityStay.dayRegistration (xs.filter fun stay => stay.relevant today date)).any
      (fun categories => categories.length ≠ 1) =
        (categoriesBy CommunityStay.dayRegistration (ys.filter fun stay => stay.relevant today date)).any
          fun categories => categories.length ≠ 1 := by
    rw [Bool.eq_iff_iff, List.any_eq_true, List.any_eq_true, ← List.countP_pos_iff, ← List.countP_pos_iff, hOdd]
  simp only [communityDay, hUnlinked, countCategory_perm _ hActive, length_categoriesBy_perm _ hActive, hActive.any_eq,
    hUnclassified, hAny]

end Days

/-! ## Residences -/

def liveIn (range : CommunityRange) (stays : List CommunityStay) (span : Nat × Nat) : Bool :=
  stays.any fun s => s.relevant range.today range.today && span.1 ≤ s.arrival && s.arrival < span.2

section Residence

variable {range : CommunityRange} {xs ys : List CommunityStay}

theorem isLive_eq (hPos : ∀ s ∈ xs, s.arrival < s.departure) {c : List CommunityStay} (hc : c ∈ residences xs) :
    isLive range c = liveIn range xs (startOf c, untilOf c) := by
  have hChain := residence_isChain hPos hc
  rw [isLive, liveIn, Bool.eq_iff_iff, List.any_eq_true, List.any_eq_true]
  constructor
  · rintro ⟨s, hs, hHere⟩
    have hIn := (hChain.mem_iff s (hChain.sub s hs)).mp hs
    refine ⟨s, (List.mem_insertionSort _).mp (hChain.sub s hs), ?_⟩
    rw [hHere, Bool.true_and, Bool.and_eq_true, decide_eq_true_eq, decide_eq_true_eq]
    exact hIn
  · rintro ⟨s, hs, hHere⟩
    rw [Bool.and_eq_true, Bool.and_eq_true, decide_eq_true_eq, decide_eq_true_eq] at hHere
    exact ⟨s, (hChain.mem_iff s ((List.mem_insertionSort _).mpr hs)).mpr ⟨hHere.1.2, hHere.2⟩, hHere.1.1⟩

theorem liveIn_perm (h : xs.Perm ys) : liveIn range xs = liveIn range ys := funext fun _ => h.any_eq

def datesBefore (v w : Nat × Nat) : Prop := v.1 < w.1 ∨ (v.1 = w.1 ∧ v.2 ≤ w.2)

theorem residenceSpans_perm (h : xs.Perm ys) : residenceSpans xs = residenceSpans ys := by
  have hRead : ∀ stays : List CommunityStay, residenceSpans stays =
      (chains Prod.fst Prod.snd ((stays.insertionSort arrivesBefore).map fun s => (s.arrival, s.departure))).map fun c =>
        (first Prod.fst c, reach Prod.snd c) := by
    intro stays
    rw [← chains_map, List.map_map]
    refine List.map_congr_left fun c _ => ?_
    rw [Function.comp, first_map, reach_map]
  have hBefore : ∀ a b, arrivesBefore a b → datesBefore (a.arrival, a.departure) (b.arrival, b.departure) :=
    fun _ _ hab => hab
  rw [hRead, hRead, sorted_map_perm (fun a b => arrivesBefore_total.total a b)
    (fun a b c => arrivesBefore_trans.trans a b c) hBefore (fun a _ b _ hab hba => ?_) h]
  simp only [datesBefore] at hab hba
  rw [Prod.mk.injEq]
  omega

theorem record_durationPart (p : Prop) [Decidable p] (draft : RecordDraft) (people : List (Option Nat)) :
    (if p then [Addition.record draft people] else []).filterMap Addition.durationPart = [] := by
  split <;> rfl

theorem renewals_durationPart (personKey : Nat) (chain rest : List Visit) :
    (renewals range personKey chain rest).filterMap Addition.durationPart = [] := by
  induction rest generalizing chain with
  | nil => rfl
  | cons visit rest ih =>
    rw [renewals, List.filterMap_append, ih, List.append_nil]
    cases chain.getLast? with
    | none => rfl
    | some previous => exact record_durationPart _ _ _

theorem residenceRecords_durationPart (planned : List CommunityStay) (personKey : Nat) (previous : Bool)
    (chain : List Visit) (live : Bool) :
    (residenceRecords range planned personKey previous chain live).filterMap Addition.durationPart = [] := by
  simp only [residenceRecords, List.filterMap_append, record_durationPart, List.append_nil]

theorem personAdditions_durationPart (hPos : ∀ s ∈ xs, s.arrival < s.departure)
    (durations : Nat → Nat → Bool → List Addition) (planned : List CommunityStay) :
    (personAdditions range durations planned xs).filterMap Addition.durationPart =
      (residenceSpans xs).flatMap fun span =>
        (durations span.1 span.2 (liveIn range xs span)).filterMap Addition.durationPart := by
  have hOne : ∀ (personKey : Option Nat) mine previous (c : List CommunityStay) live,
      (residenceAdditions range durations mine personKey previous (c.map CommunityStay.visit) live).filterMap
        Addition.durationPart = (durations (startOf c) (untilOf c) live).filterMap Addition.durationPart := by
    intro personKey mine previous c live
    cases personKey with
    | none => rw [residenceAdditions, first_map, reach_map]; rfl
    | some p =>
      rw [residenceAdditions, List.filterMap_append, List.filterMap_append, renewals_durationPart,
        residenceRecords_durationPart, List.append_nil, List.nil_append, first_map, reach_map]
      rfl
  rw [personAdditions, List.filterMap_flatMap, residenceSpans, List.flatMap_map]
  simp only [hOne]
  rw [← List.zipIdx_map_fst 0 (residences xs), List.flatMap_map, List.zipIdx_map_fst]
  refine List.flatMap_congr fun indexed hIndexed => ?_
  rw [isLive_eq hPos (List.fst_mem_of_mem_zipIdx hIndexed)]

end Residence

theorem personKey_of_provenKey {s : CommunityStay} {k : ResidenceKey} (h : s.provenKey = some k) : s.proven = true ∧
    match k with
    | .identity p => s.personKey = some p
    | .registration o _ => s.personKey = none ∧ s.orderId = o := by
  rw [CommunityStay.provenKey] at h
  split at h
  case isFalse => cases h
  case isTrue hProven =>
    refine ⟨hProven, ?_⟩
    rw [CommunityStay.residenceKey] at h
    cases hPerson : s.personKey with
    | some p =>
      rw [hPerson] at h
      cases h
      rfl
    | none =>
      rw [hPerson] at h
      obtain ⟨r, _, rfl⟩ := Option.map_eq_some_iff.mp h
      exact ⟨rfl, rfl⟩

/-! ## Records -/

abbrev RecordKey := RecordKind × Nat × Nat × Nat

/-- What a record says, but for its reason. -/
def CommunityRecord.figure (r : CommunityRecord) : RecordKey × Option Nat := (r.toRecordDraft.key, r.people)

def drafts (additions : List Addition) : List (RecordDraft × List (Option Nat)) := additions.filterMap Addition.recordPart

def Mentions (additions : List Addition) (key : RecordKey) (person : Option Nat) : Prop :=
  ∃ d ∈ drafts additions, d.1.key = key ∧ person ∈ d.2

def peopleFigure (additions : List Addition) (key : RecordKey) : Option Nat :=
  let mine := (drafts additions).filter fun d => d.1.key = key
  if mine.any fun d => d.2.any Option.isNone then none
  else some (mine.flatMap fun d => d.2.filterMap id).eraseDups.length

theorem foldl_addRecord (rest : List (RecordDraft × List (Option Nat))) (entry : RecordEntry) :
    rest.foldl (fun v d => some (addRecord d v)) (some entry) =
      some { entry with
        people := entry.people ++ rest.flatMap fun d => d.2.filterMap id
        unknown := entry.unknown || rest.any fun d => d.2.any Option.isNone } := by
  induction rest generalizing entry with
  | nil => simp
  | cons d rest ih =>
    rw [List.foldl_cons, ih]
    simp [addRecord, Bool.or_assoc]

/-- The entry of a key: its first draft, and all that is mentioned for it. -/
def entryOf (additions : List Addition) (key : RecordKey) : RecordEntry :=
  let mine := (drafts additions).filter fun d => d.1.key = key
  {
    draft := (mine.head?.map Prod.fst).getD ⟨0, 0, 0, "", .new⟩
    people := mine.flatMap fun d => d.2.filterMap id
    unknown := mine.any fun d => d.2.any Option.isNone }

theorem foldl_entryOf {additions : List Addition} {k : RecordKey} (hk : k ∈ (drafts additions).map fun d => d.1.key) :
    ((drafts additions).filter fun d => d.1.key = k).foldl (fun v d => some (addRecord d v)) none =
      some (entryOf additions k) ∧ (entryOf additions k).draft.key = k := by
  obtain ⟨d, hd, hKey⟩ := List.mem_map.mp hk
  rw [entryOf]
  cases hMine : (drafts additions).filter fun d => d.1.key = k with
  | nil => exact absurd (decide_eq_true hKey) (List.filter_eq_nil_iff.mp hMine d hd)
  | cons e rest =>
    have he : e ∈ (drafts additions).filter fun d => d.1.key = k := hMine ▸ List.mem_cons_self
    refine ⟨?_, of_decide_eq_true (List.mem_filter.mp he).2⟩
    rw [List.foldl_cons, foldl_addRecord]
    simp [addRecord]

theorem figures_recordsOf (additions : List Addition) : ((recordsOf additions).map CommunityRecord.figure).Perm
    ((((drafts additions).map fun d => d.1.key).eraseDups).map fun k => (k, peopleFigure additions k)) := by
  have hTally := (tally_perm fun k (hk : k ∈ (drafts additions).map fun d => d.1.key) => (foldl_entryOf hk).1).map
    fun row : RecordKey × RecordEntry => row.2.record.figure
  refine ((List.perm_insertionSort _ _).map _).trans ?_
  rw [List.map_map]
  refine hTally.trans (List.Perm.of_eq ?_)
  rw [List.map_map]
  refine List.map_congr_left fun k hk => ?_
  have hDraft := (foldl_entryOf (List.mem_eraseDups.mp hk)).2
  exact Prod.ext hDraft rfl

theorem any_mentions {additions : List Addition} {key : RecordKey} :
    (((drafts additions).filter fun d => d.1.key = key).any fun d => d.2.any Option.isNone) = true ↔
      Mentions additions key none := by
  simp only [Mentions, List.any_eq_true, List.mem_filter, decide_eq_true_eq, Option.isNone_iff_eq_none, and_assoc,
    exists_eq_right]

theorem mem_mentions {additions : List Addition} {key : RecordKey} {person : Nat} :
    person ∈ (((drafts additions).filter fun d => d.1.key = key).flatMap fun d => d.2.filterMap id) ↔
      Mentions additions key (some person) := by
  simp only [Mentions, List.mem_flatMap, List.mem_filter, decide_eq_true_eq, List.mem_filterMap, id_eq, and_assoc,
    exists_eq_right]

theorem figures_congr {as bs : List Addition}
    (hKeys : ∀ k, k ∈ (drafts as).map (fun d => d.1.key) ↔ k ∈ (drafts bs).map fun d => d.1.key)
    (hMentions : ∀ k p, Mentions as k p ↔ Mentions bs k p) :
    ((recordsOf as).map CommunityRecord.figure).Perm ((recordsOf bs).map CommunityRecord.figure) := by
  have hPeople : ∀ k, peopleFigure as k = peopleFigure bs k := by
    intro k
    have hUnknown : (((drafts as).filter fun d => d.1.key = k).any fun d => d.2.any Option.isNone) =
        ((drafts bs).filter fun d => d.1.key = k).any fun d => d.2.any Option.isNone := by
      rw [Bool.eq_iff_iff, any_mentions, any_mentions, hMentions]
    have hKnown : (((drafts as).filter fun d => d.1.key = k).flatMap fun d => d.2.filterMap id).eraseDups.Perm
        (((drafts bs).filter fun d => d.1.key = k).flatMap fun d => d.2.filterMap id).eraseDups :=
      perm_eraseDups fun p => by rw [mem_mentions, mem_mentions, hMentions]
    simp only [peopleFigure, hUnknown, hKnown.length_eq]
  refine (figures_recordsOf as).trans (List.Perm.trans ?_ (figures_recordsOf bs).symm)
  simp only [hPeople]
  exact (perm_eraseDups hKeys).map _

/-! ## Durations -/

def durationRow (durations : List (Nat × DurationPerspective)) (nights : Nat) : DurationRow :=
  ⟨nights, durations.count (nights, .current), durations.count (nights, .all)⟩

theorem foldl_countDuration (durations : List (Nat × DurationPerspective)) (k : Nat) (row : DurationRow) :
    (durations.filter fun d => d.1 = k).foldl (fun v d => some (countDuration d v)) (some row) =
      some ⟨row.nights, row.current + durations.count (k, .current), row.all + durations.count (k, .all)⟩ := by
  induction durations generalizing row with
  | nil => rfl
  | cons d durations ih =>
    obtain ⟨n, perspective⟩ := d
    by_cases hHere : n = k
    · subst hHere
      rw [List.filter_cons_of_pos (by simp), List.foldl_cons, ih]
      cases perspective <;> simp [countDuration, Nat.add_assoc, Nat.add_comm]
    · rw [List.filter_cons_of_neg (by simpa using hHere), ih]
      simp [hHere]

theorem foldl_durationRow {durations : List (Nat × DurationPerspective)} {k : Nat} (hk : k ∈ durations.map Prod.fst) :
    (durations.filter fun d => d.1 = k).foldl (fun v d => some (countDuration d v)) none = some (durationRow durations k) := by
  have hStart : (durations.filter fun d => d.1 = k).foldl (fun v d => some (countDuration d v)) none =
      (durations.filter fun d => d.1 = k).foldl (fun v d => some (countDuration d v)) (some ⟨k, 0, 0⟩) := by
    obtain ⟨d, hd, hKey⟩ := List.mem_map.mp hk
    cases hMine : durations.filter fun d => d.1 = k with
    | nil => exact absurd (decide_eq_true hKey) (List.filter_eq_nil_iff.mp hMine d hd)
    | cons e rest =>
      have he : e ∈ durations.filter fun d => d.1 = k := hMine ▸ List.mem_cons_self
      have hNights : e.1 = k := of_decide_eq_true (List.mem_filter.mp he).2
      rw [List.foldl_cons, List.foldl_cons, countDuration, countDuration, hNights]
      rfl
  rw [hStart, foldl_countDuration, durationRow]
  simp

theorem distribution_perm {as bs : List Addition}
    (h : (as.filterMap Addition.durationPart).Perm (bs.filterMap Addition.durationPart)) :
    distribution as = distribution bs := by
  have hRows : ∀ additions : List Addition, ((tally Prod.fst countDuration []
      (additions.filterMap Addition.durationPart)).map Prod.snd).Perm
        (((additions.filterMap Addition.durationPart).map Prod.fst).eraseDups.map
          (durationRow (additions.filterMap Addition.durationPart))) := by
    intro additions
    have hTally := tally_perm fun k (hk : k ∈ (additions.filterMap Addition.durationPart).map Prod.fst) =>
      foldl_durationRow hk
    have hRead := hTally.map Prod.snd
    rwa [List.map_map] at hRead
  have hRow : ∀ k, durationRow (as.filterMap Addition.durationPart) k = durationRow (bs.filterMap Addition.durationPart) k :=
    fun k => by rw [durationRow, h.count_eq, h.count_eq, durationRow]
  have hKeys := perm_eraseDups fun k => (h.map Prod.fst).mem_iff (a := k)
  have hTotal : ∀ a b : DurationRow, a.nights ≤ b.nights ∨ b.nights ≤ a.nights := fun a b => Nat.le_total _ _
  refine insertionSort_perm hTotal (fun _ _ _ => Nat.le_trans) ?_
    ((hRows as).trans (((hKeys.map _).trans (List.Perm.of_eq (List.map_congr_left fun k _ => hRow k))).trans (hRows bs).symm))
  intro a ha b hb hab hba
  obtain ⟨k, _, rfl⟩ := List.mem_map.mp ((hRows as).mem_iff.mp ha)
  obtain ⟨j, _, rfl⟩ := List.mem_map.mp ((hRows as).mem_iff.mp hb)
  have hSame : k = j := Nat.le_antisymm hab hba
  rw [hSame]

/-! ## Additions -/

structure Reordered (a b : CommunityInput) : Prop where
  stays : a.stays.Perm b.stays
  events : a.events.Perm b.events
  planned : a.planned.Perm b.planned
  range : a.range = b.range

def residencePart (input : CommunityInput) : List Addition :=
  input.residenceGroups.flatMap fun group =>
    personAdditions input.range (wholeDurations input.range) input.planned group.2

section Events

variable {range : CommunityRange} {xs ys : List CommunityStay}

theorem eventAdditions_perm (range : CommunityRange) (h : xs.Perm ys) (event : CommunityEvent) :
    (eventAdditions range xs event = [] ∧ eventAdditions range ys event = []) ∨ ∃ draft us vs, us.Perm vs ∧
      eventAdditions range xs event = [.record draft us] ∧ eventAdditions range ys event = [.record draft vs] := by
  rw [eventAdditions, eventAdditions]
  split
  case isTrue => exact .inl ⟨rfl, rfl⟩
  case isFalse =>
    have hPeople := h.filter fun stay => stay.orderId = event.orderId && stay.historical &&
      stay.arrival ≤ event.date && event.date ≤ stay.departure
    have hLeaving := hPeople.filter fun person => person.personKey.all fun key =>
      !(xs.any fun other => other.personKey = some key && other.proven && other.orderId ≠ person.orderId &&
        other.arrival ≤ event.date && event.date < other.departure)
    simp only [h.any_eq] at hLeaving
    dsimp only
    cases event.kind with
    | renewal =>
      refine .inr ⟨_, _, _, ?_, rfl, rfl⟩
      rw [hPeople.isEmpty_eq]
      split
      · exact List.Perm.refl _
      · exact hPeople.map _
    | early =>
      simp only [h.any_eq]
      rw [hPeople.isEmpty_eq, hLeaving.isEmpty_eq]
      split
      case isTrue => exact .inl ⟨rfl, rfl⟩
      case isFalse =>
        refine .inr ⟨_, _, _, ?_, rfl, rfl⟩
        split
        · exact List.Perm.refl _
        · exact hLeaving.map _

theorem eventAdditions_durationPart (stays : List CommunityStay) (event : CommunityEvent) :
    (eventAdditions range stays event).filterMap Addition.durationPart = [] := by
  obtain ⟨hNone, _⟩ | ⟨_, _, _, _, hRecord, _⟩ := eventAdditions_perm range (List.Perm.refl stays) event
  · rw [hNone]
    rfl
  · rw [hRecord]
    rfl

end Events

theorem wholeAdditions_eq (input : CommunityInput) :
    input.wholeAdditions = residencePart input ++ input.events.flatMap (eventAdditions input.range input.stays) := rfl

theorem durations_perm {a b : CommunityInput} (h : Reordered a b) (hPos : ∀ s ∈ a.stays, s.arrival < s.departure) :
    (a.wholeAdditions.filterMap Addition.durationPart).Perm (b.wholeAdditions.filterMap Addition.durationPart) := by
  have hEvents : ∀ input : CommunityInput,
      (input.events.flatMap (eventAdditions input.range input.stays)).filterMap Addition.durationPart = [] := by
    intro input
    rw [List.filterMap_eq_nil_iff]
    intro added hAdded
    obtain ⟨event, _, hMem⟩ := List.mem_flatMap.mp hAdded
    exact List.filterMap_eq_nil_iff.mp (eventAdditions_durationPart input.stays event) added hMem
  have hRead : ∀ input : CommunityInput, (residencePart input).filterMap Addition.durationPart =
      (input.residenceGroups.map fun group => (personAdditions input.range (wholeDurations input.range) input.planned
        group.2).filterMap Addition.durationPart).flatMap id := by
    intro input
    rw [residencePart, List.filterMap_flatMap, List.flatMap_map]
    rfl
  rw [wholeAdditions_eq, wholeAdditions_eq, List.filterMap_append, List.filterMap_append, hEvents, hEvents, hRead, hRead,
    List.append_nil, List.append_nil]
  refine List.Perm.flatMap_right _ (groups_map_perm h.stays fun k => ?_)
  have hGroup : (a.stays.filter fun s => s.provenKey = some k).Perm (b.stays.filter fun s => s.provenKey = some k) :=
    h.stays.filter _
  have hPosGroup : ∀ s ∈ a.stays.filter (fun s => s.provenKey = some k), s.arrival < s.departure :=
    fun s hs => hPos s (List.mem_filter.mp hs).1
  simp only
  rw [personAdditions_durationPart hPosGroup, personAdditions_durationPart fun s hs => hPosGroup s (hGroup.mem_iff.mpr hs),
    residenceSpans_perm hGroup, liveIn_perm hGroup, h.range]

/-! ## Some of the rows in an order of their own -/

theorem filter_arranged {own : CommunityStay → Bool} {xs mine : List CommunityStay} (hMine : (xs.filter own).Perm mine) :
    (mine ++ xs.filter fun s => !own s).filter own = mine := by
  have hOwn : mine.filter own = mine :=
    List.filter_eq_self.mpr fun s hs => (List.mem_filter.mp (hMine.mem_iff.mpr hs)).2
  have hOthers : (xs.filter fun s => !own s).filter own = [] := by
    rw [List.filter_filter, List.filter_eq_nil_iff]
    simp
  rw [List.filter_append, hOwn, hOthers, List.append_nil]

theorem filter_arranged_other {own other : CommunityStay → Bool} {xs mine : List CommunityStay}
    (hMine : (xs.filter own).Perm mine) (hApart : ∀ s, own s = true → other s = false) :
    (mine ++ xs.filter fun s => !own s).filter other = xs.filter other := by
  have hNone : mine.filter other = [] := by
    refine List.filter_eq_nil_iff.mpr fun s hs => ?_
    rw [hApart s (List.mem_filter.mp (hMine.mem_iff.mpr hs)).2]
    exact Bool.false_ne_true
  rw [List.filter_append, hNone, List.nil_append, List.filter_filter]
  refine List.filter_congr fun s _ => ?_
  cases hOwn : own s with
  | true => rw [hApart s hOwn]; rfl
  | false => exact Bool.and_true _

/-! ## Residents -/

section Residents

variable {xs ys : List CommunityStay} {today date : Nat}

theorem residentStays_perm (h : xs.Perm ys) : (residentStays xs today date).Perm (residentStays ys today date) :=
  h.filter _

theorem residentStatus_perm (h : xs.Perm ys) : residentStatus xs today date = residentStatus ys today date := by
  funext stay
  have hRepresentatives : (representatives xs today date stay.orderId).length =
      (representatives ys today date stay.orderId).length :=
    (perm_eraseDups fun _ => (((residentStays_perm h).filter _).map _).mem_iff).length_eq
  rw [residentStatus, residentStatus, ambiguousRepresentative, ambiguousRepresentative, hRepresentatives]

theorem attendanceOpen_perm (h : xs.Perm ys) : attendanceOpen xs today date = attendanceOpen ys today date := by
  funext stay
  rw [attendanceOpen, attendanceOpen, residentStatus_perm h]

theorem confirmedMembers_perm (h : xs.Perm ys) : (confirmedMembers xs today date).Perm (confirmedMembers ys today date) := by
  rw [confirmedMembers, confirmedMembers, residentStatus_perm h]
  exact perm_eraseDups fun _ => (((residentStays_perm h).filter _).map _).mem_iff

theorem memberReviews_perm (h : xs.Perm ys) : (memberReviews xs today date).Perm (memberReviews ys today date) := by
  rw [memberReviews, memberReviews, residentStatus_perm h]
  exact perm_eraseDups fun _ => (((residentStays_perm h).filter _).map _).mem_iff

theorem residentReviews_perm (h : xs.Perm ys) : (residentReviews xs today date).Perm (residentReviews ys today date) := by
  rw [residentReviews, residentReviews, residentStatus_perm h, attendanceOpen_perm h]
  exact perm_eraseDups fun _ => (((residentStays_perm h).filter _).map _).mem_iff

/-- What the rows of a day show, but for the lists of names. -/
structure ResidentFigures where
  date : Nat
  longStay : Nat
  member : Option Nat
  total : Option Nat
  memberReview : Nat
  knownTotal : Nat
  knownMember : Nat
  residentReview : Nat
  deriving DecidableEq

def CommunityResidentDay.figures (day : CommunityResidentDay) : ResidentFigures :=
  ⟨day.date, day.longStay, day.member, day.total, day.memberReview, day.knownTotal, day.knownMember, day.residentReview⟩

end Residents

/-! ## The figures of the metrics -/

/-- What is shown, but for texts, lists of names and the order of the records. -/
structure CommunityFigures where
  current : CommunityDay
  trend : List CommunityDay
  visitors : Option Nat
  dailyAverage : Option (Nat × Nat)
  duration : List DurationRow
  records : Multiset (RecordKey × Option Nat)
  counts : CommunityCounts
  residentCurrent : ResidentFigures
  residentTrend : List ResidentFigures
  deriving DecidableEq

def DashboardCommunity.figures (metrics : DashboardCommunity) : CommunityFigures where
  current := metrics.current
  trend := metrics.trend
  visitors := metrics.visitors
  dailyAverage := metrics.dailyAverage
  duration := metrics.duration
  records := (metrics.records.map CommunityRecord.figure : List (RecordKey × Option Nat))
  counts := metrics.counts
  residentCurrent := metrics.residentCurrent.figures
  residentTrend := metrics.residentTrend.map CommunityResidentDay.figures

theorem visitors_perm {a b : CommunityInput} (h : Reordered a b) : a.visitors = b.visitors := by
  have hRead : ∀ input : CommunityInput, input.visitors = (input.residenceGroups.map fun group =>
      group.2.any fun stay => decide (stay.arrival ≤ input.range.toDate) && decide (input.range.fromDate < stay.departure)).countP
        id := by
    intro input
    rw [CommunityInput.visitors, ← List.countP_eq_length_filter, List.countP_map]
    rfl
  rw [hRead, hRead, ← h.range]
  exact (groups_map_perm h.stays fun k => (h.stays.filter _).any_eq).countP_eq _

theorem countRecords_perm {rs ts : List CommunityRecord}
    (h : (rs.map CommunityRecord.figure).Perm (ts.map CommunityRecord.figure)) : countRecords rs = countRecords ts := by
  have hCount : ∀ (records : List CommunityRecord) kind, records.countP (fun r => r.kind = kind) =
      (records.map CommunityRecord.figure).countP fun figure => figure.1.1 = kind := by
    intro records kind
    rw [List.countP_map]
    rfl
  simp only [countRecords, hCount, h.countP_eq]

end GreenPms
