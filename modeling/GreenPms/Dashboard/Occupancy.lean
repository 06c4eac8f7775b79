import GreenPms.Library.Indexes
import GreenPms.Dashboard.Capacity

/-! # Occupancy within the capacity of a day

A unit that is counted weighs the atoms under it. Units that never hold a room together with one of
its beds have no atom in common, so that their weights stay within the capacity. A bed in use whose
room is not in use weighs something and has no atom.
-/

namespace GreenPms

namespace CapacityInput

variable (input : CapacityInput)

def ScopedByRoom : Prop :=
  ∀ room ∈ input.units, room.kind = .room → ∀ bed ∈ input.units, bed.parentRoomId = some room.id →
    input.includesUnit bed.id = input.includesUnit room.id

/-- Distinct units, never a room together with one of its own beds. -/
structure Apart (ids : List Nat) : Prop where
  nodup : ids.Nodup
  apart : ∀ room ∈ input.units, room.kind = .room → room.id ∈ ids → ∀ bed ∈ input.units,
    bed.parentRoomId = some room.id → bed.id ∉ ids

def BedsHoused (date : Nat) : Prop :=
  ∀ bed ∈ input.units, bed.kind = .bed → input.includesUnit bed.id = true → input.active bed date = true →
    ∃ room ∈ input.units, room.kind = .room ∧ bed.parentRoomId = some room.id ∧ input.active room date = true

def everything : CapacitySelection := ⟨none, none⟩

def occupied (ids : List Nat) (date : Nat) : Nat := (ids.filterMap fun id => input.weight id date).sum

def activeRooms (date : Nat) : List Nat :=
  (input.units.filter fun unit => unit.kind = .room && input.active unit date).map CapacityUnit.id

def counted (date : Nat) (id : Nat) : Bool :=
  (input.byId id).any fun unit => input.includesUnit id && input.active unit date

def atoms (date : Nat) : List CapacityUnit :=
  input.units.filter fun unit => input.includesUnit unit.id && input.isAtom date unit

def under (id : Nat) (atom : CapacityUnit) : Bool :=
  atom.id = id || ((input.byId id).any (fun unit => unit.kind = .room) && atom.parentRoomId = some id)

variable {input} {date : Nat} {unit : CapacityUnit}

theorem mem_of_byId {id : Nat} (h : input.byId id = some unit) : unit ∈ input.units ∧ unit.id = id := by
  rw [byId] at h
  have hId := List.find?_some h
  exact ⟨List.mem_of_find?_eq_some h, of_decide_eq_true hId⟩

theorem eq_of_id {other : CapacityUnit} (h : unit ∈ input.units) (hOther : other ∈ input.units)
    (hId : unit.id = other.id) : unit = other :=
  List.inj_on_of_nodup_map input.keyed h hOther hId

theorem byId_of_mem (h : unit ∈ input.units) : input.byId unit.id = some unit := by
  cases hFind : input.byId unit.id with
  | none => exact absurd (decide_eq_true rfl) (List.find?_eq_none.mp hFind unit h)
  | some other =>
    obtain ⟨hOther, hId⟩ := mem_of_byId hFind
    rw [eq_of_id hOther h hId]

theorem kind_of_parent {id : Nat} (h : unit.parentRoomId = some id) : unit.kind = .bed := by
  cases hKind : unit.kind with
  | bed => rfl
  | room => rw [unit.parented.mp hKind] at h; cases h

theorem operatingStatistics_scoped (links : List StatisticsLink) (settings : List OperatingStatisticsSetting) :
    ({ input with includesUnit := (OperatingStatisticsScope.mk input.units links settings).includesUnit } :
      CapacityInput).ScopedByRoom := by
  intro room hRoom hKind bed hBed hParent
  have hById : ∀ unit ∈ input.units, (OperatingStatisticsScope.mk input.units links settings).byId unit.id = some unit :=
    fun unit hUnit => byId_of_mem hUnit
  have hAsset : (OperatingStatisticsScope.mk input.units links settings).assetId bed.id =
      (OperatingStatisticsScope.mk input.units links settings).assetId room.id := by
    simp [OperatingStatisticsScope.assetId, hById bed hBed, hById room hRoom, hKind, kind_of_parent hParent, hParent]
  change decide (OperatingStatisticsScope.classifyUnit _ bed.id = _) =
    decide (OperatingStatisticsScope.classifyUnit _ room.id = _)
  rw [OperatingStatisticsScope.classifyUnit, hAsset, OperatingStatisticsScope.classifyUnit]

theorem on_value {capacity : Nat} (h : (input.on date everything).value = some capacity) :
    capacity = (input.atoms date).length ∧ ∀ unit ∈ input.units, input.includesUnit unit.id = true →
      input.lifecycle.start unit.id = none → input.localDate unit.createdAt ≤ date := by
  have hSelects : ∀ unit, input.selects everything unit = input.includesUnit unit.id := by
    intro unit
    simp [selects, everything]
  rw [on] at h
  dsimp only at h
  split at h
  case isTrue => cases h
  case isFalse hSound =>
    push Not at hSound
    obtain ⟨_, hIssues, _⟩ := hSound
    refine ⟨(Option.some.inj h).symm.trans ?_, fun unit hUnit hIncluded hStart => ?_⟩
    · rw [atoms, List.filter_filter]
      refine congrArg _ (List.filter_congr fun unit _ => ?_)
      rw [hSelects, Bool.and_comm]
    · rw [List.filter_eq_nil_iff] at hIssues
      have hLate := hIssues unit (List.mem_filter.mpr ⟨hUnit, (hSelects unit).trans hIncluded⟩)
      simpa [hStart] using hLate

theorem weight_of_active (h : unit ∈ input.units) (hIncluded : input.includesUnit unit.id = true)
    (hActive : input.active unit date = true) : input.weight unit.id date =
      some (if unit.kind = .room ∧ input.children unit.id date ≠ [] then (input.children unit.id date).length else 1) := by
  have hWindow := hActive
  rw [active, Bool.and_eq_true, decide_eq_true_eq] at hWindow
  obtain ⟨hStart, hFinish⟩ := hWindow
  have hStarted : ((input.lifecycle.start unit.id).any fun day => date < day) = false := by
    cases hDay : input.lifecycle.start unit.id with
    | none => rfl
    | some day =>
      rw [hDay] at hStart
      simpa using hStart
  have hOpen : ((input.lifecycle.finish unit.id).any fun day => day ≤ date) = false := by
    cases hDay : input.lifecycle.finish unit.id with
    | none => rfl
    | some day =>
      rw [hDay] at hFinish
      simpa using hFinish
  have hRegistered : ((input.lifecycle.start unit.id).isNone && date < input.localDate unit.createdAt) = false := by
    cases hDay : input.lifecycle.start unit.id with
    | some day => rfl
    | none =>
      rw [hDay] at hStart
      simpa using hStart
  rw [weight, byId_of_mem h]
  simp only [hIncluded, hStarted, hOpen, hRegistered, hActive, Bool.true_eq_false, Bool.or_false, Bool.false_eq_true,
    if_false]
  split <;> rfl

/-- On a day whose capacity is known, only the units that are counted and in use weigh anything. -/
theorem weight_of_not_counted (hKnown : ∀ unit ∈ input.units, input.includesUnit unit.id = true →
    input.lifecycle.start unit.id = none → input.localDate unit.createdAt ≤ date) {id : Nat}
    (h : input.counted date id = false) : (input.weight id date).getD 0 = 0 := by
  rw [weight]
  cases hUnit : input.byId id with
  | none => rfl
  | some unit =>
    obtain ⟨hMem, rfl⟩ := mem_of_byId hUnit
    cases hIncluded : input.includesUnit unit.id with
    | false => rfl
    | true =>
      have hActive : input.active unit date = false := by simpa [counted, hUnit, hIncluded] using h
      have hRegistered : ((input.lifecycle.start unit.id).isNone && date < input.localDate unit.createdAt) = false := by
        cases hDay : input.lifecycle.start unit.id with
        | some day => rfl
        | none => simpa using hKnown unit hMem hIncluded hDay
      simp only [hRegistered, hActive, Bool.true_eq_false, Bool.false_eq_true, if_false, if_true]
      split <;> rfl

theorem mem_children {id : Nat} : unit ∈ input.children id date ↔
    unit ∈ input.units ∧ unit.parentRoomId = some id ∧ input.active unit date = true := by
  rw [children, List.mem_filter, Bool.and_eq_true, decide_eq_true_eq]

theorem children_eq_nil {id : Nat} : input.children id date = [] ↔
    ∀ bed ∈ input.units, bed.parentRoomId = some id → input.active bed date = false := by
  rw [List.eq_nil_iff_forall_not_mem]
  simp only [mem_children, not_and, Bool.not_eq_true]

theorem isAtom_room (hKind : unit.kind = .room) :
    input.isAtom date unit = (input.active unit date && (input.children unit.id date).isEmpty) := by
  rw [isAtom, hKind, Bool.eq_iff_iff, Bool.and_eq_true, Bool.and_eq_true, List.isEmpty_iff, children_eq_nil,
    List.all_eq_true]
  simp [imp_iff_not_or]

theorem isAtom_bed {room : CapacityUnit} (hRoom : room ∈ input.units) (hParent : unit.parentRoomId = some room.id) :
    input.isAtom date unit = (input.active unit date && input.active room date) := by
  rw [isAtom, kind_of_parent hParent, hParent]
  simp [byId_of_mem hRoom]

theorem countP_id (h : unit ∈ input.units) : input.units.countP (fun other => other.id = unit.id) = 1 := by
  refine Nat.le_antisymm ?_ (List.countP_pos_iff.mpr ⟨unit, h, decide_eq_true rfl⟩)
  rw [Indexes.countP_le_one_iff (List.Nodup.of_map _ input.keyed)]
  intro a ha b hb hA hB
  exact eq_of_id ha hb ((of_decide_eq_true hA).trans (of_decide_eq_true hB).symm)

theorem under_iff (h : unit ∈ input.units) {other : CapacityUnit} (hOther : other ∈ input.units) :
    input.under unit.id other = true ↔ other = unit ∨ (unit.kind = .room ∧ other.parentRoomId = some unit.id) := by
  rw [under, byId_of_mem h, Bool.or_eq_true, Bool.and_eq_true, decide_eq_true_eq, decide_eq_true_eq, Option.any_some,
    decide_eq_true_eq]
  refine or_congr ⟨eq_of_id hOther h, ?_⟩ Iff.rfl
  rintro rfl
  rfl

theorem mem_atoms : unit ∈ input.atoms date ↔
    unit ∈ input.units ∧ input.includesUnit unit.id = true ∧ input.isAtom date unit = true := by
  rw [atoms, List.mem_filter, Bool.and_eq_true]

theorem countP_under (hScope : input.ScopedByRoom) (hHoused : input.BedsHoused date) (h : unit ∈ input.units)
    (hIncluded : input.includesUnit unit.id = true) (hActive : input.active unit date = true) :
    (input.atoms date).countP (input.under unit.id) =
      if unit.kind = .room ∧ input.children unit.id date ≠ [] then (input.children unit.id date).length else 1 := by
  rw [atoms, List.countP_filter]
  by_cases hRoom : unit.kind = .room ∧ input.children unit.id date ≠ []
  · -- The atoms under a room with beds in use are these beds.
    rw [if_pos hRoom, children, ← List.countP_eq_length_filter]
    refine List.countP_congr fun other hOther => ?_
    rw [Bool.and_eq_true, Bool.and_eq_true, Bool.and_eq_true, decide_eq_true_eq, under_iff h hOther]
    constructor
    · rintro ⟨rfl | ⟨_, hParent⟩, _, hAtom⟩
      · rw [isAtom_room hRoom.1, Bool.and_eq_true, List.isEmpty_iff] at hAtom
        exact absurd hAtom.2 hRoom.2
      · rw [isAtom_bed h hParent, Bool.and_eq_true] at hAtom
        exact ⟨hParent, hAtom.1⟩
    · rintro ⟨hParent, hInUse⟩
      refine ⟨.inr ⟨hRoom.1, hParent⟩, (hScope unit h hRoom.1 other hOther hParent).trans hIncluded, ?_⟩
      rw [isAtom_bed h hParent, hInUse, hActive]
      rfl
  · -- Any other unit is the only atom under it.
    rw [if_neg hRoom, ← countP_id h]
    refine List.countP_congr fun other hOther => ?_
    rw [Bool.and_eq_true, Bool.and_eq_true, decide_eq_true_eq, under_iff h hOther]
    constructor
    · rintro ⟨rfl | ⟨hKind, hParent⟩, _, hAtom⟩
      · rfl
      · rw [isAtom_bed h hParent, Bool.and_eq_true] at hAtom
        have hNone : input.children unit.id date = [] := not_not.mp fun hSome => hRoom ⟨hKind, hSome⟩
        exact absurd hAtom.1 (Bool.eq_false_iff.mp (children_eq_nil.mp hNone other hOther hParent))
    · intro hId
      obtain rfl := eq_of_id hOther h hId
      refine ⟨.inl rfl, hIncluded, ?_⟩
      cases hKind : other.kind with
      | room =>
        have hNone : input.children other.id date = [] := not_not.mp fun hSome => hRoom ⟨hKind, hSome⟩
        rw [isAtom_room hKind, hNone, hActive]
        rfl
      | bed =>
        obtain ⟨room, hMem, _, hParent, hInUse⟩ := hHoused other h hKind hIncluded hActive
        rw [isAtom_bed hMem hParent, hInUse, hActive]
        rfl

theorem counted_iff (h : unit ∈ input.units) : input.counted date unit.id = true ↔
    input.includesUnit unit.id = true ∧ input.active unit date = true := by
  rw [counted, byId_of_mem h, Option.any_some, Bool.and_eq_true]

theorem mem_of_counted {id : Nat} (h : input.counted date id = true) : ∃ unit ∈ input.units, unit.id = id := by
  rw [counted, Option.any_eq_true] at h
  obtain ⟨unit, hUnit, _⟩ := h
  exact ⟨unit, mem_of_byId hUnit⟩

theorem occupied_eq (hScope : input.ScopedByRoom) (hHoused : input.BedsHoused date)
    (hKnown : ∀ unit ∈ input.units, input.includesUnit unit.id = true →
      input.lifecycle.start unit.id = none → input.localDate unit.createdAt ≤ date) (ids : List Nat) :
    input.occupied ids date =
      ((ids.filter (input.counted date)).map fun id => (input.atoms date).countP (input.under id)).sum := by
  have hStep : ∀ id ids, input.occupied (id :: ids) date = (input.weight id date).getD 0 + input.occupied ids date := by
    intro id ids
    rw [occupied, List.filterMap_cons]
    cases input.weight id date with
    | none => exact (Nat.zero_add _).symm
    | some weight => rw [List.sum_cons]; rfl
  induction ids with
  | nil => rfl
  | cons id ids ih =>
    rw [hStep, ih, List.filter_cons]
    cases hCounted : input.counted date id with
    | false =>
      rw [weight_of_not_counted hKnown hCounted, Nat.zero_add]
      rfl
    | true =>
      obtain ⟨unit, hMem, rfl⟩ := mem_of_counted hCounted
      obtain ⟨hIncluded, hActive⟩ := (counted_iff hMem).mp hCounted
      rw [weight_of_active hMem hIncluded hActive, if_pos rfl, List.map_cons, List.sum_cons,
        countP_under hScope hHoused hMem hIncluded hActive]
      rfl

theorem Apart.one {ids : List Nat} (h : input.Apart ids) {atom : CapacityUnit} (hAtom : atom ∈ input.atoms date)
    {i j : Nat} (hi : i ∈ ids.filter (input.counted date)) (hj : j ∈ ids.filter (input.counted date))
    (hUnderI : input.under i atom = true) (hUnderJ : input.under j atom = true) : i = j := by
  obtain ⟨hi, hCountedI⟩ := List.mem_filter.mp hi
  obtain ⟨hj, hCountedJ⟩ := List.mem_filter.mp hj
  obtain ⟨a, ha, rfl⟩ := mem_of_counted hCountedI
  obtain ⟨b, hb, rfl⟩ := mem_of_counted hCountedJ
  obtain ⟨hMem, _⟩ := mem_atoms.mp hAtom
  obtain rfl | ⟨hRoomI, hParentI⟩ := (under_iff ha hMem).mp hUnderI
  · obtain rfl | ⟨hRoomJ, hParentJ⟩ := (under_iff hb hMem).mp hUnderJ
    · rfl
    · exact absurd hi (h.apart b hb hRoomJ hj atom hMem hParentJ)
  · obtain rfl | ⟨_, hParentJ⟩ := (under_iff hb hMem).mp hUnderJ
    · exact absurd hj (h.apart a ha hRoomI hi atom hMem hParentI)
    · exact Option.some.inj (hParentI.symm.trans hParentJ)

theorem mem_activeRooms {id : Nat} : id ∈ input.activeRooms date ↔
    ∃ room ∈ input.units, room.kind = .room ∧ input.active room date = true ∧ room.id = id := by
  simp [activeRooms, and_assoc]

theorem activeRooms_apart : input.Apart (input.activeRooms date) where
  nodup := List.Nodup.sublist (List.filter_sublist.map _) input.keyed
  apart := by
    intro room _ _ _ bed hBed hParent hMem
    obtain ⟨other, hOther, hKind, _, hId⟩ := mem_activeRooms.mp hMem
    obtain rfl := eq_of_id hOther hBed hId
    rw [kind_of_parent hParent] at hKind
    cases hKind

theorem activeRooms_with_bed_apart {bed : CapacityUnit} (hBed : bed ∈ input.units) (hKind : bed.kind = .bed)
    (hAlone : ¬ ∃ room ∈ input.units, room.kind = .room ∧ bed.parentRoomId = some room.id ∧
      input.active room date = true) : input.Apart (input.activeRooms date ++ [bed.id]) where
  nodup := by
    rw [List.nodup_append_comm]
    refine List.nodup_cons.mpr ⟨fun hMem => ?_, activeRooms_apart.nodup⟩
    obtain ⟨room, hRoom, hRoomKind, _, hId⟩ := mem_activeRooms.mp hMem
    rw [eq_of_id hRoom hBed hId, hKind] at hRoomKind
    cases hRoomKind
  apart := by
    intro room hRoom hRoomKind hIn child hChild hParent hMem
    have hRoomIn : room.id ∈ input.activeRooms date := by
      obtain hIn | hIn := List.mem_append.mp hIn
      · exact hIn
      · rw [eq_of_id hRoom hBed (List.mem_singleton.mp hIn), hKind] at hRoomKind
        cases hRoomKind
    obtain hMem | hMem := List.mem_append.mp hMem
    · exact activeRooms_apart.apart room hRoom hRoomKind hRoomIn child hChild hParent hMem
    · obtain rfl := eq_of_id hChild hBed (List.mem_singleton.mp hMem)
      obtain ⟨other, hOther, _, hActive, hId⟩ := mem_activeRooms.mp hRoomIn
      obtain rfl := eq_of_id hOther hRoom hId
      exact hAlone ⟨other, hRoom, hRoomKind, hParent, hActive⟩

/-- On a day with a known capacity, the weights of units apart stay within it and those of the
rooms in use come to it, exactly when every counted bed in use is in a room in use. -/
theorem occupancy_within_capacity_iff (hScope : input.ScopedByRoom) {capacity : Nat}
    (hValue : (input.on date everything).value = some capacity) :
    ((∀ ids, input.Apart ids → input.occupied ids date ≤ capacity) ∧
      input.occupied (input.activeRooms date) date = capacity) ↔ input.BedsHoused date := by
  obtain ⟨rfl, hKnown⟩ := on_value hValue
  constructor
  · rintro ⟨hWithin, hRooms⟩ bed hBed hKind hIncluded hActive
    by_contra hAlone
    have hMore := hWithin _ (activeRooms_with_bed_apart hBed hKind hAlone)
    have hOne : input.occupied [bed.id] date = 1 := by
      rw [occupied, List.filterMap_cons, weight_of_active hBed hIncluded hActive, hKind]
      rfl
    rw [occupied, List.filterMap_append, List.sum_append, ← occupied, ← occupied, hRooms, hOne] at hMore
    exact Nat.not_succ_le_self _ hMore
  · intro hHoused
    constructor
    · intro ids hApart
      rw [occupied_eq hScope hHoused hKnown]
      exact Indexes.sum_countP_le (hApart.nodup.filter _) fun atom hAtom i hi j hj => hApart.one hAtom hi hj
    · rw [occupied_eq hScope hHoused hKnown]
      refine Indexes.sum_countP_eq (activeRooms_apart.nodup.filter _)
        (fun atom hAtom i hi j hj => activeRooms_apart.one hAtom hi hj) fun atom hAtom => ?_
      obtain ⟨hMem, hIncluded, hAtom⟩ := mem_atoms.mp hAtom
      have hActive : input.active atom date = true := by
        rw [isAtom, Bool.and_eq_true] at hAtom
        exact hAtom.1
      cases hKind : atom.kind with
      | room =>
        refine ⟨atom.id, List.mem_filter.mpr ⟨mem_activeRooms.mpr ⟨atom, hMem, hKind, hActive, rfl⟩, ?_⟩, ?_⟩
        · exact (counted_iff hMem).mpr ⟨hIncluded, hActive⟩
        · exact (under_iff hMem hMem).mpr (.inl rfl)
      | bed =>
        obtain ⟨room, hRoom, hRoomKind, hParent, hInUse⟩ := hHoused atom hMem hKind hIncluded hActive
        refine ⟨room.id, List.mem_filter.mpr ⟨mem_activeRooms.mpr ⟨room, hRoom, hRoomKind, hInUse, rfl⟩, ?_⟩, ?_⟩
        · exact (counted_iff hRoom).mpr ⟨(hScope room hRoom hRoomKind atom hMem hParent).symm.trans hIncluded, hInUse⟩
        · exact (under_iff hRoom hMem).mpr (.inr ⟨hRoomKind, hParent⟩)

/-! ## A retired room whose bed stays in use -/

def sampleCapacity (roomEnd : List Nat) : CapacityInput where
  units := [⟨1, .room, none, roomEnd.isEmpty, some "A", none, 0, by decide⟩,
    ⟨2, .bed, some 1, true, none, none, 0, by decide⟩]
  keyed := show [1, 2].Nodup by decide
  changes := roomEnd.map fun day => ⟨day, some ⟨some "SET_ROOM_ACTIVE", [], [1], none⟩⟩
  localDate := id
  confirmations := []
  includesUnit _ := true

theorem sampleCapacity_scoped (roomEnd : List Nat) : (sampleCapacity roomEnd).ScopedByRoom := fun _ _ _ _ _ _ => rfl

theorem bed_outlives_room : (sampleCapacity [5]).ScopedByRoom ∧
    ((sampleCapacity [5]).on 10 everything).value = some 0 ∧ (sampleCapacity [5]).Apart [2] ∧
      (sampleCapacity [5]).occupied [2] 10 = 1 :=
  ⟨sampleCapacity_scoped [5], by decide, ⟨by decide, by decide⟩, by decide⟩

theorem occupancy_within_capacity_iff_sample : (sampleCapacity []).Apart [1] ∧ (sampleCapacity []).occupied [1] 10 ≤ 1 := by
  have hApart : (sampleCapacity []).Apart [1] := ⟨by decide, by decide⟩
  have hOn : ((sampleCapacity []).on 10 everything).value = some 1 := by decide
  have hHoused : (sampleCapacity []).BedsHoused 10 := show ∀ bed ∈ (sampleCapacity []).units, _ by decide
  obtain ⟨hWithin, _⟩ := (occupancy_within_capacity_iff (sampleCapacity_scoped []) hOn).mpr hHoused
  exact ⟨hApart, hWithin [1] hApart⟩

end CapacityInput

end GreenPms
