import Mathlib.Combinatorics.Enumerative.DoubleCounting
import GreenPms.Library.Keyed

/-! # One row of each seat

Of the rows of a seat the last one stands, and what is counted are the values that the standing rows
have. The order of the rows decides which row stands. It does not decide how many values there are
exactly if a row of a seat can only be exchanged for one that shows the same, or whose value is
shown elsewhere in any order, or which brings a value that no other seat has for one that no other
seat has either.
-/

namespace Choices

variable {ρ σ κ : Type*} [DecidableEq σ] [DecidableEq κ]

section Standing

variable (seat : ρ → σ)

def Stands (rows : List ρ) (r : ρ) : Prop := (rows.filter fun a => seat a = seat r).getLast? = some r

/-- The rows with the preferred ones behind the others. -/
def arrange (rows : List ρ) (prefers : ρ → Bool) : List ρ :=
  rows.filter (fun r => !prefers r) ++ rows.filter prefers

variable {seat} {rows others own : List ρ} {r s : ρ} {prefers : ρ → Bool}

theorem Stands.mem (h : Stands seat rows r) : r ∈ rows :=
  (List.mem_filter.mp (List.mem_of_getLast? h)).1

theorem Stands.unique (hr : Stands seat rows r) (hs : Stands seat rows s) (hSeat : seat r = seat s) : r = s := by
  rw [Stands, hSeat, hs] at hr
  exact (Option.some.inj hr).symm

variable (seat) in
theorem exists_stands (hr : r ∈ rows) : ∃ s, Stands seat rows s ∧ seat s = seat r := by
  have hFull : rows.filter (fun a => seat a = seat r) ≠ [] :=
    List.ne_nil_of_mem (List.mem_filter.mpr ⟨hr, decide_eq_true rfl⟩)
  have hSeat : seat ((rows.filter fun a => seat a = seat r).getLast hFull) = seat r :=
    of_decide_eq_true (List.mem_filter.mp (List.getLast_mem hFull)).2
  refine ⟨_, ?_, hSeat⟩
  rw [Stands, hSeat]
  exact List.getLast?_eq_some_getLast hFull

theorem arrange_perm (rows : List ρ) (prefers : ρ → Bool) : rows.Perm (arrange rows prefers) :=
  ((List.filter_append_perm prefers rows).symm).trans List.perm_append_comm

/-- A preferred row stands wherever its seat has one. -/
theorem Stands.preferred (h : Stands seat (arrange rows prefers) r) (hs : s ∈ rows) (hSeat : seat s = seat r)
    (hPreferred : prefers s = true) : prefers r = true := by
  rw [Stands, arrange, List.filter_append, List.getLast?_append] at h
  have hFull : (rows.filter prefers).filter (fun a => seat a = seat r) ≠ [] :=
    List.ne_nil_of_mem (List.mem_filter.mpr ⟨List.mem_filter.mpr ⟨hs, hPreferred⟩, decide_eq_true hSeat⟩)
  rw [List.getLast?_eq_some_getLast hFull, Option.some_or] at h
  have hMem := List.mem_filter.mp (List.getLast_mem hFull)
  rw [Option.some.inj h] at hMem
  exact (List.mem_filter.mp hMem.1).2

/-- Rows of one seat behind rows of other seats. -/
theorem stands_append (hOthers : ∀ a ∈ others, seat a ≠ seat s) (hOwn : ∀ a ∈ own, seat a = seat s)
    (hLast : own.getLast? = some s) : Stands seat (others ++ own) r ↔ Stands seat others r ∨ r = s := by
  have hOwnSeat : own.filter (fun a => seat a = seat s) = own :=
    List.filter_eq_self.mpr fun a ha => decide_eq_true (hOwn a ha)
  by_cases hSeat : seat r = seat s
  · have hNone : others.filter (fun a => seat a = seat s) = [] :=
      List.filter_eq_nil_iff.mpr fun a ha h => hOthers a ha (of_decide_eq_true h)
    rw [Stands, Stands, List.filter_append, hSeat, hNone, hOwnSeat, List.nil_append, hLast]
    simp [eq_comm]
  · have hNone : own.filter (fun a => seat a = seat r) = [] :=
      List.filter_eq_nil_iff.mpr fun a ha h => hSeat ((of_decide_eq_true h).symm.trans (hOwn a ha))
    rw [Stands, Stands, List.filter_append, hNone, List.append_nil]
    exact ⟨Or.inl, fun h => h.resolve_right fun hEq => hSeat (congrArg seat hEq)⟩

end Standing

section Values

variable (seat : ρ → σ) (val : ρ → Option κ)

def values (rows : List ρ) : Finset κ := ((Keyed.lastRows seat rows).filterMap fun row => val row.2).toFinset

/-- Another seat shows the value, whichever of its rows stands. -/
def ShownElsewhere (rows : List ρ) (k : σ) (x : κ) : Prop :=
  ∃ r ∈ rows, seat r ≠ k ∧ ∀ a ∈ rows, seat a = seat r → val a = some x

def OwnValue (rows : List ρ) (k : σ) (x : κ) : Prop := ∀ r ∈ rows, val r = some x → seat r = k

/-- Rows of one seat with two values show both elsewhere, or have both as values of their own. -/
def Steady (rows : List ρ) : Prop :=
  ∀ s ∈ rows, ∀ t ∈ rows, seat s = seat t → val s ≠ val t → ∀ x, val s = some x →
    ShownElsewhere seat val rows (seat s) x ∨
      ∃ y, val t = some y ∧ OwnValue seat val rows (seat s) x ∧ OwnValue seat val rows (seat s) y

/-- Every row of some seat has the value. -/
def Sure (rows : List ρ) (x : κ) : Prop := ∃ r ∈ rows, ∀ a ∈ rows, seat a = seat r → val a = some x

/-- The value stands for one that is not sure: they are values of one seat and of no other. -/
def Replaces (rows : List ρ) (x y : κ) : Prop :=
  ¬ Sure seat val rows x ∧ ∃ r ∈ rows, val r = some x ∧ OwnValue seat val rows (seat r) x ∧
    OwnValue seat val rows (seat r) y ∧ ∃ a ∈ rows, seat a = seat r ∧ val a = some y

variable {seat val} {rows xs ys : List ρ}

theorem mem_values {x : κ} : x ∈ values seat val rows ↔ ∃ r, Stands seat rows r ∧ val r = some x := by
  rw [values, List.mem_toFinset, List.mem_filterMap]
  constructor
  · rintro ⟨⟨k, r⟩, hRow, hVal⟩
    obtain ⟨-, rfl⟩ := Keyed.key_of_mem_lastRows hRow
    exact ⟨r, Keyed.mem_lastRows.mp hRow, hVal⟩
  · rintro ⟨r, hStands, hVal⟩
    exact ⟨(seat r, r), Keyed.mem_lastRows.mpr hStands, hVal⟩

theorem Sure.mem_values {x : κ} (hSure : Sure seat val xs x) (h : xs.Perm ys) : x ∈ values seat val ys := by
  obtain ⟨r, hr, hAll⟩ := hSure
  obtain ⟨a, hStands, hSeat⟩ := exists_stands seat (h.mem_iff.mp hr)
  exact Choices.mem_values.mpr ⟨a, hStands, hAll a (h.mem_iff.mpr hStands.mem) hSeat⟩

theorem exists_other_of_not_sure {r : ρ} {x : κ} (hSure : ¬ Sure seat val rows x) (hr : r ∈ rows) (hVal : val r = some x) :
    ∃ a ∈ rows, seat r = seat a ∧ val r ≠ val a := by
  by_contra hNone
  refine hSure ⟨r, hr, fun a ha hSeat => ?_⟩
  by_contra hOther
  exact hNone ⟨a, ha, hSeat.symm, fun hSame => hOther (hSame ▸ hVal)⟩

/-- A value that one order shows without being sure is replaced in any other by one that this order shows. -/
theorem exists_replaces (hSteady : Steady seat val xs) (h : xs.Perm ys) {x : κ} (hx : x ∈ values seat val xs)
    (hSure : ¬ Sure seat val xs x) : ∃ y ∈ values seat val ys, Replaces seat val xs x y := by
  obtain ⟨r, hStands, hVal⟩ := mem_values.mp hx
  have hNowhere : ¬ ShownElsewhere seat val xs (seat r) x := fun ⟨w, hw, _, hAll⟩ => hSure ⟨w, hw, hAll⟩
  obtain ⟨v, hv, hSeat⟩ := exists_stands seat (h.mem_iff.mp hStands.mem)
  have hvMem := h.mem_iff.mpr hv.mem
  by_cases hSame : val r = val v
  · obtain ⟨w, hw, hwSeat, hwVal⟩ := exists_other_of_not_sure hSure hStands.mem hVal
    obtain ⟨_, _, hOwn, _⟩ := (hSteady r hStands.mem w hw hwSeat hwVal x hVal).resolve_left hNowhere
    exact ⟨x, mem_values.mpr ⟨v, hv, hSame ▸ hVal⟩, hSure, r, hStands.mem, hVal, hOwn, hOwn, r, hStands.mem, rfl, hVal⟩
  · obtain ⟨y, hy, hOwn, hOwnY⟩ := (hSteady r hStands.mem v hvMem hSeat.symm hSame x hVal).resolve_left hNowhere
    exact ⟨y, mem_values.mpr ⟨v, hv, hy⟩, hSure, r, hStands.mem, hVal, hOwn, hOwnY, v, hvMem, hSeat, hy⟩

omit [DecidableEq σ] [DecidableEq κ] in
theorem Replaces.not_sure {x y : κ} (h : Replaces seat val rows x y) : ¬ Sure seat val rows y := by
  rintro ⟨w, hw, hAll⟩
  obtain ⟨hSure, r, hr, hVal, -, hOwn, -⟩ := h
  have hSeat : seat w = seat r := hOwn w hw (hAll w hw rfl)
  have hSame : y = x := Option.some.inj ((hAll r hr hSeat.symm).symm.trans hVal)
  exact hSure (hSame ▸ ⟨w, hw, hAll⟩)

/-- Only one of the values that are shown is replaced by a value. -/
theorem Replaces.unique {x y z : κ} (h : Replaces seat val rows x y) (h' : Replaces seat val rows z y)
    (hx : x ∈ values seat val rows) (hz : z ∈ values seat val rows) : x = z := by
  obtain ⟨-, r, -, -, hOwnX, -, a, ha, hSeatA, hValA⟩ := h
  obtain ⟨-, s, -, -, hOwnZ, hOwnY, -⟩ := h'
  have hSeat : seat r = seat s := hSeatA.symm.trans (hOwnY a ha hValA)
  obtain ⟨v, hv, hValV⟩ := mem_values.mp hx
  obtain ⟨w, hw, hValW⟩ := mem_values.mp hz
  have hSame : v = w := hv.unique hw
    ((hOwnX v hv.mem hValV).trans (hSeat.trans (hOwnZ w hw.mem hValW).symm))
  exact Option.some.inj (hValV.symm.trans (hSame ▸ hValW))

theorem card_values_le (hSteady : Steady seat val xs) (h : xs.Perm ys) :
    (values seat val xs).card ≤ (values seat val ys).card := by
  refine Finset.card_le_card_of_forall_subsingleton
    (fun x y => (Sure seat val xs x ∧ x = y) ∨ Replaces seat val xs x y) (fun x hx => ?_) fun y _ x hx z hz => ?_
  · by_cases hSure : Sure seat val xs x
    · exact ⟨x, hSure.mem_values h, .inl ⟨hSure, rfl⟩⟩
    · obtain ⟨y, hy, hReplaces⟩ := exists_replaces hSteady h hx hSure
      exact ⟨y, hy, .inr hReplaces⟩
  · obtain ⟨hx, ⟨hSureX, rfl⟩ | hX⟩ := hx
    · obtain ⟨-, ⟨-, hEq⟩ | hZ⟩ := hz
      · exact hEq.symm
      · exact absurd hSureX hZ.not_sure
    · obtain ⟨hz, ⟨hSureZ, rfl⟩ | hZ⟩ := hz
      · exact absurd hSureZ hX.not_sure
      · exact hX.unique hZ hx hz

/-! ### Orders that tell two rows apart -/

/-- The rows of the other seats, with the preferred ones behind, and a row of a seat behind its others. -/
theorem exists_order {k : σ} {s : ρ} (hs : s ∈ rows) (hSeat : seat s = k) (prefers : ρ → Bool) :
    ∃ order, rows.Perm order ∧ values seat val order =
      values seat val ((arrange rows prefers).filter fun r => seat r ≠ k) ∪ (val s).toFinset := by
  obtain ⟨front, back, hSplit⟩ := List.append_of_mem (List.mem_filter.mpr ⟨hs, decide_eq_true hSeat⟩ :
    s ∈ rows.filter fun r => seat r = k)
  have hOwn : (rows.filter fun r => seat r = k).Perm (front ++ back ++ [s]) := by
    rw [hSplit]
    exact List.perm_middle.trans (List.perm_append_singleton s _).symm
  refine ⟨(arrange rows prefers).filter (fun r => seat r ≠ k) ++ (front ++ back ++ [s]), ?_, ?_⟩
  · have hRows : rows.Perm ((rows.filter fun r => seat r ≠ k) ++ rows.filter fun r => seat r = k) := by
      have hPerm := (List.filter_append_perm (fun r => decide (seat r = k)) rows).symm.trans List.perm_append_comm
      simpa using hPerm
    exact hRows.trans (((arrange_perm rows prefers).filter _).append hOwn)
  · have hLast : (front ++ back ++ [s]).getLast? = some s := List.getLast?_concat
    ext x
    rw [Finset.mem_union, mem_values, mem_values, Option.mem_toFinset, Option.mem_def]
    have hStands : ∀ r, Stands seat ((arrange rows prefers).filter (fun r => seat r ≠ k) ++ (front ++ back ++ [s])) r ↔
        Stands seat ((arrange rows prefers).filter fun r => seat r ≠ k) r ∨ r = s := fun r =>
      stands_append (fun a ha => hSeat ▸ of_decide_eq_true (List.mem_filter.mp ha).2)
        (fun a ha => hSeat ▸ of_decide_eq_true (List.mem_filter.mp (hOwn.mem_iff.mpr ha)).2) hLast
    constructor
    · rintro ⟨r, hr, hVal⟩
      obtain hr | rfl := (hStands r).mp hr
      · exact .inl ⟨r, hr, hVal⟩
      · exact .inr hVal
    · rintro (⟨r, hr, hVal⟩ | hVal)
      · exact ⟨r, (hStands r).mpr (.inl hr), hVal⟩
      · exact ⟨s, (hStands s).mpr (.inr rfl), hVal⟩

/-- The order of the rows does not decide how many values there are. -/
def Constant (seat : ρ → σ) (val : ρ → Option κ) (rows : List ρ) : Prop :=
  ∀ order, rows.Perm order → (values seat val order).card = (values seat val rows).card

/-- Rows of one seat bring as many new values to the others. -/
theorem Constant.card_union (h : Constant seat val rows) {s t : ρ} (hs : s ∈ rows) (ht : t ∈ rows)
    (hSeat : seat s = seat t) (prefers : ρ → Bool) :
    (values seat val ((arrange rows prefers).filter fun r => seat r ≠ seat s) ∪ (val s).toFinset).card =
      (values seat val ((arrange rows prefers).filter fun r => seat r ≠ seat s) ∪ (val t).toFinset).card := by
  obtain ⟨xs, hxs, hx⟩ : ∃ order, rows.Perm order ∧ values seat val order = _ := exists_order hs rfl prefers
  obtain ⟨ys, hys, hy⟩ : ∃ order, rows.Perm order ∧ values seat val order = _ := exists_order ht hSeat.symm prefers
  rw [← hx, ← hy, h xs hxs, h ys hys]

section Others

variable {k : σ} {x : κ} {prefers : ρ → Bool}

theorem stands_others {r : ρ} : Stands seat ((arrange rows prefers).filter fun a => seat a ≠ k) r ↔
    seat r ≠ k ∧ Stands seat (arrange rows prefers) r := by
  by_cases hSeat : seat r = k
  · refine iff_of_false (fun h => ?_) fun h => h.1 hSeat
    exact of_decide_eq_true (List.mem_filter.mp h.mem).2 hSeat
  · rw [Stands, List.filter_filter, and_iff_right hSeat, Stands]
    refine Eq.congr_left (congrArg List.getLast? (List.filter_congr fun a _ => ?_))
    by_cases hSame : seat a = seat r
    · simp [hSame, hSeat]
    · simp [hSame]

/-- A value that no preferred row has is not shown where every seat has a preferred row. -/
theorem not_mem_others (hSeats : ∀ r ∈ rows, seat r ≠ k → ∃ a ∈ rows, seat a = seat r ∧ prefers a = true)
    (hVal : ∀ a, prefers a = true → val a ≠ some x) :
    x ∉ values seat val ((arrange rows prefers).filter fun a => seat a ≠ k) := by
  intro hx
  obtain ⟨r, hStands, hr⟩ := mem_values.mp hx
  obtain ⟨hSeat, hStands⟩ := stands_others.mp hStands
  obtain ⟨a, ha, hSame, hPrefers⟩ := hSeats r ((arrange_perm rows prefers).mem_iff.mpr hStands.mem) hSeat
  exact hVal r (hStands.preferred ha hSame hPrefers) hr

/-- The value of the preferred rows of a seat is shown. -/
theorem mem_others {r : ρ} (hr : r ∈ rows) (hSeat : seat r ≠ k) (hPrefers : prefers r = true)
    (hVal : ∀ a ∈ rows, seat a = seat r → prefers a = true → val a = some x) :
    x ∈ values seat val ((arrange rows prefers).filter fun a => seat a ≠ k) := by
  obtain ⟨a, hStands, hSame⟩ := exists_stands seat ((arrange_perm rows prefers).mem_iff.mp hr)
  refine mem_values.mpr ⟨a, stands_others.mpr ⟨fun h => hSeat (hSame ▸ h), hStands⟩, ?_⟩
  exact hVal a ((arrange_perm rows prefers).mem_iff.mpr hStands.mem) hSame (hStands.preferred hr hSame.symm hPrefers)

end Others

/-- A row with a value that is not shown elsewhere can be put where no seat shows the value. -/
theorem exists_without {k : σ} {x : κ} (h : ¬ ShownElsewhere seat val rows k x) {r : ρ} (hr : r ∈ rows)
    (hSeat : seat r ≠ k) : ∃ a ∈ rows, seat a = seat r ∧ val a ≠ some x := by
  by_contra hAll
  exact h ⟨r, hr, hSeat, fun a ha hSame => by_contra fun hVal => hAll ⟨a, ha, hSame, hVal⟩⟩

variable {s t : ρ} {x y : κ}

/-- If the number of values is constant, a value that is not shown elsewhere is exchanged for another such value. -/
theorem Constant.other_value (h : Constant seat val rows) (hs : s ∈ rows) (ht : t ∈ rows) (hSeat : seat s = seat t)
    (hNe : val s ≠ val t) (hx : val s = some x) (hNowhere : ¬ ShownElsewhere seat val rows (seat s) x) :
    ∃ y, val t = some y ∧ ¬ ShownElsewhere seat val rows (seat s) y := by
  have hCard := h.card_union hs ht hSeat fun r => val r ≠ some x
  have hNew : x ∉ values seat val ((arrange rows fun r => val r ≠ some x).filter fun r => seat r ≠ seat s) :=
    not_mem_others (fun r hr hOther => by simpa using exists_without hNowhere hr hOther) fun a ha => by simpa using ha
  rw [hx, Option.toFinset_some, Finset.union_comm, ← Finset.insert_eq, Finset.card_insert_of_notMem hNew] at hCard
  cases hy : val t with
  | none =>
    rw [hy, Option.toFinset_none, Finset.union_empty] at hCard
    exact absurd hCard (Nat.succ_ne_self _)
  | some y =>
    refine ⟨y, rfl, fun ⟨r, hr, hOther, hAll⟩ => ?_⟩
    have hOld : y ∈ values seat val ((arrange rows fun r => val r ≠ some x).filter fun r => seat r ≠ seat s) := by
      refine mem_others hr hOther ?_ fun a ha hSame _ => hAll a ha hSame
      rw [hAll r hr rfl]
      simpa using fun hEq : y = x => hNe (by rw [hx, hy, hEq])
    rw [hy, Option.toFinset_some, Finset.union_comm, ← Finset.insert_eq, Finset.insert_eq_of_mem hOld] at hCard
    exact absurd hCard (Nat.succ_ne_self _)

/-- If the number of values is constant, a value is not exchanged for one that another seat may show. -/
theorem Constant.own_value (h : Constant seat val rows) (hs : s ∈ rows) (ht : t ∈ rows) (hSeat : seat s = seat t)
    (hx : val s = some x) (hy : val t = some y) (hNe : x ≠ y) (hNowhere : ¬ ShownElsewhere seat val rows (seat s) y) :
    OwnValue seat val rows (seat s) x := by
  intro r hr hVal
  by_contra hOther
  -- One order puts the row with the value where it stands, and keeps the other value from every seat.
  let prefers (a : ρ) : Bool := if seat a = seat r then val a = some x else val a ≠ some y
  have hOld : x ∈ values seat val ((arrange rows prefers).filter fun a => seat a ≠ seat s) :=
    mem_others hr hOther (by simp [prefers, hVal]) fun a _ hSame ha => by simpa [prefers, hSame] using ha
  have hNew : y ∉ values seat val ((arrange rows prefers).filter fun a => seat a ≠ seat s) := by
    refine not_mem_others (fun a ha hSeatA => ?_) fun a ha => ?_
    · by_cases hSame : seat a = seat r
      · exact ⟨r, hr, hSame.symm, by simp [prefers, hVal]⟩
      · obtain ⟨b, hb, hSeatB, hValB⟩ := exists_without hNowhere ha hSeatA
        exact ⟨b, hb, hSeatB, by simp [prefers, hSeatB, hSame, hValB]⟩
    · by_cases hSame : seat a = seat r
      · have hValA : val a = some x := by simpa [prefers, hSame] using ha
        rw [hValA]
        exact fun hEq => hNe (Option.some.inj hEq)
      · simpa [prefers, hSame] using ha
  have hCard := h.card_union hs ht hSeat prefers
  rw [hx, hy, Option.toFinset_some, Option.toFinset_some, Finset.union_comm, ← Finset.insert_eq,
    Finset.insert_eq_of_mem hOld, Finset.union_comm, ← Finset.insert_eq, Finset.card_insert_of_notMem hNew] at hCard
  exact Nat.succ_ne_self _ hCard.symm

/-- The order of the rows does not decide the number of values exactly if the seats are steady. -/
theorem constant_iff_steady : Constant seat val rows ↔ Steady seat val rows := by
  constructor
  · intro h s hs t ht hSeat hNe x hx
    by_cases hShown : ShownElsewhere seat val rows (seat s) x
    · exact .inl hShown
    · obtain ⟨y, hy, hNowhere⟩ := h.other_value hs ht hSeat hNe hx hShown
      have hValues : x ≠ y := fun hEq => hNe (by rw [hx, hy, hEq])
      refine .inr ⟨y, hy, h.own_value hs ht hSeat hx hy hValues hNowhere, ?_⟩
      have hOwn := h.own_value ht hs hSeat.symm hy hx hValues.symm (hSeat ▸ hShown)
      rwa [← hSeat] at hOwn
  · intro h order hPerm
    have hOrder : Steady seat val order := by
      simpa only [Steady, ShownElsewhere, OwnValue, hPerm.mem_iff] using h
    exact Nat.le_antisymm (card_values_le hOrder hPerm.symm) (card_values_le h hPerm)

/-- Seats that show only themselves are steady if their rows agree. -/
theorem steady_iff_of_own {val : ρ → Option σ} (hOwn : ∀ r x, val r = some x → x = seat r) :
    Steady seat val rows ↔ ∀ s ∈ rows, ∀ t ∈ rows, seat s = seat t → val s = val t := by
  constructor
  · intro h s hs t ht hSeat
    have hSome : ∀ {s t : ρ}, s ∈ rows → t ∈ rows → seat s = seat t → val s ≠ val t → ∀ x, val s ≠ some x := by
      intro s t hs ht hSeat hNe x hx
      obtain ⟨r, hr, hOther, hAll⟩ | ⟨y, hy, -⟩ := h s hs t ht hSeat hNe x hx
      · exact hOther ((hOwn r x (hAll r hr rfl)).symm.trans (hOwn s x hx))
      · refine hNe ?_
        rw [hx, hy, hOwn s x hx, hOwn t y hy, hSeat]
    by_contra hNe
    cases hx : val s with
    | some x => exact hSome hs ht hSeat hNe x hx
    | none =>
      cases hy : val t with
      | some y => exact hSome ht hs hSeat.symm (Ne.symm hNe) y hy
      | none => exact hNe (hx.trans hy.symm)
  · exact fun h s hs t ht hSeat hNe => absurd (h s hs t ht hSeat) hNe

end Values

end Choices
