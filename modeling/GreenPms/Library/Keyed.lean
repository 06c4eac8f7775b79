import Mathlib.Data.List.Nodup
import GreenPms.Library.Indexes

/-! # Rows by key

A map keeps one row for each key, in the order in which the keys came first. Writing a key changes
its row in place, or appends one.
-/

namespace Keyed

variable {α β κ : Type*} [DecidableEq κ]

/-- The row of a key is written from the value before, if there is one. -/
def alter (k : κ) (f : Option β → β) : List (κ × β) → List (κ × β)
  | [] => [(k, f none)]
  | row :: rest => if row.1 = k then (k, f (some row.2)) :: rest else row :: alter k f rest

def valueAt (k : κ) (rows : List (κ × β)) : Option β := (rows.find? fun row => row.1 = k).map Prod.snd

variable {k j : κ} {f : Option β → β} {rows : List (κ × β)}

theorem mem_alter_keys : j ∈ (alter k f rows).map Prod.fst ↔ j ∈ rows.map Prod.fst ∨ j = k := by
  induction rows with
  | nil => simp [alter]
  | cons row rest ih =>
    rw [alter]
    split
    case isTrue hKey =>
      subst hKey
      rw [List.map_cons, List.map_cons, List.mem_cons]
      exact ⟨Or.inl, fun h => h.elim id Or.inl⟩
    case isFalse =>
      rw [List.map_cons, List.mem_cons, ih, List.map_cons, List.mem_cons]
      exact or_assoc.symm

theorem alter_keyed (h : (rows.map Prod.fst).Nodup) : ((alter k f rows).map Prod.fst).Nodup := by
  induction rows with
  | nil => simp [alter]
  | cons row rest ih =>
    obtain ⟨hNew, hRest⟩ := List.nodup_cons.mp h
    rw [alter]
    split
    case isTrue hKey =>
      subst hKey
      exact h
    case isFalse hKey =>
      refine List.nodup_cons.mpr ⟨fun hMem => ?_, ih hRest⟩
      obtain hOld | hSame := mem_alter_keys.mp hMem
      · exact hNew hOld
      · exact hKey hSame

theorem valueAt_alter : valueAt j (alter k f rows) = if k = j then some (f (valueAt k rows)) else valueAt j rows := by
  induction rows with
  | nil => by_cases h : k = j <;> simp [alter, valueAt, h]
  | cons row rest ih =>
    rw [alter]
    by_cases hKey : row.1 = k
    · by_cases h : k = j
      · simp [valueAt, hKey, h]
      · simp [valueAt, hKey, h]
    · rw [if_neg hKey]
      by_cases hRow : row.1 = j
      · have hNe : k ≠ j := fun h => hKey (hRow.trans h.symm)
        simp [valueAt, hRow, hNe]
      · have hSkip : ∀ r : List (κ × β), valueAt j (row :: r) = valueAt j r := fun r => by simp [valueAt, hRow]
        have hSkipKey : valueAt k (row :: rest) = valueAt k rest := by simp [valueAt, hKey]
        rw [hSkip, hSkip, hSkipKey, ih]

theorem valueAt_eq_some (h : (rows.map Prod.fst).Nodup) {v : β} : valueAt k rows = some v ↔ (k, v) ∈ rows := by
  induction rows with
  | nil => simp [valueAt]
  | cons row rest ih =>
    obtain ⟨hNew, hRest⟩ := List.nodup_cons.mp h
    by_cases hKey : row.1 = k
    · have hOther : (k, v) ∉ rest := fun hMem => hNew (hKey ▸ List.mem_map_of_mem (f := Prod.fst) hMem)
      obtain ⟨k', w⟩ := row
      subst hKey
      simp [valueAt, hOther, eq_comm]
    · have hSkip : valueAt k (row :: rest) = valueAt k rest := by simp [valueAt, hKey]
      have hNe : (k, v) ≠ row := fun hEq => hKey (congrArg Prod.fst hEq.symm)
      rw [hSkip, ih hRest, List.mem_cons, or_iff_right hNe]

theorem filter_eq_valueAt (h : (rows.map Prod.fst).Nodup) (k : κ) :
    rows.filter (fun row => row.1 = k) = ((valueAt k rows).map fun v => (k, v)).toList := by
  induction rows with
  | nil => rfl
  | cons row rest ih =>
    obtain ⟨hNew, hRest⟩ := List.nodup_cons.mp h
    by_cases hKey : row.1 = k
    · have hOther : rest.filter (fun row => row.1 = k) = [] := by
        refine List.filter_eq_nil_iff.mpr fun other hOther => ?_
        intro hSame
        refine hNew (List.mem_map.mpr ⟨other, hOther, ?_⟩)
        exact (of_decide_eq_true hSame).trans hKey.symm
      obtain ⟨j, v⟩ := row
      subst hKey
      simp [valueAt, hOther]
    · have hSkip : valueAt k (row :: rest) = valueAt k rest := by simp [valueAt, hKey]
      rw [hSkip, ← ih hRest]
      simp [hKey]

/-! ## Tallies -/

/-- The loop that works every row into the value of its key. -/
def tally (key : α → κ) (step : α → Option β → β) (rows : List (κ × β)) (xs : List α) : List (κ × β) :=
  xs.foldl (fun rows x => alter (key x) (step x) rows) rows

variable {key : α → κ} {step : α → Option β → β} {xs : List α}

theorem tally_keyed (h : (rows.map Prod.fst).Nodup) : ((tally key step rows xs).map Prod.fst).Nodup := by
  induction xs generalizing rows with
  | nil => exact h
  | cons x xs ih => exact ih (alter_keyed h)

theorem mem_tally_keys :
    j ∈ (tally key step rows xs).map Prod.fst ↔ j ∈ rows.map Prod.fst ∨ j ∈ xs.map key := by
  induction xs generalizing rows with
  | nil => simp [tally]
  | cons x xs ih =>
    rw [tally, List.foldl_cons, ← tally, ih, mem_alter_keys, List.map_cons, List.mem_cons]
    exact or_assoc

/-- The value of a key is what its rows make, one after the other, of the value before. -/
theorem valueAt_tally : valueAt j (tally key step rows xs) =
    (xs.filter fun x => key x = j).foldl (fun v x => some (step x v)) (valueAt j rows) := by
  induction xs generalizing rows with
  | nil => rfl
  | cons x xs ih =>
    rw [tally, List.foldl_cons, ← tally, ih, valueAt_alter]
    by_cases h : key x = j
    · simp [h]
    · simp [h]

/-- The keys of the rows with what these make of nothing. -/
theorem tally_perm [BEq κ] [LawfulBEq κ] {value : κ → β} (h : ∀ k ∈ xs.map key,
    (xs.filter fun x => key x = k).foldl (fun v x => some (step x v)) none = some (value k)) :
    (tally key step [] xs).Perm ((xs.map key).eraseDups.map fun k => (k, value k)) := by
  have hKeyed : ((tally key step [] xs).map Prod.fst).Nodup :=
    tally_keyed (show (([] : List (κ × β)).map Prod.fst).Nodup from List.nodup_nil)
  refine (List.perm_ext_iff_of_nodup (List.Nodup.of_map _ hKeyed) ?_).mpr fun row => ?_
  · refine List.Nodup.of_map Prod.fst ?_
    rw [List.map_map]
    exact (List.map_id _).symm ▸ Indexes.nodup_eraseDups _
  · obtain ⟨k, v⟩ := row
    rw [← valueAt_eq_some hKeyed, valueAt_tally, List.mem_map]
    constructor
    · intro hValue
      have hIn : k ∈ xs.map key := by
        by_contra hOut
        have hNone : (xs.filter fun x => key x = k) = [] := List.filter_eq_nil_iff.mpr fun x hx hKey =>
          hOut (List.mem_map.mpr ⟨x, hx, of_decide_eq_true hKey⟩)
        rw [hNone] at hValue
        cases hValue
      exact ⟨k, List.mem_eraseDups.mpr hIn, Prod.ext rfl (Option.some.inj ((h k hIn).symm.trans hValue))⟩
    · rintro ⟨j, hj, hEq⟩
      obtain ⟨rfl, rfl⟩ := Prod.mk.inj hEq
      exact h j (List.mem_eraseDups.mp hj)

/-! ## The last row of each key -/

def lastRows (key : α → κ) (xs : List α) : List (κ × α) := tally key (fun x _ => x) [] xs

/-- One row for each key: a later row takes the place of an earlier one. -/
def lastByKey (key : α → κ) (xs : List α) : List α := (lastRows key xs).map Prod.snd

theorem lastRows_keyed (key : α → κ) (xs : List α) : ((lastRows key xs).map Prod.fst).Nodup :=
  tally_keyed (show (([] : List (κ × α)).map Prod.fst).Nodup from List.nodup_nil)

theorem mem_lastRows {x : α} : (j, x) ∈ lastRows key xs ↔ (xs.filter fun y => key y = j).getLast? = some x := by
  have hLast : ∀ (ys : List α) (v : Option α), ys.foldl (fun _ y => some y) v = ys.getLast?.or v := by
    intro ys
    induction ys with
    | nil => exact fun v => rfl
    | cons y ys ih =>
      intro v
      rw [List.foldl_cons, ih, List.getLast?_cons]
      cases ys.getLast? <;> rfl
  rw [← valueAt_eq_some (lastRows_keyed key xs), lastRows, valueAt_tally, hLast]
  exact Eq.congr_left Option.or_none

theorem key_of_mem_lastRows {x : α} (h : (j, x) ∈ lastRows key xs) : x ∈ xs ∧ key x = j := by
  obtain ⟨hMem, hKey⟩ := List.mem_filter.mp (List.mem_of_getLast? (mem_lastRows.mp h))
  exact ⟨hMem, of_decide_eq_true hKey⟩

theorem mem_lastByKey {x : α} : x ∈ lastByKey key xs ↔ (xs.filter fun y => key y = key x).getLast? = some x := by
  rw [← mem_lastRows, lastByKey, List.mem_map]
  constructor
  · rintro ⟨⟨j, y⟩, hMem, rfl⟩
    rwa [(key_of_mem_lastRows hMem).2]
  · exact fun hMem => ⟨_, hMem, rfl⟩

theorem lastByKey_map_key : (lastByKey key xs).map key = (lastRows key xs).map Prod.fst := by
  rw [lastByKey, List.map_map]
  exact List.map_congr_left fun row hRow => (key_of_mem_lastRows hRow).2

theorem lastByKey_nodup : ((lastByKey key xs).map key).Nodup := by
  rw [lastByKey_map_key]
  exact lastRows_keyed key xs

theorem mem_of_mem_lastByKey {x : α} (h : x ∈ lastByKey key xs) : x ∈ xs :=
  (List.mem_filter.mp (List.mem_of_getLast? (mem_lastByKey.mp h))).1

theorem mem_lastByKey_keys : j ∈ (lastByKey key xs).map key ↔ j ∈ xs.map key := by
  rw [lastByKey_map_key, lastRows, mem_tally_keys]
  simp

end Keyed
