import Mathlib.Algebra.Ring.Int.Defs
import Mathlib.Algebra.BigOperators.Group.List.Basic
import Mathlib.Data.List.Nodup

/-! # Totals over keyed lists

The total of a weight over the rows of a table that satisfy a condition, how it changes when one
row is added or one row stops counting, and the total of group totals.
-/

namespace Totals

variable {α β κ : Type*}

def total (p : α → Bool) (w : α → Int) (xs : List α) : Int := (xs.map fun x => if p x then w x else 0).sum

variable {p q : α → Bool} {v w : α → Int} {xs : List α}

@[simp] theorem total_nil : total p w [] = 0 := rfl

theorem total_cons (p : α → Bool) (w : α → Int) (x : α) (xs : List α) :
    total p w (x :: xs) = (if p x then w x else 0) + total p w xs := by
  simp [total]

theorem total_cons_pos {x : α} (h : p x = true) : total p w (x :: xs) = w x + total p w xs := by
  simp [total_cons, h]

theorem total_congr (hp : ∀ x ∈ xs, p x = q x) (hw : ∀ x ∈ xs, p x = true → v x = w x) :
    total p v xs = total q w xs := by
  refine congrArg List.sum (List.map_congr_left fun x hx => ?_)
  rw [← hp x hx]
  split
  · next hIn => exact hw x hx hIn
  · rfl

theorem total_eq_zero (h : ∀ x ∈ xs, p x = true → w x = 0) : total p w xs = 0 := by
  refine List.sum_eq_zero fun n hn => ?_
  obtain ⟨x, hx, rfl⟩ := List.mem_map.mp hn
  split
  · next hIn => exact h x hx hIn
  · rfl

theorem total_nonneg (h : ∀ x ∈ xs, p x = true → 0 ≤ w x) : 0 ≤ total p w xs := by
  induction xs with
  | nil => exact Int.le_refl 0
  | cons x xs ih =>
    obtain ⟨hx, hxs⟩ := List.forall_mem_cons.mp h
    have hRest := ih hxs
    rw [total_cons]
    split
    · next hIn =>
      have hHead := hx hIn
      omega
    · omega

theorem total_pos (h : ∀ x ∈ xs, p x = true → 0 ≤ w x) {x : α} (hx : x ∈ xs) (hp : p x = true)
    (hw : 0 < w x) : 0 < total p w xs := by
  induction xs with
  | nil => cases hx
  | cons y xs ih =>
    obtain ⟨hy, hxs⟩ := List.forall_mem_cons.mp h
    have hRest := total_nonneg hxs
    obtain rfl | hx := List.mem_cons.mp hx
    · rw [total_cons_pos hp]
      omega
    · have hTail := ih hxs hx
      rw [total_cons]
      split
      · next hIn =>
        have hHead := hy hIn
        omega
      · omega

theorem total_le (h : ∀ x ∈ xs, (if p x then v x else 0) ≤ if q x then w x else 0) : total p v xs ≤ total q w xs := by
  induction xs with
  | nil => exact Int.le_refl 0
  | cons x xs ih =>
    obtain ⟨hx, hxs⟩ := List.forall_mem_cons.mp h
    have hRest := ih hxs
    rw [total_cons, total_cons]
    omega

theorem total_sub (p : α → Bool) (v w : α → Int) (xs : List α) :
    total p (fun x => v x - w x) xs = total p v xs - total p w xs := by
  induction xs with
  | nil => rfl
  | cons x xs ih =>
    simp only [total_cons, ih]
    split <;> omega

theorem total_filter (p q : α → Bool) (w : α → Int) (xs : List α) :
    total p w (xs.filter q) = total (fun x => q x && p x) w xs := by
  induction xs with
  | nil => rfl
  | cons x xs ih =>
    rw [List.filter_cons, total_cons, ← ih]
    cases q x <;> simp [total_cons]

theorem total_split (p q : α → Bool) (w : α → Int) (xs : List α) :
    total p w xs = total (fun x => p x && q x) w xs + total (fun x => p x && !q x) w xs := by
  induction xs with
  | nil => rfl
  | cons x xs ih =>
    simp only [total_cons, ih]
    cases p x <;> cases q x <;> simp <;> omega

/-- A constant weight counts. -/
theorem total_const (p : α → Bool) (n : Int) (xs : List α) : total p (fun _ => n) xs = n * xs.countP p := by
  induction xs with
  | nil => simp
  | cons x xs ih =>
    rw [total_cons, ih, List.countP_cons]
    cases p x
    · simp
    · simp only [if_true, Int.natCast_add, Int.natCast_one, Int.mul_add, Int.mul_one]
      omega

/-- Two weightings that differ at one row of a keyed list. -/
theorem total_change {key : α → κ} (hKeys : (xs.map key).Nodup) {x : α} (hx : x ∈ xs)
    (hSame : ∀ y ∈ xs, key y ≠ key x → (if p y then v y else 0) = if q y then w y else 0) :
    total p v xs + (if q x then w x else 0) = total q w xs + if p x then v x else 0 := by
  induction xs with
  | nil => cases hx
  | cons y ys ih =>
    obtain ⟨hNew, hKeys⟩ := List.nodup_cons.mp hKeys
    obtain ⟨hHead, hRest⟩ := List.forall_mem_cons.mp hSame
    rw [total_cons, total_cons]
    obtain rfl | hx := List.mem_cons.mp hx
    · have hTail : total p v ys = total q w ys := by
        refine congrArg List.sum (List.map_congr_left fun z hz => hRest z hz fun hEq => hNew ?_)
        exact List.mem_map.mpr ⟨z, hz, hEq⟩
      rw [hTail]
      omega
    · have hOther : key y ≠ key x := fun hEq => hNew (List.mem_map.mpr ⟨x, hx, hEq.symm⟩)
      have hTail := ih hKeys hx hRest
      rw [hHead hOther]
      omega

/-- One row that stops counting. -/
theorem total_drop {key : α → κ} [DecidableEq κ] (hKeys : (xs.map key).Nodup) {x : α} (hx : x ∈ xs) :
    total (fun y => p y && key y ≠ key x) w xs = total p w xs - if p x then w x else 0 := by
  have hChange : total (fun y => p y && key y ≠ key x) w xs + (if p x then w x else 0) =
      total p w xs + if p x && key x ≠ key x then w x else 0 :=
    total_change hKeys hx fun y _ hOther => by simp [hOther]
  have hOff : (p x && key x ≠ key x) = false := by simp
  rw [hOff, if_neg Bool.false_ne_true] at hChange
  omega

/-- The only row with its key. -/
theorem total_key {key : α → κ} [DecidableEq κ] (hKeys : (xs.map key).Nodup) {x : α} (hx : x ∈ xs)
    (hp : p x = true) : total (fun y => p y && key y = key x) w xs = w x := by
  have hChange := total_change (p := fun y => p y && key y = key x) (q := fun _ => false) (v := w) (w := w)
    hKeys hx fun y _ hOther => by simp [hOther]
  rw [total_eq_zero (p := fun _ => false) fun _ _ h => nomatch h] at hChange
  simpa [hp] using hChange

/-- The row of a key that occurs once. -/
theorem total_single {key : β → κ} [DecidableEq κ] {ys : List β} (hKeys : (ys.map key).Nodup) {k : κ}
    (hk : k ∈ ys.map key) (q : κ → Bool) (n : Int) :
    total (fun y => q (key y)) (fun y => if key y = k then n else 0) ys = if q k then n else 0 := by
  induction ys with
  | nil => cases hk
  | cons y ys ih =>
    obtain ⟨hNew, hKeys⟩ := List.nodup_cons.mp hKeys
    rw [total_cons]
    by_cases hHere : key y = k
    · subst hHere
      rw [total_eq_zero, if_pos rfl, Int.add_zero]
      intro z hz _
      refine if_neg fun hEq : key z = key y => hNew ?_
      rw [← hEq]
      exact List.mem_map_of_mem hz
    · have hk : k ∈ ys.map key := by
        obtain hHead | hTail := List.mem_cons.mp hk
        · exact absurd hHead.symm hHere
        · exact hTail
      rw [if_neg hHere, ih hKeys hk]
      simp

/-- The totals of the groups of the chosen keys add up to the total of the rows whose key is
chosen. -/
theorem total_groups {key : β → κ} [DecidableEq κ] {ys : List β} (hKeys : (ys.map key).Nodup)
    {k : α → Option κ} (hGroups : ∀ x ∈ xs, p x = true → ∃ a, k x = some a ∧ a ∈ ys.map key)
    (q : κ → Bool) :
    total (fun y => q (key y)) (fun y => total (fun x => p x && k x = some (key y)) w xs) ys =
      total (fun x => p x && (k x).any q) w xs := by
  induction xs with
  | nil => exact total_eq_zero fun _ _ _ => rfl
  | cons x xs ih =>
    obtain ⟨hHead, hRest⟩ := List.forall_mem_cons.mp hGroups
    have hSplit : ∀ y, total (fun x => p x && k x = some (key y)) w (x :: xs) =
        (if p x && k x = some (key y) then w x else 0) - (- total (fun x => p x && k x = some (key y)) w xs) := by
      intro y
      rw [total_cons]
      omega
    have hNeg : total (fun y => q (key y)) (fun y => - total (fun x => p x && k x = some (key y)) w xs) ys =
        - total (fun y => q (key y)) (fun y => total (fun x => p x && k x = some (key y)) w xs) ys := by
      have hZero := total_sub (fun y => q (key y)) (fun _ => 0)
        (fun y => total (fun x => p x && k x = some (key y)) w xs) ys
      rw [total_eq_zero (w := fun _ => 0) fun _ _ _ => rfl] at hZero
      simpa using hZero
    simp only [hSplit, total_sub, hNeg, ih hRest]
    rw [total_cons]
    cases hIn : p x with
    | false => simp [total_eq_zero]
    | true =>
      obtain ⟨a, hKey, hMem⟩ := hHead hIn
      have hOne := total_single hKeys hMem q (w x)
      simp only [Bool.true_and, hKey, Option.some.injEq, decide_eq_true_eq, Option.any_some]
      simp only [eq_comm (a := a), hOne]
      omega

/-- Rows with different keys that each have a partner with their key are no more than the partners. -/
theorem countP_le_of_keys {f : α → κ} {g : β → κ} {ys : List β} {r : β → Bool} (hKeys : (xs.map f).Nodup)
    (h : ∀ x ∈ xs, p x = true → ∃ y ∈ ys, r y = true ∧ g y = f x) : xs.countP p ≤ ys.countP r := by
  have hSub : (xs.filter p).map f ⊆ (ys.filter r).map g := by
    intro k hk
    obtain ⟨x, hx, rfl⟩ := List.mem_map.mp hk
    obtain ⟨hx, hp⟩ := List.mem_filter.mp hx
    obtain ⟨y, hy, hr, hKey⟩ := h x hx hp
    exact List.mem_map.mpr ⟨y, List.mem_filter.mpr ⟨hy, hr⟩, hKey⟩
  have hLength := (List.subperm_of_subset (hKeys.sublist (List.filter_sublist.map f)) hSub).length_le
  rwa [List.length_map, List.length_map, ← List.countP_eq_length_filter, ← List.countP_eq_length_filter] at hLength

theorem countP_split (p q : α → Bool) (xs : List α) :
    xs.countP p = (xs.countP fun x => p x && q x) + xs.countP fun x => p x && !q x := by
  have hSplit := total_split p q (fun _ => 1) xs
  simp only [total_const] at hSplit
  omega

end Totals
