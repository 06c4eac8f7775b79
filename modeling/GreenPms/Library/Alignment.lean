import Mathlib.Data.List.Basic
import Mathlib.Order.MinMax

/-! # Optimal string alignment

An alignment reads two lists together, and pays for each place where it inserts, deletes or
substitutes an element, or transposes two that are adjacent. The distance of the lists is the least
cost of an alignment, by the usual recursion on the two lists.
-/

namespace Alignment

variable {α : Type*}

inductive Aligned : List α → List α → Nat → Prop where
  | nil : Aligned [] [] 0
  | keep {a b n} (x : α) (rest : Aligned a b n) : Aligned (x :: a) (x :: b) n
  | substitute {a b n} (x y : α) (rest : Aligned a b n) : Aligned (x :: a) (y :: b) (n + 1)
  | delete {a b n} (x : α) (rest : Aligned a b n) : Aligned (x :: a) b (n + 1)
  | insert {a b n} (y : α) (rest : Aligned a b n) : Aligned a (y :: b) (n + 1)
  | transpose {a b n} (x y : α) (rest : Aligned a b n) : Aligned (x :: y :: a) (y :: x :: b) (n + 1)

namespace Aligned

theorem symm {a b : List α} {n : Nat} (h : Aligned a b n) : Aligned b a n := by
  induction h with
  | nil => exact .nil
  | keep x _ ih => exact .keep x ih
  | substitute x y _ ih => exact .substitute y x ih
  | delete x _ ih => exact .insert x ih
  | insert y _ ih => exact .delete y ih
  | transpose x y _ ih => exact .transpose y x ih

theorem refl (a : List α) : Aligned a a 0 := by
  induction a with
  | nil => exact .nil
  | cons x a ih => exact .keep x ih

theorem eq_of_zero {a b : List α} (h : Aligned a b 0) : a = b := by
  generalize hCost : 0 = n at h
  induction h with
  | nil => rfl
  | keep x _ ih => rw [ih hCost]
  | substitute => cases hCost
  | delete => cases hCost
  | insert => cases hCost
  | transpose => cases hCost

theorem of_nil (b : List α) : Aligned [] b b.length := by
  induction b with
  | nil => exact .nil
  | cons y b ih => exact .insert y ih

theorem min {a b : List α} {m n : Nat} (hm : Aligned a b m) (hn : Aligned a b n) : Aligned a b (Min.min m n) := by
  obtain h | h := min_choice m n
  · rwa [h]
  · rwa [h]

/-- An alignment pays for every element by which one list is longer. -/
theorem length_le {a b : List α} {n : Nat} (h : Aligned a b n) :
    a.length ≤ b.length + n ∧ b.length ≤ a.length + n := by
  induction h with
  | nil => exact ⟨Nat.le_refl _, Nat.le_refl _⟩
  | keep x _ ih | substitute x y _ ih | delete x _ ih | insert y _ ih | transpose x y _ ih =>
    simp only [List.length_cons]
    omega

end Aligned

/-! ## The distance -/

section Distance

variable [DecidableEq α]

def distance : List α → List α → Nat
  | [], b => b.length
  | x :: a, [] => (x :: a).length
  | x :: a, y :: b =>
      let edited := min (distance a (y :: b)) (min (distance (x :: a) b) (distance a b)) + 1
      let kept := if x = y then min edited (distance a b) else edited
      match a, b with
      | x' :: a', y' :: b' => if x = y' ∧ x' = y then min kept (distance a' b' + 1) else kept
      | _, _ => kept
termination_by a b => a.length + b.length

theorem distance_nil (a : List α) : distance a [] = a.length := by
  cases a <;> simp [distance]

section Rows

variable (x y : α) (a b : List α)

theorem distance_le_near : distance (x :: a) (y :: b) ≤
    (let edited := min (distance a (y :: b)) (min (distance (x :: a) b) (distance a b)) + 1
    if x = y then min edited (distance a b) else edited) := by
  conv_lhs => unfold distance
  dsimp only
  generalize (if x = y then _ else _ : Nat) = kept
  split
  · split
    · exact min_le_left _ _
    · exact Nat.le_refl _
  · exact Nat.le_refl _

theorem distance_le_edited :
    distance (x :: a) (y :: b) ≤ min (distance a (y :: b)) (min (distance (x :: a) b) (distance a b)) + 1 := by
  refine (distance_le_near x y a b).trans ?_
  dsimp only
  split
  · exact min_le_left _ _
  · exact Nat.le_refl _

theorem distance_le_kept : distance (x :: a) (x :: b) ≤ distance a b := by
  refine (distance_le_near x x a b).trans ?_
  dsimp only
  rw [if_pos rfl]
  exact min_le_right _ _

theorem distance_le_swapped : distance (x :: y :: a) (y :: x :: b) ≤ distance a b + 1 := by
  rw [distance]
  rw [if_pos ⟨rfl, rfl⟩]
  exact min_le_right _ _

end Rows

theorem aligned_kept {x y : α} {a b : List α} (hDelete : Aligned a (y :: b) (distance a (y :: b)))
    (hInsert : Aligned (x :: a) b (distance (x :: a) b)) (hBoth : Aligned a b (distance a b)) :
    Aligned (x :: a) (y :: b)
      (let edited := min (distance a (y :: b)) (min (distance (x :: a) b) (distance a b)) + 1
      if x = y then min edited (distance a b) else edited) := by
  have hEdited : Aligned (x :: a) (y :: b)
      (min (distance a (y :: b)) (min (distance (x :: a) b) (distance a b)) + 1) := by
    rw [← Nat.add_min_add_right, ← Nat.add_min_add_right]
    exact (hDelete.delete x).min ((hInsert.insert y).min (hBoth.substitute x y))
  dsimp only
  split
  case isTrue hSame =>
    subst hSame
    exact hEdited.min (hBoth.keep x)
  case isFalse => exact hEdited

/-- The distance is what an alignment pays. -/
theorem aligned_distance (a b : List α) : Aligned a b (distance a b) := by
  fun_induction distance a b with
  | case1 b => exact .of_nil b
  | case2 x a => exact (Aligned.of_nil (x :: a)).symm
  | case3 x y x' a' y' b' hSwapped _ _ ihDelete ihInsert ihBoth ihRest =>
    refine (aligned_kept ihDelete ihInsert ihBoth).min ?_
    obtain ⟨rfl, rfl⟩ := hSwapped
    exact ihRest.transpose x x'
  | case4 x y x' a' y' b' _ _ _ ihDelete ihInsert ihBoth => exact aligned_kept ihDelete ihInsert ihBoth
  | case5 x a y b _ _ _ ihDelete ihInsert ihBoth => exact aligned_kept ihDelete ihInsert ihBoth

/-- No alignment pays less. -/
theorem distance_le {a b : List α} {n : Nat} (h : Aligned a b n) : distance a b ≤ n := by
  induction h with
  | nil => exact Nat.le_of_eq (distance_nil [])
  | keep x rest ih => exact (distance_le_kept x _ _).trans ih
  | @substitute a b n x y rest ih =>
    have hStep := distance_le_edited x y a b
    omega
  | @delete a b n x rest ih =>
    cases b with
    | nil =>
      rw [distance_nil] at ih ⊢
      exact Nat.succ_le_succ ih
    | cons y b =>
      have hStep := distance_le_edited x y a b
      omega
  | @insert a b n y rest ih =>
    cases a with
    | nil =>
      rw [distance] at ih ⊢
      exact Nat.succ_le_succ ih
    | cons x a =>
      have hStep := distance_le_edited x y a b
      omega
  | @transpose a b n x y rest ih => exact (distance_le_swapped x y a b).trans (Nat.succ_le_succ ih)

/-- The distance is the least cost of an alignment. -/
theorem distance_le_iff {a b : List α} {n : Nat} : distance a b ≤ n ↔ ∃ m ≤ n, Aligned a b m := by
  constructor
  · exact fun h => ⟨_, h, aligned_distance a b⟩
  · rintro ⟨m, hm, h⟩
    exact (distance_le h).trans hm

theorem distance_comm (a b : List α) : distance a b = distance b a :=
  Nat.le_antisymm (distance_le (aligned_distance b a).symm) (distance_le (aligned_distance a b).symm)

/-! ## At most one edit -/

theorem distance_le_one_iff {a b : List α} : distance a b ≤ 1 ↔ a = b ∨ Aligned a b 1 := by
  rw [distance_le_iff]
  constructor
  · rintro ⟨m, hm, h⟩
    obtain rfl | rfl := Nat.le_one_iff_eq_zero_or_eq_one.mp hm
    · exact .inl h.eq_of_zero
    · exact .inr h
  · rintro (rfl | h)
    · exact ⟨0, Nat.zero_le 1, .refl a⟩
    · exact ⟨1, Nat.le_refl 1, h⟩

/-- Equal heads need no edit. -/
theorem distance_cons_le_one {x : α} {a b : List α} : distance (x :: a) (x :: b) ≤ 1 ↔ distance a b ≤ 1 := by
  constructor
  · rw [distance_le_one_iff, distance_le_one_iff]
    rintro (hSame | h)
    · exact .inl (List.cons.inj hSame).2
    · cases h with
      | keep _ rest => exact .inr rest
      | substitute _ _ rest => exact .inl rest.eq_of_zero
      | delete _ rest =>
        rw [rest.eq_of_zero]
        exact .inr (.delete x (.refl b))
      | insert _ rest =>
        rw [← rest.eq_of_zero]
        exact .inr (.insert x (.refl a))
      | transpose _ _ rest =>
        rw [rest.eq_of_zero]
        exact .inl rfl
  · exact (distance_le_kept x a b).trans

/-- At heads that differ the one edit is made, and the rests are equal. -/
theorem distance_cons_le_one_of_ne {x y : α} {a b : List α} (hHeads : x ≠ y) :
    distance (x :: a) (y :: b) ≤ 1 ↔ a = b ∨ a = y :: b ∨ x :: a = b ∨ ∃ u, a = y :: u ∧ b = x :: u := by
  rw [distance_le_one_iff]
  constructor
  · rintro (hSame | h)
    · exact absurd (List.cons.inj hSame).1 hHeads
    · cases h with
      | keep => exact absurd rfl hHeads
      | substitute _ _ rest => exact .inl rest.eq_of_zero
      | delete _ rest => exact .inr (.inl rest.eq_of_zero)
      | insert _ rest => exact .inr (.inr (.inl rest.eq_of_zero))
      | transpose _ _ rest =>
        rw [rest.eq_of_zero]
        exact .inr (.inr (.inr ⟨_, rfl, rfl⟩))
  · rintro (rfl | rfl | rfl | ⟨u, rfl, rfl⟩)
    · exact .inr (.substitute x y (.refl a))
    · exact .inr (.delete x (.refl (y :: b)))
    · exact .inr (.insert y (.refl (x :: a)))
    · exact .inr (.transpose x y (.refl u))

end Distance

end Alignment
