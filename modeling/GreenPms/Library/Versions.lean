import Mathlib.Data.List.Induction

/-! # Numbered versions

Rows belong to groups and carry version numbers. The latest row of a group is the first one with the
greatest number, and a row that is added with a greater number takes its place.
-/

namespace Versions

variable {α β : Type*} [DecidableEq α] (group : β → α) (version : β → Nat) (a : α)

def newer (latest : Option β) (x : β) : Option β :=
  match latest with
  | none => if group x = a then some x else none
  | some y => if group x = a ∧ version y < version x then some x else some y

def latest (xs : List β) : Option β := xs.foldl (newer group version a) none

variable {group version a}

theorem latest_append (xs : List β) (x : β) :
    latest group version a (xs ++ [x]) = newer group version a (latest group version a xs) x := by
  rw [latest, List.foldl_append]
  rfl

/-- What the latest row of a group is: a row of the group with a number that none of them exceeds. -/
def IsLatest (group : β → α) (version : β → Nat) (a : α) (xs : List β) : Option β → Prop
  | none => ∀ x ∈ xs, group x ≠ a
  | some x => x ∈ xs ∧ group x = a ∧ ∀ y ∈ xs, group y = a → version y ≤ version x

theorem isLatest_latest (xs : List β) : IsLatest group version a xs (latest group version a xs) := by
  induction xs using List.reverseRecOn with
  | nil => exact nofun
  | append_singleton xs x ih =>
    rw [latest_append]
    cases hLatest : latest group version a xs with
    | none =>
      rw [hLatest] at ih
      by_cases hGroup : group x = a
      · rw [newer, if_pos hGroup]
        refine ⟨List.mem_append_right xs (List.mem_singleton.mpr rfl), hGroup, fun y hy hSame => ?_⟩
        obtain hy | hy := List.mem_append.mp hy
        · exact absurd hSame (ih y hy)
        · obtain rfl := List.mem_singleton.mp hy
          exact Nat.le_refl _
      · rw [newer, if_neg hGroup]
        intro y hy
        obtain hy | hy := List.mem_append.mp hy
        · exact ih y hy
        · rwa [List.mem_singleton.mp hy]
    | some z =>
      rw [hLatest] at ih
      obtain ⟨hz, hGroup, hBound⟩ := ih
      by_cases hNewer : group x = a ∧ version z < version x
      · rw [newer, if_pos hNewer]
        refine ⟨List.mem_append_right xs (List.mem_singleton.mpr rfl), hNewer.1, fun y hy hSame => ?_⟩
        obtain hy | hy := List.mem_append.mp hy
        · exact Nat.le_trans (hBound y hy hSame) (Nat.le_of_lt hNewer.2)
        · obtain rfl := List.mem_singleton.mp hy
          exact Nat.le_refl _
      · rw [newer, if_neg hNewer]
        refine ⟨List.mem_append_left _ hz, hGroup, fun y hy hSame => ?_⟩
        obtain hy | hy := List.mem_append.mp hy
        · exact hBound y hy hSame
        · obtain rfl := List.mem_singleton.mp hy
          exact Nat.le_of_not_lt fun hLess => hNewer ⟨hSame, hLess⟩

theorem latest_eq_some {xs : List β} {x : β} (h : latest group version a xs = some x) :
    x ∈ xs ∧ group x = a ∧ ∀ y ∈ xs, group y = a → version y ≤ version x := by
  have hSome : IsLatest group version a xs (latest group version a xs) := isLatest_latest xs
  rwa [h] at hSome

theorem latest_isSome {xs : List β} {x : β} (hx : x ∈ xs) (h : group x = a) : ∃ y, latest group version a xs = some y := by
  cases hLatest : latest group version a xs with
  | none =>
    have hNone : IsLatest group version a xs (latest group version a xs) := isLatest_latest xs
    rw [hLatest] at hNone
    exact absurd h (hNone x hx)
  | some y => exact ⟨y, rfl⟩

theorem latest_append_other {xs : List β} {x : β} (h : group x ≠ a) :
    latest group version a (xs ++ [x]) = latest group version a xs := by
  rw [latest_append]
  cases latest group version a xs with
  | none => rw [newer, if_neg h]
  | some y => rw [newer, if_neg fun hx => h hx.1]

theorem latest_append_newer {xs : List β} {x : β} (h : group x = a)
    (hNewer : ∀ y ∈ xs, group y = a → version y < version x) : latest group version a (xs ++ [x]) = some x := by
  rw [latest_append]
  cases hLatest : latest group version a xs with
  | none => rw [newer, if_pos h]
  | some y =>
    obtain ⟨hy, hGroup, -⟩ := latest_eq_some hLatest
    rw [newer, if_pos ⟨h, hNewer y hy hGroup⟩]

end Versions
