import GreenPms.Foundation.Text
import GreenPms.Library.Alignment

/-! # Names of guests that are close

Two names match if they are equal, or if both are long enough and one edit apart. A guest without a
document is matched to another by nickname and name, with a score for how much of them agrees.
-/

namespace GreenPms

open Alignment

section Close

variable {α : Type*} [DecidableEq α]

/-- The loop of `close` over two arrays of characters. -/
def closeLoop (left right : List α) (i j edits : Nat) : Bool :=
  if i < left.length ∧ j < right.length then
    if left[i]? = right[j]? then closeLoop left right (i + 1) (j + 1) edits
    else if 1 < edits + 1 then false
    else if left.length = right.length ∧ left[i]? = right[j + 1]? ∧ left[i + 1]? = right[j]? then
      closeLoop left right (i + 2) (j + 2) (edits + 1)
    else
      closeLoop left right (if right.length ≤ left.length then i + 1 else i)
        (if left.length ≤ right.length then j + 1 else j) (edits + 1)
  else decide (edits + (left.length - i) + (right.length - j) ≤ 1)
termination_by (left.length - i) + (right.length - j)
decreasing_by
  · omega
  · omega
  · split <;> split <;> omega

omit [DecidableEq α] in
theorem drop_cons {as : List α} {i : Nat} {x : α} (h : as[i]? = some x) : as.drop i = x :: as.drop (i + 1) := by
  obtain ⟨hInside, rfl⟩ := List.getElem?_eq_some_iff.mp h
  exact List.drop_eq_getElem_cons hInside

theorem closeLoop_edited (left right : List α) (i j : Nat) :
    closeLoop left right i j 1 = true ↔ left.drop i = right.drop j := by
  induction hRest : left.length - i generalizing i j with
  | zero =>
    have hEnded : left.drop i = [] := List.drop_eq_nil_iff.mpr (Nat.le_of_sub_eq_zero hRest)
    rw [closeLoop, if_neg (by omega), hEnded, decide_eq_true_iff, eq_comm, List.drop_eq_nil_iff]
    omega
  | succ n ih =>
    rw [closeLoop]
    split
    case isTrue hInside =>
      have hx : left[i]? = some left[i] := List.getElem?_eq_getElem hInside.1
      have hy : right[j]? = some right[j] := List.getElem?_eq_getElem hInside.2
      rw [drop_cons hx, drop_cons hy, List.cons.injEq]
      split
      case isTrue hHeads =>
        rw [hx, hy, Option.some_inj] at hHeads
        rw [ih (i + 1) (j + 1) (by omega), and_iff_right hHeads]
      case isFalse hHeads =>
        rw [hx, hy, Option.some_inj] at hHeads
        rw [if_pos (by omega)]
        exact iff_of_false Bool.false_ne_true fun h => hHeads h.1
    case isFalse hOutside =>
      have hEnded : right.drop j = [] := List.drop_eq_nil_iff.mpr (by omega)
      rw [hEnded, decide_eq_true_iff, List.drop_eq_nil_iff]
      omega

omit [DecidableEq α] in
/-- Two heads that are swapped leave nothing but the swap. -/
theorem rest_of_swap {x y : α} {a b : List α} (hHeads : x ≠ y) (hLengths : a.length = b.length) :
    (y :: a = x :: b ∨ y :: a = y :: x :: b ∨ x :: y :: a = x :: b ∨ ∃ u, y :: a = y :: u ∧ x :: b = x :: u) ↔ a = b := by
  constructor
  · rintro (h | h | h | ⟨u, hLeft, hRight⟩)
    · exact absurd (List.cons.inj h).1.symm hHeads
    · simpa [hLengths] using congrArg List.length h
    · simpa [hLengths] using congrArg List.length h
    · rw [(List.cons.inj hLeft).2, (List.cons.inj hRight).2]
  · rintro rfl
    exact .inr (.inr (.inr ⟨a, rfl, rfl⟩))

omit [DecidableEq α] in
theorem rest_of_edit {left right : List α} {i : Nat} {x y : α} (hInside : i < left.length ∧ i < right.length)
    (hKept : ¬(left.length = right.length ∧ left[i]? = right[i + 1]? ∧ left[i + 1]? = right[i]?))
    (hx : left[i]? = some x) (hy : right[i]? = some y) :
    (left.drop (i + 1) = right.drop (i + 1) ∨ left.drop (i + 1) = y :: right.drop (i + 1) ∨
      x :: left.drop (i + 1) = right.drop (i + 1) ∨ ∃ u, left.drop (i + 1) = y :: u ∧ right.drop (i + 1) = x :: u) ↔
    left.drop (if right.length ≤ left.length then i + 1 else i) =
      right.drop (if left.length ≤ right.length then i + 1 else i) := by
  have hLengths : (left.drop (i + 1)).length + (i + 1) = left.length ∧
      (right.drop (i + 1)).length + (i + 1) = right.length := by
    simp only [List.length_drop]
    omega
  have hNoSwap : ¬ ∃ u, left.drop (i + 1) = y :: u ∧ right.drop (i + 1) = x :: u := by
    rintro ⟨u, hLeft, hRight⟩
    rw [hLeft, hRight, List.length_cons, List.length_cons] at hLengths
    refine hKept ⟨hLengths.1.symm.trans hLengths.2, ?_, ?_⟩
    · rw [hx, ← Nat.add_zero (i + 1), ← List.getElem?_drop, hRight]
      rfl
    · rw [hy, ← Nat.add_zero (i + 1), ← List.getElem?_drop, hLeft]
      rfl
  simp only [hNoSwap, or_false]
  obtain hLess | hEqual | hMore := lt_trichotomy left.length right.length
  · rw [if_neg (by omega), if_pos hLess.le, drop_cons hx]
    constructor
    · rintro (h | h | h)
      · rw [h] at hLengths
        omega
      · rw [h, List.length_cons] at hLengths
        omega
      · exact h
    · exact fun h => .inr (.inr h)
  · rw [if_pos hEqual.ge, if_pos hEqual.le]
    constructor
    · rintro (h | h | h)
      · exact h
      · rw [h, List.length_cons] at hLengths
        omega
      · rw [← h, List.length_cons] at hLengths
        omega
    · exact .inl
  · rw [if_pos hMore.le, if_neg (by omega), drop_cons hy]
    constructor
    · rintro (h | h | h)
      · rw [h] at hLengths
        omega
      · exact h
      · rw [← h, List.length_cons] at hLengths
        omega
    · exact fun h => .inr (.inl h)

/-- Before an edit the loop finds out whether the rests are at most one edit apart. -/
theorem closeLoop_unedited (left right : List α) (i : Nat) :
    closeLoop left right i i 0 = true ↔ distance (left.drop i) (right.drop i) ≤ 1 := by
  induction hRest : left.length - i generalizing i with
  | zero =>
    have hEnded : left.drop i = [] := List.drop_eq_nil_iff.mpr (Nat.le_of_sub_eq_zero hRest)
    rw [closeLoop, if_neg (by omega), hEnded, decide_eq_true_iff, distance, List.length_drop]
    omega
  | succ n ih =>
    rw [closeLoop]
    split
    case isTrue hInside =>
      have hx : left[i]? = some left[i] := List.getElem?_eq_getElem hInside.1
      have hy : right[i]? = some right[i] := List.getElem?_eq_getElem hInside.2
      rw [drop_cons hx, drop_cons hy]
      split
      case isTrue hHeads =>
        rw [hx, hy, Option.some_inj] at hHeads
        rw [hHeads, distance_cons_le_one, ih (i + 1) (by omega)]
      case isFalse hHeads =>
        rw [hx, hy, Option.some_inj] at hHeads
        rw [if_neg (by omega), distance_cons_le_one_of_ne hHeads]
        split
        case isTrue hSwap =>
          rw [hx, hy] at hSwap
          have hLengths : (left.drop (i + 2)).length = (right.drop (i + 2)).length := by
            rw [List.length_drop, List.length_drop, hSwap.1]
          rw [closeLoop_edited, drop_cons hSwap.2.2, drop_cons hSwap.2.1.symm]
          exact (rest_of_swap hHeads hLengths).symm
        case isFalse hKept =>
          rw [closeLoop_edited]
          exact (rest_of_edit hInside hKept hx hy).symm
    case isFalse hOutside =>
      have hEnded : right.drop i = [] := List.drop_eq_nil_iff.mpr (by omega)
      rw [hEnded, decide_eq_true_iff, distance_nil, List.length_drop]
      omega

end Close

open JsString

/-- One inserted, deleted or substituted character, or an adjacent transposition. -/
def close (a b : JsString) (minimum : Nat) : Bool :=
  if a = [] ∨ b = [] then false
  else if a = b then true
  else
    let left := characters a
    let right := characters b
    if min left.length right.length < minimum ∨ 1 < ((left.length : Int) - right.length).natAbs then false
    else closeLoop left right 0 0 0

theorem close_eq_true_iff {a b : JsString} {minimum : Nat} : close a b minimum = true ↔ a ≠ [] ∧ b ≠ [] ∧
    (a = b ∨ (minimum ≤ (characters a).length ∧ minimum ≤ (characters b).length ∧
      distance (characters a) (characters b) ≤ 1)) := by
  unfold close
  split
  case isTrue hEmpty => exact iff_of_false Bool.false_ne_true fun h => hEmpty.elim h.1 h.2.1
  case isFalse hFull =>
    obtain ⟨ha, hb⟩ := not_or.mp hFull
    rw [and_iff_right ha, and_iff_right hb]
    split
    case isTrue hSame => exact iff_of_true rfl (.inl hSame)
    case isFalse hOther =>
      rw [or_iff_right hOther]
      dsimp only
      split
      case isTrue hShort =>
        refine iff_of_false Bool.false_ne_true ?_
        rintro ⟨hLeft, hRight, hDistance⟩
        obtain ⟨n, hn, hAligned⟩ := distance_le_iff.mp hDistance
        have hLengths := hAligned.length_le
        omega
      case isFalse hLong =>
        rw [closeLoop_unedited, List.drop_zero, List.drop_zero]
        constructor
        · exact fun h => ⟨by omega, by omega, h⟩
        · exact fun h => h.2.2

theorem close_comm (a b : JsString) (minimum : Nat) : close a b minimum = close b a minimum := by
  rw [Bool.eq_iff_iff, close_eq_true_iff, close_eq_true_iff, eq_comm, distance_comm]
  tauto

/-- Two names are close exactly when they are equal or, long enough, one edit apart. -/
theorem close_within_one_edit (a b : JsString) (minimum : Nat) :
    (close a b minimum = true ↔ a ≠ [] ∧ b ≠ [] ∧
      (a = b ∨ (minimum ≤ (characters a).length ∧ minimum ≤ (characters b).length ∧
        distance (characters a) (characters b) ≤ 1))) ∧
    close a b minimum = close b a minimum :=
  ⟨close_eq_true_iff, close_comm a b minimum⟩

end GreenPms
