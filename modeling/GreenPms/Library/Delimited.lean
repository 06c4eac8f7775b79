import Mathlib.Data.List.Basic

/-! # Delimited texts

A text is delimited if no other text of its kind begins alike, whatever follows the two: reading on
from a stop tells where the text ended. Pairs and enclosed lists of delimited texts are delimited.
-/

namespace Delimited

variable {α β γ : Type*}

/-- Wherever a text of `x` ends at a stop, it was the text of `x` that ended there. -/
def Delimits (stop : List β → Prop) (f : α → List β) (x : α) : Prop :=
  ∀ (y : α) (a b : List β), stop a → stop b → f x ++ a = f y ++ b → x = y ∧ a = b

abbrev Ends (f : α → List β) (x : α) : Prop := Delimits (fun _ => True) f x

theorem Delimits.injective {stop : List β → Prop} {f : α → List β} (hEnd : stop []) (h : ∀ x, Delimits stop f x) :
    Function.Injective f := by
  intro x y hSame
  exact (h x y [] [] hEnd hEnd (by rw [hSame])).1

/-! ## Texts of one sort of units -/

/-- Texts of units that no stop begins with. -/
theorem Delimits.of_span {stop : List β → Prop} {f : α → List β} (p : β → Bool) (hUnits : ∀ x, ∀ u ∈ f x, p u = true)
    (hStop : ∀ u rest, stop (u :: rest) → p u = false) (hInjective : Function.Injective f) (x : α) : Delimits stop f x := by
  have hSpan (y : α) (a : List β) (ha : stop a) : (f y ++ a).takeWhile p = f y := by
    rw [List.takeWhile_append_of_pos (hUnits y)]
    cases a with
    | nil => rw [List.takeWhile_nil, List.append_nil]
    | cons u rest => rw [List.takeWhile_cons_of_neg (Bool.eq_false_iff.mp (hStop u rest ha)), List.append_nil]
  intro y a b ha hb h
  have hSame : f x = f y := by rw [← hSpan x a ha, h, hSpan y b hb]
  refine ⟨hInjective hSame, ?_⟩
  rw [hSame] at h
  exact List.append_cancel_left h

/-! ## Pairs -/

theorem Delimits.pair {stop : List β → Prop} {f : α → List β} {g : γ → List β} {m : γ × α} (colon : β)
    (hKey : Ends g m.1) (h : Delimits stop f m.2) : Delimits stop (fun m => g m.1 ++ colon :: f m.2) m := by
  rintro ⟨key, y⟩ a b ha hb hText
  rw [List.append_assoc, List.append_assoc] at hText
  obtain ⟨hFirst, hRest⟩ := hKey key _ _ trivial trivial hText
  obtain ⟨hSecond, hAfter⟩ := h y a b ha hb (List.cons.inj hRest).2
  exact ⟨Prod.ext hFirst hSecond, hAfter⟩

/-! ## Enclosed lists -/

def joined (comma : β) (texts : List (List β)) : List β := [comma].intercalate texts

theorem joined_cons (comma : β) (text : List β) (texts : List (List β)) :
    joined comma (text :: texts) = text ++ texts.flatMap (comma :: ·) := by
  induction texts generalizing text with
  | nil => simp [joined, List.intercalate]
  | cons next rest ih =>
    rw [List.flatMap_cons, List.cons_append, ← ih next]
    simp [joined, List.intercalate, List.intersperse]

/-- What a list must know of its separator, its close and its items. -/
structure Brackets (stop : List β → Prop) (f : α → List β) (comma close : β) : Prop where
  comma_stops : ∀ rest, stop (comma :: rest)
  close_stops : ∀ rest, stop (close :: rest)
  apart : comma ≠ close
  item_apart : ∀ x a b, f x ++ a ≠ close :: b

variable {stop : List β → Prop} {f : α → List β} {comma close : β}

/-- The items behind the first one. -/
theorem Brackets.rest_ends (hBrackets : Brackets stop f comma close) {xs : List α} (h : ∀ x ∈ xs, Delimits stop f x) :
    Ends (fun ys => ys.flatMap (comma :: f ·) ++ [close]) xs := by
  have hStops (ys : List α) (a : List β) : stop (ys.flatMap (comma :: f ·) ++ close :: a) := by
    cases ys with
    | nil => exact hBrackets.close_stops a
    | cons y ys => exact hBrackets.comma_stops _
  intro ys a b _ _ hText
  simp only [List.append_assoc, List.singleton_append] at hText
  induction xs generalizing ys with
  | nil =>
    cases ys with
    | nil => exact ⟨rfl, (List.cons.inj hText).2⟩
    | cons y ys => exact absurd (List.cons.inj hText).1.symm hBrackets.apart
  | cons x xs ih =>
    obtain ⟨hHead, hTail⟩ := List.forall_mem_cons.mp h
    cases ys with
    | nil => exact absurd (List.cons.inj hText).1 hBrackets.apart
    | cons y ys =>
      simp only [List.flatMap_cons, List.cons_append, List.append_assoc] at hText
      obtain ⟨rfl, hRest⟩ := hHead y _ _ (hStops xs a) (hStops ys b) (List.cons.inj hText).2
      obtain ⟨rfl, hAfter⟩ := ih hTail ys hRest
      exact ⟨rfl, hAfter⟩

/-- A list in brackets ends by itself. -/
theorem Brackets.ends (hBrackets : Brackets stop f comma close) {xs : List α} (h : ∀ x ∈ xs, Delimits stop f x) :
    Ends (fun ys => joined comma (ys.map f) ++ [close]) xs := by
  have hStops (ys : List α) (a : List β) : stop (ys.flatMap (comma :: f ·) ++ [close] ++ a) := by
    cases ys with
    | nil => exact hBrackets.close_stops a
    | cons y ys => exact hBrackets.comma_stops _
  intro ys a b _ _ hText
  cases xs with
  | nil =>
    cases ys with
    | nil => exact ⟨rfl, List.append_cancel_left hText⟩
    | cons y ys =>
      simp only [List.map_cons, joined_cons, List.append_assoc] at hText
      exact absurd hText.symm (hBrackets.item_apart y _ _)
  | cons x xs =>
    obtain ⟨hHead, hTail⟩ := List.forall_mem_cons.mp h
    cases ys with
    | nil =>
      simp only [List.map_cons, joined_cons, List.append_assoc] at hText
      exact absurd hText (hBrackets.item_apart x _ _)
    | cons y ys =>
      simp only [List.map_cons, joined_cons, List.flatMap_map, List.append_assoc _ _ [close]] at hText
      rw [List.append_assoc (f x) _ a, List.append_assoc (f y) _ b] at hText
      obtain ⟨rfl, hRest⟩ := hHead y _ _ (hStops xs a) (hStops ys b) hText
      obtain ⟨rfl, hAfter⟩ := hBrackets.rest_ends hTail ys a b trivial trivial hRest
      exact ⟨rfl, hAfter⟩

end Delimited
