import Mathlib.Data.List.Basic

/-! # Loops over lists

A loop that writes once for each element of a list keeps an invariant when every write keeps it
and leaves the elements that are still to come as the next writes need them.
-/

namespace Folds

variable {σ α ε : Type*} {P : σ → Prop} {Q : σ → α → Prop} {R : α → α → Prop}

theorem foldl_keeps {write : σ → α → σ} (hStep : ∀ s a, P s → Q s a → P (write s a))
    (hKeep : ∀ s a b, R a b → P s → Q s a → Q s b → Q (write s a) b) {xs : List α} (hApart : xs.Pairwise R)
    {s : σ} (hs : P s) (hReady : ∀ a ∈ xs, Q s a) : P (xs.foldl write s) ∧ ∀ b, (∀ a ∈ xs, R a b) → Q s b →
      Q (xs.foldl write s) b := by
  induction xs generalizing s with
  | nil => exact ⟨hs, fun _ _ hb => hb⟩
  | cons a xs ih =>
    obtain ⟨hHead, hTail⟩ := List.pairwise_cons.mp hApart
    obtain ⟨ha, hxs⟩ := List.forall_mem_cons.mp hReady
    have hNext := ih hTail (hStep s a hs ha) fun b hb => hKeep s a b (hHead b hb) hs ha (hxs b hb)
    refine ⟨hNext.1, fun b hb hQ => ?_⟩
    obtain ⟨hab, hrest⟩ := List.forall_mem_cons.mp hb
    exact hNext.2 b hrest (hKeep s a b hab hs ha hQ)

theorem foldlM_keeps {write : σ → α → Except ε σ} (hStep : ∀ s a s', P s → write s a = .ok s' → P s')
    {xs : List α} {s s' : σ} (hs : P s) (h : xs.foldlM write s = .ok s') : P s' := by
  induction xs generalizing s with
  | nil =>
    rw [List.foldlM_nil] at h
    obtain rfl : s = s' := by injection h
    exact hs
  | cons a xs ih =>
    rw [List.foldlM_cons] at h
    cases hFirst : write s a with
    | error e =>
      rw [hFirst] at h
      cases h
    | ok u =>
      rw [hFirst] at h
      exact ih (hStep s a u hs hFirst) h

end Folds
