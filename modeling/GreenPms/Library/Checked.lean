import Mathlib.Data.List.Forall2

/-! # Checked computations

A validation that fails with an error is a step of a computation in `Except`. A computation that
succeeds has passed each of its checks, which these equations read off.
-/

namespace Checked

variable {ε α β : Type}

def require (c : Prop) [Decidable c] (e : ε) : Except ε Unit := if c then .ok () else .error e

def expect (e : ε) : Option α → Except ε α
  | some a => .ok a
  | none => .error e

@[simp] theorem require_eq_ok {c : Prop} [Decidable c] {e : ε} {u : Unit} :
    require c e = .ok u ↔ c := by
  unfold require
  split <;> simp_all

@[simp] theorem expect_eq_ok {e : ε} {o : Option α} {a : α} : expect e o = .ok a ↔ o = some a := by
  cases o <;> simp [expect]

@[simp] theorem bind_eq_ok {x : Except ε α} {f : α → Except ε β} {b : β} :
    (x >>= f) = .ok b ↔ ∃ a, x = .ok a ∧ f a = .ok b := by
  cases x <;> simp [bind, Except.bind]

@[simp] theorem pure_eq_ok {a b : α} : (pure a : Except ε α) = .ok b ↔ a = b := by
  simp [pure, Except.pure]

@[simp] theorem map_eq_ok {x : Except ε α} {f : α → β} {b : β} :
    f <$> x = .ok b ↔ ∃ a, x = .ok a ∧ f a = b := by
  cases x <;> simp [Functor.map, Except.map]

@[simp] theorem mapError_eq_ok {ε' : Type} {f : ε → ε'} {x : Except ε α} {a : α} :
    x.mapError f = .ok a ↔ x = .ok a := by
  cases x <;> simp [Except.mapError]

theorem any_eq_true {x : Except ε α} {p : α → Bool} :
    x.toOption.any p = true ↔ ∃ a, x = .ok a ∧ p a = true := by
  cases x <;> simp [Except.toOption]

def checkAll (f : α → Except ε Unit) : List α → Except ε Unit
  | [] => .ok ()
  | x :: xs => do
      f x
      checkAll f xs

theorem checkAll_eq_ok {f : α → Except ε Unit} {xs : List α} :
    checkAll f xs = .ok () ↔ ∀ x ∈ xs, f x = .ok () := by
  induction xs with
  | nil => simp [checkAll]
  | cons x xs ih =>
    rw [checkAll, bind_eq_ok, List.forall_mem_cons, ← ih]
    exact ⟨fun ⟨_, hx, hxs⟩ => ⟨hx, hxs⟩, fun ⟨hx, hxs⟩ => ⟨(), hx, hxs⟩⟩

/-- A loop that succeeds has passed each of its elements. -/
theorem foldlM_eq_ok_mem {f : β → α → Except ε β} {xs : List α} {s t : β} (h : xs.foldlM f s = .ok t) {x : α}
    (hx : x ∈ xs) : ∃ a b, f a x = .ok b := by
  induction xs generalizing s with
  | nil => cases hx
  | cons y xs ih =>
    rw [List.foldlM_cons, bind_eq_ok] at h
    obtain ⟨u, hFirst, hRest⟩ := h
    obtain rfl | hx := List.mem_cons.mp hx
    · exact ⟨s, u, hFirst⟩
    · exact ih hRest hx

/-- A checked map relates its list to the results, one by one. -/
theorem mapM_eq_ok {f : α → Except ε β} {xs : List α} {ys : List β} :
    xs.mapM f = .ok ys ↔ List.Forall₂ (fun x y => f x = .ok y) xs ys := by
  induction xs generalizing ys with
  | nil =>
    rw [List.mapM_nil, pure_eq_ok, List.forall₂_nil_left_iff]
    exact eq_comm
  | cons x xs ih =>
    simp only [List.mapM_cons, bind_eq_ok, pure_eq_ok, ih, List.forall₂_cons_left_iff]
    constructor
    · rintro ⟨y, hy, rest, hRest, rfl⟩
      exact ⟨y, rest, hy, hRest, rfl⟩
    · rintro ⟨y, rest, hy, hRest, rfl⟩
      exact ⟨y, hy, rest, hRest, rfl⟩

/-- A checked map succeeds if every element does. -/
theorem mapM_ok_iff {f : α → Except ε β} {xs : List α} : (∃ ys, xs.mapM f = .ok ys) ↔ ∀ x ∈ xs, ∃ y, f x = .ok y := by
  induction xs with
  | nil => simp
  | cons x xs ih =>
    rw [List.forall_mem_cons, ← ih]
    simp only [List.mapM_cons, bind_eq_ok, pure_eq_ok]
    constructor
    · rintro ⟨_, y, hy, ys, hys, -⟩
      exact ⟨⟨y, hy⟩, ys, hys⟩
    · rintro ⟨⟨y, hy⟩, ys, hys⟩
      exact ⟨y :: ys, y, hy, ys, hys, rfl⟩

theorem mapM_eq_ok_mem {f : α → Except ε β} {xs : List α} {ys : List β} (h : xs.mapM f = .ok ys)
    {x : α} (hx : x ∈ xs) : ∃ y ∈ ys, f x = .ok y := by
  induction xs generalizing ys with
  | nil => cases hx
  | cons a xs ih =>
    simp only [List.mapM_cons, bind_eq_ok, pure_eq_ok] at h
    obtain ⟨b, hb, bs, hbs, rfl⟩ := h
    obtain rfl | hx := List.mem_cons.mp hx
    · exact ⟨b, List.mem_cons_self, hb⟩
    · obtain ⟨y, hy, hfx⟩ := ih hbs hx
      exact ⟨y, List.mem_cons_of_mem _ hy, hfx⟩

end Checked
