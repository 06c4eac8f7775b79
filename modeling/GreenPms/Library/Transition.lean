import Mathlib.Logic.Relation
import Mathlib.Order.Bounds.Basic
import Mathlib.Order.MinMax

/-! # Labelled transition systems, finite runs and invariants

A system is an initial predicate with a labelled step relation. An invariant is proved once
for one step from a reachable state; the run lemmas carry it to every reachable state and
carry a step-stable property along every continuation of a run.
-/

namespace TransitionSystem

universe u v

structure System (σ : Type u) (ε : Type v) where
  init : σ → Prop
  step : σ → ε → σ → Prop

variable {σ : Type u} {ε : Type v} (M : System σ ε)

/-- A finite run with the events it performs, in order. -/
inductive Run : σ → List ε → σ → Prop
  | nil (s : σ) : Run s [] s
  | cons {s t r : σ} {e : ε} {es : List ε} : M.step s e t → Run t es r → Run s (e :: es) r

def Reachable (s : σ) : Prop := ∃ s₀ es, M.init s₀ ∧ Run M s₀ es s

/-- The runs whose steps all meet a condition. -/
def System.restrict (P : σ → ε → Prop) : System σ ε where
  init := M.init
  step s e t := P s e ∧ M.step s e t

variable {M}

theorem Run.single {s t : σ} {e : ε} (h : M.step s e t) : Run M s [e] t := .cons h (.nil t)

theorem Run.append {s t r : σ} {es fs : List ε} (h : Run M s es t) (k : Run M t fs r) :
    Run M s (es ++ fs) r := by
  induction h with
  | nil => exact k
  | cons hStep _ ih => exact .cons hStep (ih k)

/-- A list of events that a computation carries out is a run. -/
theorem Run.of_foldlM {α : Type*} {apply : σ → ε → Except α σ} (hStep : ∀ s e t, apply s e = .ok t → M.step s e t)
    {s t : σ} {es : List ε} (h : es.foldlM apply s = .ok t) : Run M s es t := by
  induction es generalizing s with
  | nil =>
    rw [List.foldlM_nil] at h
    obtain rfl : s = t := by injection h
    exact .nil s
  | cons e es ih =>
    rw [List.foldlM_cons] at h
    cases hFirst : apply s e with
    | error a =>
      rw [hFirst] at h
      cases h
    | ok u =>
      rw [hFirst] at h
      exact .cons (hStep s e u hFirst) (ih h)

theorem Reachable.of_init {s : σ} (h : M.init s) : Reachable M s := ⟨s, [], h, .nil s⟩

theorem Reachable.run {s t : σ} {es : List ε} (h : Reachable M s) (k : Run M s es t) :
    Reachable M t := by
  obtain ⟨s₀, fs, hInit, hRun⟩ := h
  exact ⟨s₀, fs ++ es, hInit, hRun.append k⟩

theorem Reachable.step {s t : σ} {e : ε} (h : Reachable M s) (k : M.step s e t) : Reachable M t :=
  h.run (.single k)

/-- `t` ends some run from `s`. -/
def Reaches (M : System σ ε) (s t : σ) : Prop := ∃ es, Run M s es t

theorem Reaches.refl (s : σ) : Reaches M s s := ⟨[], .nil s⟩

theorem Reaches.tail {s t r : σ} {e : ε} (h : Reaches M s t) (k : M.step t e r) : Reaches M s r := by
  obtain ⟨es, hRun⟩ := h
  exact ⟨es ++ [e], hRun.append (.single k)⟩

theorem Reaches.trans {s t r : σ} (h : Reaches M s t) (k : Reaches M t r) : Reaches M s r := by
  obtain ⟨es, hRun⟩ := h
  obtain ⟨fs, kRun⟩ := k
  exact ⟨es ++ fs, hRun.append kRun⟩

theorem Reachable.reaches {s t : σ} (h : Reachable M s) (k : Reaches M s t) : Reachable M t := by
  obtain ⟨es, hRun⟩ := k
  exact h.run hRun

/-- Induction over a run whose start is reachable, so every step may use reachability. -/
theorem Run.induct_reachable {P : σ → Prop} {s t : σ} {es : List ε} (hRun : Run M s es t)
    (hReach : Reachable M s) (h₀ : P s)
    (hStep : ∀ a e b, Reachable M a → P a → M.step a e b → P b) : P t := by
  induction hRun with
  | nil => exact h₀
  | cons h _ ih => exact ih (hReach.step h) (hStep _ _ _ hReach h₀ h)

/-- What holds initially and is kept by every step from a reachable state holds of every
reachable state. -/
theorem Reachable.invariant {P : σ → Prop} (hInit : ∀ s, M.init s → P s)
    (hStep : ∀ a e b, Reachable M a → P a → M.step a e b → P b) {s : σ} (h : Reachable M s) : P s := by
  obtain ⟨s₀, es, h₀, hRun⟩ := h
  exact hRun.induct_reachable (.of_init h₀) (hInit s₀ h₀) hStep

/-- An invariant that also speaks of the events performed so far. -/
theorem Run.traced {P : List ε → σ → Prop} (hStep : ∀ es a e b, P es a → M.step a e b → P (es ++ [e]) b)
    {s t : σ} {fs es : List ε} (hRun : Run M s es t) (h : P fs s) : P (fs ++ es) t := by
  induction hRun generalizing fs with
  | nil => simpa using h
  | cons hFirst _ ih => simpa using ih (hStep fs _ _ _ h hFirst)

/-- What a run performs, seen from the end: a run over `es ++ fs` passes a state between them. -/
theorem Run.split {s t : σ} {es fs : List ε} (h : Run M s (es ++ fs) t) :
    ∃ u, Run M s es u ∧ Run M u fs t := by
  induction es generalizing s with
  | nil => exact ⟨s, .nil s, h⟩
  | cons e es ih =>
    cases h with
    | cons hFirst hRest =>
      obtain ⟨u, hes, hfs⟩ := ih hRest
      exact ⟨u, .cons hFirst hes, hfs⟩

/-- A preorder that every step from a reachable state respects relates the ends of a run. -/
theorem Run.monotone {R : σ → σ → Prop} (hRefl : ∀ a, R a a)
    (hTrans : ∀ a b c, R a b → R b c → R a c)
    (hStep : ∀ a e b, Reachable M a → M.step a e b → R a b)
    {s t : σ} {es : List ε} (hRun : Run M s es t) (hReach : Reachable M s) : R s t := by
  induction hRun with
  | nil => exact hRefl _
  | cons h _ ih => exact hTrans _ _ _ (hStep _ _ _ hReach h) (ih (hReach.step h))

/-- The states that some run from `s` to `t` with the given events passes through. -/
def Visited (M : System σ ε) (s : σ) (es : List ε) (t : σ) : Set σ :=
  {u | ∃ es₁ es₂, es = es₁ ++ es₂ ∧ Run M s es₁ u ∧ Run M u es₂ t}

theorem Visited.start {s t : σ} {es : List ε} (h : Run M s es t) : s ∈ Visited M s es t :=
  ⟨[], es, rfl, .nil s, h⟩

theorem Visited.tail {s b t u : σ} {e : ε} {es : List ε} (h : M.step s e b) (hu : u ∈ Visited M b es t) :
    u ∈ Visited M s (e :: es) t := by
  obtain ⟨es₁, es₂, rfl, hFirst, hSecond⟩ := hu
  exact ⟨e :: es₁, es₂, rfl, .cons h hFirst, hSecond⟩

section

variable {α : Type*} [LinearOrder α] {f g : σ → α}

theorem Run.value_visited (hStep : ∀ a e b, Reachable M a → M.step a e b → f b = max (f a) (g b))
    {s t : σ} {es : List ε} (hRun : Run M s es t) (hReach : Reachable M s) :
    f t = f s ∨ ∃ u ∈ Visited M s es t, f t = g u := by
  induction hRun with
  | nil => exact .inl rfl
  | @cons s b t e es h hRest ih =>
    obtain hSame | ⟨u, hu, hValue⟩ := ih (hReach.step h)
    · rw [hSame, hStep s e b hReach h]
      obtain hOld | hNew := max_choice (f s) (g b)
      · exact .inl hOld
      · exact .inr ⟨b, .tail h (.start hRest), hNew⟩
    · exact .inr ⟨u, .tail h hu, hValue⟩

/-- A value that every step raises to what its new state asks for is the greatest demand of the
states of the run. -/
theorem Run.isGreatest (hStep : ∀ a e b, Reachable M a → M.step a e b → f b = max (f a) (g b))
    {s t : σ} {es : List ε} (hRun : Run M s es t) (hReach : Reachable M s) (hStart : f s = g s) :
    IsGreatest (g '' Visited M s es t) (f t) := by
  constructor
  · obtain hSame | ⟨u, hu, hValue⟩ := hRun.value_visited hStep hReach
    · exact ⟨s, .start hRun, by rw [hSame, hStart]⟩
    · exact ⟨u, hu, hValue.symm⟩
  · rintro _ ⟨u, ⟨es₁, es₂, -, hFirst, hSecond⟩, rfl⟩
    have hMet : g u ≤ f u := by
      refine hFirst.induct_reachable (P := fun a => g a ≤ f a) hReach hStart.ge fun a e b ha _ h => ?_
      rw [hStep a e b ha h]
      exact le_max_right _ _
    refine hMet.trans (Run.monotone (R := fun a b => f a ≤ f b) (fun _ => le_rfl) (fun _ _ _ => le_trans)
      (fun a e b ha h => ?_) hSecond (hReach.run hFirst))
    rw [hStep a e b ha h]
    exact le_max_left _ _

end

end TransitionSystem
