import Mathlib.Logic.Function.Basic
import GreenPms.Library.Transition

/-! # Transactions over a store with exclusive row locks

A transaction computes the writes of a call from its view of the store, performs them one at a
time, and publishes them at its commit; a write needs every resource it touches for itself
alone. If what is seen of a resource depends only on the writes that touch it, an invariant of
single resources that every call keeps on the caller's view holds of every committed store,
whatever the interleaving.
-/

namespace LockedStore

open TransitionSystem

universe u v w x

structure Access (σ : Type u) (ω : Type v) (ρ : Type w) where
  apply : ω → σ → σ
  touches : ω → List ρ
  View : ρ → Type x
  observe : (r : ρ) → σ → View r
  frame : ∀ w s r, r ∉ touches w → observe r (apply w s) = observe r s
  confined : ∀ w s t r, observe r s = observe r t → observe r (apply w s) = observe r (apply w t)

variable {σ : Type u} {ω : Type v} {ρ : Type w}

namespace Access

variable (A : Access.{u, v, w, x} σ ω ρ)

def applyAll : List ω → σ → σ
  | [], s => s
  | w :: ws, s => applyAll ws (A.apply w s)

@[simp] theorem applyAll_nil (s : σ) : A.applyAll [] s = s := rfl

@[simp] theorem applyAll_cons (w : ω) (ws : List ω) (s : σ) :
    A.applyAll (w :: ws) s = A.applyAll ws (A.apply w s) := rfl

theorem applyAll_append (ws vs : List ω) (s : σ) :
    A.applyAll (ws ++ vs) s = A.applyAll vs (A.applyAll ws s) := by
  induction ws generalizing s with
  | nil => rfl
  | cons w ws ih => exact ih (A.apply w s)

theorem observe_applyAll_of_untouched {ws : List ω} {r : ρ} (h : ∀ w ∈ ws, r ∉ A.touches w) (s : σ) :
    A.observe r (A.applyAll ws s) = A.observe r s := by
  induction ws generalizing s with
  | nil => rfl
  | cons w ws ih =>
    obtain ⟨hw, hws⟩ := List.forall_mem_cons.mp h
    rw [applyAll_cons, ih hws, A.frame w s r hw]

theorem observe_applyAll_congr (ws : List ω) {s t : σ} {r : ρ} (h : A.observe r s = A.observe r t) :
    A.observe r (A.applyAll ws s) = A.observe r (A.applyAll ws t) := by
  induction ws generalizing s t with
  | nil => exact h
  | cons w ws ih => exact ih (A.confined w s t r h)

end Access

structure Tx (ω : Type v) (ρ : Type w) where
  held : List ρ
  pending : List ω
  todo : List ω

def Tx.fresh : Tx ω ρ := ⟨[], [], []⟩

structure State (σ : Type u) (ω : Type v) (ρ : Type w) where
  store : σ
  txs : Nat → Tx ω ρ

namespace State

variable (A : Access.{u, v, w, x} σ ω ρ) (s : State σ ω ρ)

/-- What a transaction reads: the committed store under its own writes. -/
def view (i : Nat) : σ := A.applyAll (s.txs i).pending s.store

/-- What a transaction would read once its call is done. -/
def outcome (i : Nat) : σ := A.applyAll ((s.txs i).pending ++ (s.txs i).todo) s.store

def Free (i : Nat) (r : ρ) : Prop := ∀ j, j ≠ i → r ∉ (s.txs j).held

def setTx (i : Nat) (tx : Tx ω ρ) : State σ ω ρ := { s with txs := Function.update s.txs i tx }

end State

inductive Event (ρ : Type w) where
  | acquire (tx : Nat) (r : ρ)
  | call (tx : Nat)
  | perform (tx : Nat)
  | commit (tx : Nat)
  | rollback (tx : Nat)

def Event.tx : Event ρ → Nat
  | .acquire i _ | .call i | .perform i | .commit i | .rollback i => i

section

variable (A : Access.{u, v, w, x} σ ω ρ) (Call : σ → List ρ → List ω → Prop)

/-- `Call view held writes`: a call may compute the writes from the view and the held resources. -/
inductive Step : State σ ω ρ → Event ρ → State σ ω ρ → Prop
  | acquire {s : State σ ω ρ} {i : Nat} {r : ρ} (hFree : s.Free i r) :
      Step s (.acquire i r) (s.setTx i { s.txs i with held := r :: (s.txs i).held })
  | call {s : State σ ω ρ} {i : Nat} {ws : List ω} (hIdle : (s.txs i).todo = [])
      (hCall : Call (s.view A i) (s.txs i).held ws)
      (hFree : ∀ w ∈ ws, ∀ r ∈ A.touches w, s.Free i r) :
      Step s (.call i) (s.setTx i ⟨ws.flatMap A.touches ++ (s.txs i).held, (s.txs i).pending, ws⟩)
  | perform {s : State σ ω ρ} {i : Nat} {w : ω} {ws : List ω} (hTodo : (s.txs i).todo = w :: ws) :
      Step s (.perform i) (s.setTx i ⟨(s.txs i).held, (s.txs i).pending ++ [w], ws⟩)
  | commit {s : State σ ω ρ} {i : Nat} (hIdle : (s.txs i).todo = []) :
      Step s (.commit i) ⟨s.view A i, Function.update s.txs i .fresh⟩
  | rollback {s : State σ ω ρ} {i : Nat} : Step s (.rollback i) (s.setTx i .fresh)

def system (Init : σ → Prop) : System (State σ ω ρ) (Event ρ) where
  init s := Init s.store ∧ ∀ i, s.txs i = .fresh
  step := Step A Call

variable (I : (r : ρ) → A.View r → Prop)

structure Consistent (s : State σ ω ρ) : Prop where
  apart : ∀ i j, i ≠ j → ∀ r ∈ (s.txs i).held, r ∉ (s.txs j).held
  held : ∀ i, ∀ w ∈ (s.txs i).pending ++ (s.txs i).todo, ∀ r ∈ A.touches w, r ∈ (s.txs i).held
  store : ∀ r, I r (A.observe r s.store)
  outcome : ∀ i r, I r (A.observe r (s.outcome A i))

end

variable {A : Access.{u, v, w, x} σ ω ρ} {Call : σ → List ρ → List ω → Prop}
  {I : (r : ρ) → A.View r → Prop} {s t : State σ ω ρ}

theorem State.outcome_fresh {i : Nat} (h : s.txs i = .fresh) : s.outcome A i = s.store := by
  simp [outcome, h, Tx.fresh]

theorem State.outcome_eq_view {i : Nat} (h : (s.txs i).todo = []) : s.outcome A i = s.view A i := by
  simp [outcome, view, h]

theorem Consistent.initial (hStore : ∀ r, I r (A.observe r s.store)) (hFresh : ∀ i, s.txs i = .fresh) :
    Consistent A I s := by
  refine ⟨?_, ?_, hStore, ?_⟩
  · intro i j _ r hr
    simp [hFresh i, Tx.fresh] at hr
  · intro i w hw
    simp [hFresh i, Tx.fresh] at hw
  · intro i r
    rw [State.outcome_fresh (hFresh i)]
    exact hStore r

/-- A move of one transaction that commits nothing. -/
theorem Consistent.move (hs : Consistent A I s) {i : Nat} {tx : Tx ω ρ}
    (hFree : ∀ r ∈ tx.held, r ∈ (s.txs i).held ∨ s.Free i r)
    (hHeld : ∀ w ∈ tx.pending ++ tx.todo, ∀ r ∈ A.touches w, r ∈ tx.held)
    (hOutcome : ∀ r, I r (A.observe r (A.applyAll (tx.pending ++ tx.todo) s.store))) :
    Consistent A I (s.setTx i tx) := by
  have hAlone : ∀ j, j ≠ i → ∀ r ∈ tx.held, r ∉ (s.txs j).held := by
    intro j hj r hr
    obtain hOwn | hFree := hFree r hr
    · exact hs.apart i j hj.symm r hOwn
    · exact hFree j hj
  refine ⟨?_, ?_, hs.store, ?_⟩
  · intro a b hne r ha hb
    simp only [State.setTx] at ha hb
    by_cases hai : a = i
    · subst hai
      simp only [Function.update_self] at ha
      simp only [Function.update_of_ne hne.symm] at hb
      exact hAlone b hne.symm r ha hb
    · simp only [Function.update_of_ne hai] at ha
      by_cases hbi : b = i
      · subst hbi
        simp only [Function.update_self] at hb
        exact hAlone a hne r hb ha
      · simp only [Function.update_of_ne hbi] at hb
        exact hs.apart a b hne r ha hb
  · intro a
    by_cases ha : a = i
    · subst ha
      simpa [State.setTx] using hHeld
    · simpa [State.setTx, ha] using hs.held a
  · intro a r
    by_cases ha : a = i
    · subst ha
      simpa [State.outcome, State.setTx] using hOutcome r
    · simpa [State.outcome, State.setTx, ha] using hs.outcome a r

/-- The writes of two transactions touch different resources. -/
theorem Consistent.untouched (hs : Consistent A I s) {i : Nat} {r : ρ} (h : r ∉ (s.txs i).held) :
    ∀ w ∈ (s.txs i).pending ++ (s.txs i).todo, r ∉ A.touches w :=
  fun w hw hr => h (hs.held i w hw r hr)

theorem Consistent.commit (hs : Consistent A I s) {i : Nat} (hIdle : (s.txs i).todo = []) :
    Consistent A I ⟨s.view A i, Function.update s.txs i .fresh⟩ := by
  have hView : ∀ r, I r (A.observe r (s.view A i)) := by
    intro r
    rw [← State.outcome_eq_view hIdle]
    exact hs.outcome i r
  refine ⟨?_, ?_, hView, ?_⟩
  · intro a b hne r ha hb
    by_cases hai : a = i
    · subst hai
      simp [Tx.fresh] at ha
    · simp only [Function.update_of_ne hai] at ha
      by_cases hbi : b = i
      · subst hbi
        simp [Tx.fresh] at hb
      · simp only [Function.update_of_ne hbi] at hb
        exact hs.apart a b hne r ha hb
  · intro a
    by_cases ha : a = i
    · subst ha
      simp [Tx.fresh]
    · simpa [ha] using hs.held a
  · intro a r
    by_cases ha : a = i
    · subst ha
      rw [State.outcome_fresh (by simp)]
      exact hView r
    · simp only [State.outcome, Function.update_of_ne ha]
      by_cases hr : r ∈ (s.txs a).held
      · have hOther := hs.untouched (hs.apart a i ha r hr)
        have hSame : A.observe r (s.view A i) = A.observe r s.store :=
          A.observe_applyAll_of_untouched (fun w hw => hOther w (List.mem_append_left _ hw)) s.store
        rw [A.observe_applyAll_congr _ hSame]
        exact hs.outcome a r
      · rw [A.observe_applyAll_of_untouched (hs.untouched hr)]
        exact hView r

/-- Every call keeps the invariant of each resource on the view that it was computed from. -/
def KeepsInvariant (A : Access.{u, v, w, x} σ ω ρ) (Call : σ → List ρ → List ω → Prop)
    (I : (r : ρ) → A.View r → Prop) : Prop :=
  ∀ s held ws, (∀ r, I r (A.observe r s)) → Call s held ws → ∀ r, I r (A.observe r (A.applyAll ws s))

theorem Consistent.step (hCalls : KeepsInvariant A Call I) (hs : Consistent A I s) {e : Event ρ}
    (h : Step A Call s e t) : Consistent A I t := by
  cases h with
  | @acquire i r hFree =>
    refine hs.move ?_ (fun w hw r hr => List.mem_cons_of_mem _ (hs.held i w hw r hr)) (hs.outcome i)
    rintro r' (_ | ⟨_, hr⟩)
    · exact .inr hFree
    · exact .inl hr
  | @call i ws hIdle hCall hFree =>
    have hView : ∀ r, I r (A.observe r (s.view A i)) := by
      intro r
      rw [← State.outcome_eq_view hIdle]
      exact hs.outcome i r
    refine hs.move ?_ ?_ ?_
    · intro r hr
      obtain hNew | hOld := List.mem_append.mp hr
      · obtain ⟨w, hw, hTouch⟩ := List.mem_flatMap.mp hNew
        exact .inr (hFree w hw r hTouch)
      · exact .inl hOld
    · intro w hw r hr
      obtain hOld | hNew := List.mem_append.mp hw
      · exact List.mem_append_right _ (hs.held i w (List.mem_append_left _ hOld) r hr)
      · exact List.mem_append_left _ (List.mem_flatMap.mpr ⟨w, hNew, hr⟩)
    · rw [A.applyAll_append]
      exact hCalls _ _ _ hView hCall
  | @perform i w ws hTodo =>
    have hSame : (s.txs i).pending ++ [w] ++ ws = (s.txs i).pending ++ (s.txs i).todo := by
      rw [hTodo, List.append_assoc]
      rfl
    refine hs.move (fun r hr => .inl hr) ?_ ?_
    · simp only [hSame]
      exact hs.held i
    · simp only [hSame]
      exact hs.outcome i
  | commit hIdle => exact hs.commit hIdle
  | rollback =>
    refine hs.move ?_ ?_ hs.store
    · intro r hr
      simp [Tx.fresh] at hr
    · intro w hw
      simp [Tx.fresh] at hw

/-- An invariant of single resources that holds initially and that every call keeps on its view
holds of every reachable store and of every view of a transaction between two calls. -/
theorem reachable_consistent {Init : σ → Prop} (hInit : ∀ s, Init s → ∀ r, I r (A.observe r s))
    (hCalls : KeepsInvariant A Call I) (h : Reachable (system A Call Init) s) : Consistent A I s :=
  h.invariant (fun _ hs => .initial (hInit _ hs.1) hs.2) fun _ _ _ _ hs hStep => hs.step hCalls hStep

/-! ## One transaction after another -/

section

variable {Init : σ → Prop} {store : σ} {held : List ρ} {pending todo ws : List ω}

def State.quiet (store : σ) : State σ ω ρ := ⟨store, fun _ => .fresh⟩

/-- Only the first transaction is under way. -/
def State.alone (store : σ) (tx : Tx ω ρ) : State σ ω ρ := (State.quiet store).setTx 0 tx

theorem State.alone_free (store : σ) (tx : Tx ω ρ) (r : ρ) : (State.alone store tx).Free 0 r := by
  intro j hj hr
  simp [alone, setTx, quiet, hj, Tx.fresh] at hr

@[simp] theorem State.alone_txs (store : σ) (tx : Tx ω ρ) : (State.alone store tx).txs 0 = tx := by
  simp [alone, setTx]

@[simp] theorem State.alone_setTx (store : σ) (tx tx' : Tx ω ρ) :
    (State.alone store tx).setTx 0 tx' = State.alone store tx' := by
  simp [alone, setTx]

theorem reachable_acquire (h : Reachable (system A Call Init) (.quiet store)) (held : List ρ) :
    Reachable (system A Call Init) (.alone store ⟨held, [], []⟩) := by
  induction held with
  | nil =>
    have hSame : (State.alone store .fresh : State σ ω ρ) = .quiet store := by
      simp [State.alone, State.setTx, State.quiet]
    rw [show (⟨[], [], []⟩ : Tx ω ρ) = .fresh from rfl, hSame]
    exact h
  | cons r held ih =>
    have hNext := ih.step (.acquire (State.alone_free store _ r))
    rwa [State.alone_setTx, State.alone_txs] at hNext

theorem reachable_perform (h : Reachable (system A Call Init) (.alone store ⟨held, pending, todo⟩)) :
    Reachable (system A Call Init) (.alone store ⟨held, pending ++ todo, []⟩) := by
  induction todo generalizing pending with
  | nil => rwa [List.append_nil]
  | cons w todo ih =>
    have hTodo : ((State.alone store ⟨held, pending, w :: todo⟩).txs 0).todo = w :: todo := by simp
    have hNext := h.step (.perform hTodo)
    rw [State.alone_setTx, State.alone_txs] at hNext
    rw [List.append_cons]
    exact ih hNext

/-- A call that nothing interrupts is committed as a whole. -/
theorem reachable_commit (h : Reachable (system A Call Init) (.quiet store)) (hCall : Call store held ws) :
    Reachable (system A Call Init) (.quiet (A.applyAll ws store)) := by
  have hView : ∀ tx : Tx ω ρ, (State.alone store tx).view A 0 = A.applyAll tx.pending store := by
    intro tx
    rw [State.view, State.alone_txs]
    rfl
  let locked : State σ ω ρ := .alone store ⟨held, [], []⟩
  have hReady : Call (locked.view A 0) (locked.txs 0).held ws := by simpa [locked, hView] using hCall
  have hCalled := (reachable_acquire h held).step
    (.call (by simp) hReady fun _ _ r _ => State.alone_free store _ r)
  simp only [State.alone_setTx, State.alone_txs] at hCalled
  have hDone := (reachable_perform hCalled).step (.commit (i := 0) (by simp))
  have hQuiet : (⟨A.applyAll ws store, Function.update (State.alone store
      ⟨ws.flatMap A.touches ++ held, [] ++ ws, []⟩).txs 0 .fresh⟩ : State σ ω ρ) =
        .quiet (A.applyAll ws store) := by
    simp [State.alone, State.setTx, State.quiet]
  rw [hView] at hDone
  exact hQuiet ▸ hDone

end

end LockedStore
