import Mathlib.Algebra.Ring.Int.Defs
import Mathlib.Algebra.BigOperators.Group.List.Basic
import Mathlib.Data.List.Nodup

/-! # Amounts by key

A table of amounts with one row for each key, as a loop reads and overwrites it, and the total that
it holds.
-/

structure Balances (κ : Type*) where
  rows : List (κ × Int)
  keyed : (rows.map Prod.fst).Nodup

namespace Balances

variable {κ : Type*}

def total (m : Balances κ) : Int := (m.rows.map Prod.snd).sum

def empty : Balances κ := ⟨[], List.nodup_nil⟩

@[simp] theorem total_empty : (empty : Balances κ).total = 0 := rfl

section

variable [DecidableEq κ]

/-- The rows with the amount of a key replaced or, if it has none, added. -/
def write (k : κ) (v : Int) : List (κ × Int) → List (κ × Int)
  | [] => [(k, v)]
  | row :: rest => if row.1 = k then (k, v) :: rest else row :: write k v rest

theorem mem_write_keys {k j : κ} {v : Int} {rows : List (κ × Int)} :
    j ∈ (write k v rows).map Prod.fst ↔ j = k ∨ j ∈ rows.map Prod.fst := by
  induction rows with
  | nil => simp [write]
  | cons row rest ih =>
    rw [write]
    split
    case isTrue hKey =>
      subst hKey
      simp
    case isFalse =>
      rw [List.map_cons, List.mem_cons, ih, List.map_cons, List.mem_cons]
      exact or_left_comm

theorem write_keyed (k : κ) (v : Int) {rows : List (κ × Int)} (h : (rows.map Prod.fst).Nodup) :
    ((write k v rows).map Prod.fst).Nodup := by
  induction rows with
  | nil => simp [write]
  | cons row rest ih =>
    obtain ⟨hNew, hRest⟩ := List.nodup_cons.mp h
    rw [write]
    split
    case isTrue hKey =>
      subst hKey
      exact h
    case isFalse hKey =>
      refine List.nodup_cons.mpr ⟨fun hMem => ?_, ih hRest⟩
      obtain hSame | hOld := mem_write_keys.mp hMem
      · exact hKey hSame
      · exact hNew hOld

def put (m : Balances κ) (k : κ) (v : Int) : Balances κ := ⟨write k v m.rows, write_keyed k v m.keyed⟩

def get? (m : Balances κ) (k : κ) : Option Int := (m.rows.find? fun row => row.1 = k).map Prod.snd

def get (m : Balances κ) (k : κ) : Int := (m.get? k).getD 0

def has (m : Balances κ) (k : κ) : Bool := (m.get? k).isSome

def ofRows (rows : List (κ × Int)) : Balances κ := rows.foldl (fun m row => m.put row.1 row.2) empty

theorem write_total (k : κ) (v : Int) (rows : List (κ × Int)) : ((write k v rows).map Prod.snd).sum =
    (rows.map Prod.snd).sum - ((rows.find? fun row => row.1 = k).map Prod.snd).getD 0 + v := by
  induction rows with
  | nil => simp [write]
  | cons row rest ih =>
    by_cases hKey : row.1 = k
    · simp only [write, hKey, if_true, List.map_cons, List.sum_cons, List.find?_cons, decide_true, Option.map_some,
        Option.getD_some]
      omega
    · simp only [write, hKey, if_false, List.map_cons, List.sum_cons, ih, List.find?_cons, decide_false]
      omega

@[simp] theorem total_put (m : Balances κ) (k : κ) (v : Int) : (m.put k v).total = m.total - m.get k + v :=
  write_total k v m.rows

/-! ## Tables without negative amounts -/

def Nonneg (m : Balances κ) : Prop := ∀ row ∈ m.rows, 0 ≤ row.2

theorem Nonneg.get {m : Balances κ} (h : m.Nonneg) (k : κ) : 0 ≤ m.get k := by
  rw [Balances.get, get?]
  cases hFind : m.rows.find? fun row => row.1 = k with
  | none => exact Int.le_refl 0
  | some row => exact h row (List.mem_of_find?_eq_some hFind)

theorem Nonneg.put {m : Balances κ} (h : m.Nonneg) (k : κ) {v : Int} (hv : 0 ≤ v) : (m.put k v).Nonneg := by
  have hWrite : ∀ rows : List (κ × Int), (∀ row ∈ rows, 0 ≤ row.2) → ∀ row ∈ write k v rows, 0 ≤ row.2 := by
    intro rows hRows
    induction rows with
    | nil => exact List.forall_mem_singleton.mpr hv
    | cons row rest ih =>
      obtain ⟨hRow, hRest⟩ := List.forall_mem_cons.mp hRows
      rw [write]
      split
      · exact List.forall_mem_cons.mpr ⟨hv, hRest⟩
      · exact List.forall_mem_cons.mpr ⟨hRow, ih hRest⟩
  exact hWrite m.rows h

/-- A key that comes twice counts once. -/
theorem ofRows_spec {rows : List (κ × Int)} (h : ∀ row ∈ rows, 0 ≤ row.2) :
    (ofRows rows).Nonneg ∧ (ofRows rows).total ≤ (rows.map Prod.snd).sum := by
  have hFold : ∀ (rows : List (κ × Int)) (m : Balances κ), m.Nonneg → (∀ row ∈ rows, 0 ≤ row.2) →
      (rows.foldl (fun m row => m.put row.1 row.2) m).Nonneg ∧
        (rows.foldl (fun m row => m.put row.1 row.2) m).total ≤ m.total + (rows.map Prod.snd).sum := by
    intro rows
    induction rows with
    | nil =>
      intro m hm _
      exact ⟨hm, by simp⟩
    | cons row rest ih =>
      intro m hm hRows
      obtain ⟨hRow, hRest⟩ := List.forall_mem_cons.mp hRows
      obtain ⟨hNonneg, hTotal⟩ := ih (m.put row.1 row.2) (hm.put row.1 hRow) hRest
      refine ⟨hNonneg, Int.le_trans hTotal ?_⟩
      have hOld := hm.get row.1
      rw [total_put, List.map_cons, List.sum_cons]
      omega
  have hSpec := hFold rows empty (fun _ hNone => absurd hNone List.not_mem_nil) h
  simpa [ofRows] using hSpec

end

end Balances
