import GreenPms.Command.Types
import GreenPms.Library.Checked

/-! # Order status and amendments

The append-only amendments of one order, and the check-out that a check-out reversal undoes.
-/

namespace GreenPms

open Checked

inductive OrderStatus where
  | reserved | checkedIn | checkedOut | cancelled | noShow | checkInRevoked
  deriving DecidableEq, Repr

structure Amendment where
  sequence : Nat
  type : CommandType
  commandId : Nat
  deriving DecidableEq, Repr

def lastCheckout (amendments : List Amendment) : Option Amendment :=
  amendments.findRev? fun a => a.type = .checkOut

/-- Something other than a correction of an occupant happened after the check-out. -/
def changedSince (amendments : List Amendment) (checkout : Amendment) : Bool :=
  amendments.any fun a => checkout.sequence < a.sequence && a.type ≠ .correctOrderOccupant

/-- The shortening that the command of an early check-out appended just before it. -/
def earlyShortening (amendments : List Amendment) (checkout : Amendment) : Option Amendment :=
  amendments.find? fun a =>
    a.sequence + 1 = checkout.sequence && a.type = .shortenStay && a.commandId = checkout.commandId

/-- Amendments with increasing sequence numbers up to the version of their order. -/
structure Numbered (amendments : List Amendment) (version : Nat) : Prop where
  bounded : ∀ a ∈ amendments, a.sequence ≤ version
  increasing : amendments.Pairwise fun a b => a.sequence < b.sequence

theorem mem_of_findRev? {α : Type} {p : α → Bool} {xs : List α} {x : α} (h : xs.findRev? p = some x) :
    x ∈ xs ∧ p x = true := by
  rw [List.findRev?_eq_find?_reverse] at h
  exact ⟨List.mem_reverse.mp (List.mem_of_find?_eq_some h), List.find?_some h⟩

namespace Numbered

variable {amendments : List Amendment} {version : Nat}

theorem append (h : Numbered amendments version) (type : CommandType) (commandId : Nat) :
    Numbered (amendments ++ [⟨version + 1, type, commandId⟩]) (version + 1) where
  bounded := by
    intro a ha
    obtain hOld | hNew := List.mem_append.mp ha
    · exact Nat.le_succ_of_le (h.bounded a hOld)
    · rw [List.mem_singleton.mp hNew]
  increasing := by
    rw [List.pairwise_append]
    refine ⟨h.increasing, List.pairwise_singleton .., fun a ha b hb => ?_⟩
    rw [List.mem_singleton.mp hb]
    exact Nat.lt_succ_of_le (h.bounded a ha)

theorem lastCheckout_le (h : Numbered amendments version) {checkout : Amendment}
    (hLast : lastCheckout amendments = some checkout) : checkout.sequence ≤ version :=
  h.bounded checkout (mem_of_findRev? hLast).1

theorem changedSince_append (h : Numbered amendments version) {checkout : Amendment}
    (hLast : lastCheckout amendments = some checkout) {type : CommandType}
    (hType : type ≠ .correctOrderOccupant) (commandId : Nat) :
    changedSince (amendments ++ [⟨version + 1, type, commandId⟩]) checkout = true := by
  have hLe := h.lastCheckout_le hLast
  simp only [changedSince, List.any_append, List.any_cons, List.any_nil, Bool.or_false, Bool.or_eq_true]
  exact .inr (by simp [hType]; omega)

end Numbered

theorem lastCheckout_append {amendments : List Amendment} {a : Amendment} (h : a.type ≠ .checkOut) :
    lastCheckout (amendments ++ [a]) = lastCheckout amendments := by
  simp [lastCheckout, h]

theorem lastCheckout_append_checkOut {amendments : List Amendment} {a : Amendment}
    (h : a.type = .checkOut) : lastCheckout (amendments ++ [a]) = some a := by
  simp [lastCheckout, h]

end GreenPms
