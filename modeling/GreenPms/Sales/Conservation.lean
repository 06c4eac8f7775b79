import Mathlib.Algebra.Order.BigOperators.Group.List
import GreenPms.Sales.Recognition

/-! # Opening credit is spent once

The credit in all stores together falls by what a payment is reduced by, and what a reversed payment
hands on it has taken before.
-/

namespace GreenPms

open Balances

namespace CreditStores

def total (s : CreditStores) : Int := s.available.total + (s.released.map ReleasedCredit.amount).sum

def Nonneg (s : CreditStores) : Prop := s.available.Nonneg ∧ ∀ bucket ∈ s.released, 0 ≤ bucket.amount

variable {s : CreditStores}

@[simp] theorem total_release (s : CreditStores) (billId : String) (amount : Int) (time : Nat) :
    (s.release billId amount time).total = s.total + amount := by
  simp only [total, release, List.map_append, List.map_cons, List.map_nil, List.sum_append, List.sum_cons,
    List.sum_nil]
  omega

theorem Nonneg.release (h : s.Nonneg) (billId : String) {amount : Int} (ha : 0 ≤ amount) (time : Nat) :
    (s.release billId amount time).Nonneg := by
  refine ⟨h.1, fun bucket hMem => ?_⟩
  obtain hOld | hNew := List.mem_append.mp hMem
  · exact h.2 bucket hOld
  · obtain rfl := List.mem_singleton.mp hNew
    exact ha

theorem total_nonneg (h : s.Nonneg) : 0 ≤ s.total := by
  have hAvailable : 0 ≤ s.available.total := List.sum_nonneg fun amount hMem => by
    obtain ⟨row, hRow, rfl⟩ := List.mem_map.mp hMem
    exact h.1 row hRow
  have hReleased : 0 ≤ (s.released.map ReleasedCredit.amount).sum := List.sum_nonneg fun amount hMem => by
    obtain ⟨bucket, hBucket, rfl⟩ := List.mem_map.mp hMem
    exact h.2 bucket hBucket
  exact Int.add_nonneg hAvailable hReleased

theorem followLink_spec (facts : List MatchedSaleFact) (link : SourceLink) (h : s.Nonneg) :
    (s.followLink facts link).Nonneg ∧ (s.followLink facts link).total = s.total := by
  rw [followLink.eq_def]
  cases link.reversedAt with
  | none => exact ⟨h, rfl⟩
  | some time =>
    dsimp only
    split
    · exact ⟨h, rfl⟩
    split
    · exact ⟨h, rfl⟩
    · have hMoved := h.release link.billId (h.1.get link.sourceKey) time
      refine ⟨⟨h.1.put link.sourceKey (Int.le_refl 0), hMoved.2⟩, ?_⟩
      have hTotal := total_release s link.billId (s.available.get link.sourceKey) time
      simp only [total, release, total_put] at hTotal ⊢
      omega

theorem opened_spec (facts : List MatchedSaleFact) {opening : List SalesOpening}
    (hOpening : ∀ row ∈ opening, 0 ≤ row.amountMinor) (sourceLinks : List SourceLink) :
    (opened facts opening sourceLinks).Nonneg ∧
      (opened facts opening sourceLinks).total ≤ (opening.map SalesOpening.amountMinor).sum := by
  have hRows : ∀ row ∈ opening.map fun row => (row.key, row.amountMinor), 0 ≤ row.2 := by
    intro row hMem
    obtain ⟨source, hSource, rfl⟩ := List.mem_map.mp hMem
    exact hOpening source hSource
  obtain ⟨hNonneg, hTotal⟩ := ofRows_spec hRows
  have hLinks : ∀ (links : List SourceLink) (s : CreditStores), s.Nonneg →
      (links.foldl (followLink facts) s).Nonneg ∧ (links.foldl (followLink facts) s).total = s.total := by
    intro links
    induction links with
    | nil => exact fun s hs => ⟨hs, rfl⟩
    | cons link rest ih =>
      intro s hs
      obtain ⟨hNext, hSame⟩ := followLink_spec facts link hs
      obtain ⟨hLast, hRest⟩ := ih _ hNext
      exact ⟨hLast, hRest.trans hSame⟩
  obtain ⟨hLast, hSame⟩ := hLinks sourceLinks ⟨ofRows (opening.map fun row => (row.key, row.amountMinor)), []⟩
    ⟨hNonneg, fun _ hNone => absurd hNone List.not_mem_nil⟩
  refine ⟨hLast, ?_⟩
  rw [opened, hSame]
  simpa [total, Function.comp_def] using hTotal

end CreditStores

theorem drawReleased_taken {billId : Option String} {registeredAt : Nat} {bucket : ReleasedCredit}
    (h : some bucket.billId = billId ∧ bucket.at_ ≤ registeredAt) (amount : Int) (rest : List ReleasedCredit) :
    drawReleased billId registeredAt amount (bucket :: rest) =
      ((drawReleased billId registeredAt (amount - min bucket.amount amount) rest).1,
        { bucket with amount := bucket.amount - min bucket.amount amount } ::
          (drawReleased billId registeredAt (amount - min bucket.amount amount) rest).2) := by
  rw [drawReleased, if_pos h]

theorem drawReleased_passed {billId : Option String} {registeredAt : Nat} {bucket : ReleasedCredit}
    (h : ¬(some bucket.billId = billId ∧ bucket.at_ ≤ registeredAt)) (amount : Int) (rest : List ReleasedCredit) :
    drawReleased billId registeredAt amount (bucket :: rest) =
      ((drawReleased billId registeredAt amount rest).1,
        bucket :: (drawReleased billId registeredAt amount rest).2) := by
  rw [drawReleased, if_neg h]

theorem drawReleased_spec (billId : Option String) (registeredAt : Nat) (buckets : List ReleasedCredit) :
    ∀ amount, 0 ≤ amount → (∀ bucket ∈ buckets, 0 ≤ bucket.amount) →
      0 ≤ (drawReleased billId registeredAt amount buckets).1 ∧
      (drawReleased billId registeredAt amount buckets).1 ≤ amount ∧
      (∀ bucket ∈ (drawReleased billId registeredAt amount buckets).2, 0 ≤ bucket.amount) ∧
      ((drawReleased billId registeredAt amount buckets).2.map ReleasedCredit.amount).sum + amount =
        (buckets.map ReleasedCredit.amount).sum + (drawReleased billId registeredAt amount buckets).1 := by
  induction buckets with
  | nil =>
    intro amount hAmount _
    exact ⟨hAmount, Int.le_refl amount, fun _ hNone => absurd hNone List.not_mem_nil, rfl⟩
  | cons bucket rest ih =>
    intro amount hAmount hBuckets
    obtain ⟨hBucket, hRest⟩ := List.forall_mem_cons.mp hBuckets
    by_cases hOpen : some bucket.billId = billId ∧ bucket.at_ ≤ registeredAt
    · obtain ⟨hLow, hHigh, hKept, hSum⟩ := ih (amount - min bucket.amount amount) (by omega) hRest
      rw [drawReleased_taken hOpen]
      refine ⟨hLow, by dsimp only; omega, List.forall_mem_cons.mpr ⟨by dsimp only; omega, hKept⟩, ?_⟩
      simp only [List.map_cons, List.sum_cons]
      omega
    · obtain ⟨hLow, hHigh, hKept, hSum⟩ := ih amount hAmount hRest
      rw [drawReleased_passed hOpen]
      refine ⟨hLow, hHigh, List.forall_mem_cons.mpr ⟨hBucket, hKept⟩, ?_⟩
      simp only [List.map_cons, List.sum_cons]
      omega

namespace MatchedSaleFact

variable {fact : MatchedSaleFact} {s : CreditStores}

theorem handOn_spec (h : s.Nonneg) {amount : Int} (ha : amount ≤ fact.amountMinor) :
    (fact.handOn amount s).Nonneg ∧ (fact.handOn amount s).total ≤ s.total + (fact.amountMinor - amount) ∧
      (fact.reversed = false → (fact.handOn amount s).total = s.total) := by
  rw [handOn]
  split
  · split
    case isTrue hHanded =>
      refine ⟨h.release _ (by omega) _, ?_, fun hKept => absurd hHanded.1 (by simp [hKept])⟩
      rw [CreditStores.total_release]
    case isFalse => exact ⟨h, by omega, fun _ => rfl⟩
  · exact ⟨h, by omega, fun _ => rfl⟩

theorem takeCredit_spec (h : s.Nonneg) (hFact : 0 ≤ fact.amountMinor) :
    (fact.takeCredit s).2.Nonneg ∧ 0 ≤ (fact.takeCredit s).1 ∧ (fact.takeCredit s).1 ≤ fact.amountMinor ∧
      (fact.takeCredit s).2.total ≤ s.total ∧
      (fact.reversed = false → (fact.takeCredit s).2.total + fact.amountMinor = s.total + (fact.takeCredit s).1) := by
  have hCarry := h.1.get (fact.creditKey s.available)
  rw [takeCredit]
  generalize fact.creditKey s.available = key at hCarry ⊢
  obtain ⟨hLow, hHigh, hKept, hSum⟩ := drawReleased_spec fact.billId fact.registeredAt s.released
    (fact.amountMinor - min (s.available.get key) fact.amountMinor) (by omega) h.2
  dsimp only
  generalize drawReleased fact.billId fact.registeredAt
    (fact.amountMinor - min (s.available.get key) fact.amountMinor) s.released = drawn at hLow hHigh hKept hSum ⊢
  have hTaken : CreditStores.Nonneg
      ⟨s.available.put key (s.available.get key - min (s.available.get key) fact.amountMinor), drawn.2⟩ :=
    ⟨h.1.put key (by omega), hKept⟩
  obtain ⟨hNonneg, hAtMost, hPlain⟩ := handOn_spec hTaken (show drawn.1 ≤ fact.amountMinor by omega)
  have hTotal : CreditStores.total
      ⟨s.available.put key (s.available.get key - min (s.available.get key) fact.amountMinor), drawn.2⟩ +
        fact.amountMinor = s.total + drawn.1 := by
    simp only [CreditStores.total, total_put]
    omega
  refine ⟨hNonneg, hLow, by omega, by omega, fun hReversed => ?_⟩
  rw [hPlain hReversed]
  exact hTotal

end MatchedSaleFact

theorem settleFact_spec {fact : MatchedSaleFact} {s : CreditStores} (h : s.Nonneg) (hFact : 0 ≤ fact.amountMinor) :
    (settleFact fact s).2.Nonneg ∧ 0 ≤ (settleFact fact s).1 ∧ (settleFact fact s).1 ≤ fact.amountMinor ∧
      (settleFact fact s).2.total ≤ s.total ∧ (fact.reversed = false → fact.refund = false →
        (settleFact fact s).2.total + fact.amountMinor = s.total + (settleFact fact s).1) := by
  rw [settleFact]
  cases hRefund : fact.refund with
  | true => exact ⟨h, hFact, Int.le_refl _, Int.le_refl _, fun _ hNot => absurd hNot Bool.noConfusion⟩
  | false =>
    obtain ⟨hNonneg, hLow, hHigh, hTotal, hPlain⟩ := fact.takeCredit_spec h hFact
    exact ⟨hNonneg, hLow, hHigh, hTotal, fun hReversed _ => hPlain hReversed⟩

namespace SaleOutcome

def fact : SaleOutcome → MatchedSaleFact
  | .withheld fact => fact
  | .settled fact _ => fact

def reduction : SaleOutcome → Int
  | .withheld _ => 0
  | .settled fact amount => if fact.reversed = true ∨ fact.refund = true then 0 else fact.amountMinor - amount

def Within : SaleOutcome → Prop
  | .withheld _ => True
  | .settled fact amount => 0 ≤ amount ∧ amount ≤ fact.amountMinor

end SaleOutcome

theorem settleFacts_facts (all facts : List MatchedSaleFact) (s : CreditStores) :
    (settleFacts all s facts).map SaleOutcome.fact = facts := by
  induction facts generalizing s with
  | nil => rfl
  | cons fact rest ih =>
    rw [settleFacts]
    split
    · rw [List.map_cons, ih, SaleOutcome.fact]
    · rw [List.map_cons, ih, SaleOutcome.fact]

theorem settleFacts_spends (all : List MatchedSaleFact) {facts : List MatchedSaleFact} {s : CreditStores}
    (h : s.Nonneg) (hFacts : ∀ fact ∈ facts, 0 ≤ fact.amountMinor) :
    ((settleFacts all s facts).map SaleOutcome.reduction).sum ≤ s.total ∧
      ∀ outcome ∈ settleFacts all s facts, outcome.Within := by
  induction facts generalizing s with
  | nil => exact ⟨CreditStores.total_nonneg h, fun _ hNone => absurd hNone List.not_mem_nil⟩
  | cons fact rest ih =>
    obtain ⟨hFact, hRest⟩ := List.forall_mem_cons.mp hFacts
    rw [settleFacts]
    split
    · obtain ⟨hSpent, hWithin⟩ := ih h hRest
      refine ⟨?_, List.forall_mem_cons.mpr ⟨trivial, hWithin⟩⟩
      rw [List.map_cons, List.sum_cons, SaleOutcome.reduction, Int.zero_add]
      exact hSpent
    · obtain ⟨hNonneg, hLow, hHigh, hTotal, hPlain⟩ := settleFact_spec h hFact
      obtain ⟨hSpent, hWithin⟩ := ih hNonneg hRest
      refine ⟨?_, List.forall_mem_cons.mpr ⟨⟨hLow, hHigh⟩, hWithin⟩⟩
      rw [List.map_cons, List.sum_cons, SaleOutcome.reduction]
      split
      case isTrue => omega
      case isFalse hCounts =>
        obtain ⟨hReversed, hRefund⟩ := not_or.mp hCounts
        have hTaken := hPlain (Bool.eq_false_iff.mpr hReversed) (Bool.eq_false_iff.mpr hRefund)
        omega

theorem mem_putFact {facts : List MatchedSaleFact} {fact f : MatchedSaleFact} (h : f ∈ putFact facts fact) :
    f ∈ facts ∨ f = fact := by
  rw [putFact] at h
  split at h
  · obtain ⟨g, hg, hEq⟩ := List.mem_map.mp h
    split at hEq
    · exact .inr hEq.symm
    · exact .inl (hEq ▸ hg)
  · exact (List.mem_append.mp h).imp id List.mem_singleton.mp

theorem mem_uniqueFacts {facts : List MatchedSaleFact} {f : MatchedSaleFact} (h : f ∈ uniqueFacts facts) :
    f ∈ facts := by
  have hFold : ∀ (rest kept : List MatchedSaleFact), f ∈ rest.foldl putFact kept → f ∈ kept ∨ f ∈ rest := by
    intro rest
    induction rest with
    | nil => exact fun kept hMem => .inl hMem
    | cons fact rest ih =>
      intro kept hMem
      obtain hKept | hRest := ih _ hMem
      · exact (mem_putFact hKept).imp id fun hSame => List.mem_cons.mpr (.inl hSame)
      · exact .inr (List.mem_cons_of_mem fact hRest)
  exact (hFold facts [] h).resolve_left List.not_mem_nil

theorem outcomes_facts (facts : List MatchedSaleFact) (opening : List SalesOpening) (sourceLinks : List SourceLink) :
    ((outcomes facts opening sourceLinks).map SaleOutcome.fact).Perm (uniqueFacts facts) := by
  rw [outcomes, settleFacts_facts]
  exact List.perm_insertionSort _ _

theorem SaleOutcome.event_sale {outcome : SaleOutcome} {recognitionFrom : Nat} {event : SaleEvent}
    (h : outcome.event recognitionFrom = some event) (hWithin : outcome.Within) (hSale : event.kind = .sale) :
    outcome = .settled outcome.fact event.amountMinor ∧ event.id = outcome.fact.id ∧ outcome.fact.refund = false ∧ 1 ≤ event.amountMinor ∧
      event.amountMinor ≤ outcome.fact.amountMinor := by
  cases outcome with
  | withheld fact => cases h
  | settled fact amount =>
    simp only [SaleOutcome.event] at h
    split at h
    case isTrue => cases h
    case isFalse hCounts =>
      obtain rfl := Option.some.inj h
      cases hRefund : fact.refund with
      | true => simp [hRefund] at hSale
      | false =>
        have hSome : amount ≠ 0 := fun hZero => hCounts (.inr (.inr hZero))
        obtain ⟨hLow, hHigh⟩ := hWithin
        refine ⟨rfl, rfl, hRefund, ?_, hHigh⟩
        show 1 ≤ amount
        omega

def samplePayment : MatchedSaleFact :=
  { id := 1
    source := .direct
    date := 3
    currency := "CNY"
    amountMinor := 300
    registeredAt := 5
    orderId := some 1
    memberId := none
    billId := some "B"
    billAmountMinor := some 600
    verified := true
    reversed := true
    reversedAt := some 8
    refund := false
    sourceKey := "STAY_FACT:1" }

/-- A credit of 200 that a reversed payment took and handed on to the one that was made after it. -/
def samplePayments : List MatchedSaleFact :=
  [samplePayment, { samplePayment with
    id := 2
    registeredAt := 9
    reversed := false
    reversedAt := none
    sourceKey := "STAY_FACT:2" }]

end GreenPms
