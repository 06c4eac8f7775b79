import GreenPms.Payments.Partition

/-! # The reconciliation does not depend on the order of its rows -/

namespace GreenPms

open Indexes

namespace ReconciliationSnapshot

variable {ι : Type} [LinearOrder ι] {s s' : ReconciliationSnapshot ι} {fact : ReconciliationFact ι}
  {bill : ReconciliationBill ι}

structure Reordered (s s' : ReconciliationSnapshot ι) : Prop where
  bills : s.bills.Perm s'.bills
  facts : s.facts.Perm s'.facts
  claims : s.claims.Perm s'.claims
  since : s.matchingSince = s'.matchingSince

namespace Reordered

/-! ## Reading the rows -/

theorem billById (h : Reordered s s') (id : ι) : s.billById id = s'.billById id := by
  refine find?_perm h.bills fun a ha b hb hA hB => ?_
  exact bill_eq_of_id hb ha ((of_decide_eq_true hA).trans (of_decide_eq_true hB).symm)

theorem factByKey (h : Reordered s s') (key : FactFamily × ι) : s.factByKey key = s'.factByKey key := by
  refine find?_perm h.facts fun a ha b hb hA hB => ?_
  exact fact_eq_of_key hb ha ((of_decide_eq_true hA).trans (of_decide_eq_true hB).symm)

theorem claimsByFact (h : Reordered s s') (key : FactFamily × ι) :
    (s.claimsByFact key).Perm (s'.claimsByFact key) :=
  group_perm _ h.claims key

theorem reservingClaims (h : Reordered s s') : s.reservingClaims.Perm s'.reservingClaims := by
  have hAllocation : s.hasAllocation = s'.hasAllocation := by
    funext key
    exact h.claims.any_eq
  unfold ReconciliationSnapshot.reservingClaims
  rw [hAllocation]
  exact h.claims.filter _

theorem claimReservations (h : Reordered s s') (id : ι) : s.claimReservations id = s'.claimReservations id := by
  unfold ReconciliationSnapshot.claimReservations
  rw [foldl_addTo, foldl_addTo]
  exact congrArg (0 + ·) ((h.reservingClaims.filter _).map _).sum_nat

theorem reservedFactsByBill (h : Reordered s s') (id : ι) :
    (s.reservedFactsByBill id).Perm (s'.reservedFactsByBill id) := by
  unfold ReconciliationSnapshot.reservedFactsByBill
  rw [funext fun claim => h.factByKey (ReconciliationClaim.factKey claim)]
  exact (group_perm _ h.reservingClaims id).filterMap _

/-! ## The bill of a fact -/

theorem lineage (h : Reordered s s') (fact : ReconciliationFact ι) : s.lineage fact = s'.lineage fact := by
  have hNext : s.replacedPayment fact = s'.replacedPayment fact := by
    funext current
    simp only [replacedPayment, h.factByKey]
  rw [ReconciliationSnapshot.lineage, ReconciliationSnapshot.lineage, hNext, h.facts.length_eq]

theorem firstEntry (h : Reordered s s') (fact : ReconciliationFact ι) : s.firstEntry fact = s'.firstEntry fact := by
  have hNext : s.previousEntry fact = s'.previousEntry fact := by
    funext current
    simp only [previousEntry, h.factByKey]
  simp only [ReconciliationSnapshot.firstEntry, hNext, h.facts.length_eq]

theorem selectedClaims (h : Reordered s s') (fact : ReconciliationFact ι) :
    (s.selectedClaims fact).Perm (s'.selectedClaims fact) := by
  have hLinked : ((s.lineage fact).flatMap fun item => s.claimsByFact item.factKey).Perm
      ((s'.lineage fact).flatMap fun item => s'.claimsByFact item.factKey) := by
    rw [h.lineage]
    exact List.Perm.flatMap_left _ fun item _ => h.claimsByFact item.factKey
  have hAllocations := hLinked.filter ReconciliationClaim.allocation
  unfold ReconciliationSnapshot.selectedClaims
  simp only [perm_nil_iff hAllocations]
  split
  · exact hLinked
  · exact hAllocations

theorem evidence (h : Reordered s s') (fact : ReconciliationFact ι) : (s.evidence fact).Perm (s'.evidence fact) := by
  have hSelected := h.selectedClaims fact
  unfold ReconciliationSnapshot.evidence
  cases fact.explicitBillId with
  | some id => simp only [h.billById]; exact .refl _
  | none =>
    simp only [perm_nil_iff hSelected]
    split
    · cases filled fact.reference with
      | none => exact .refl _
      | some reference => exact group_perm _ h.bills _
    · simp only [h.billById]
      refine List.Perm.flatMap_right _ (perm_eraseDups fun id => ?_)
      exact (hSelected.map _).mem_iff

theorem backing (h : Reordered s s') (fact : ReconciliationFact ι) : s.backing fact = s'.backing fact :=
  single_perm (h.evidence fact)

theorem backedBy (h : Reordered s s') (id : ι) : s.backedBy id = s'.backedBy id := by
  funext fact
  simp only [ReconciliationSnapshot.backedBy, h.backing]

theorem selfReserved (h : Reordered s s') (fact : ReconciliationFact ι) :
    s.selfReserved fact = s'.selfReserved fact := by
  simp only [ReconciliationSnapshot.selfReserved, factWithClaims, (h.claimsByFact fact.factKey).isEmpty_eq,
    (h.selectedClaims fact).isEmpty_eq]

theorem orphaned (h : Reordered s s') : s.orphaned = s'.orphaned := by
  funext fact
  simp only [ReconciliationSnapshot.orphaned, matchingStarted, h.backing, h.firstEntry, h.since]

/-! ## The placed facts -/

theorem placed_business (h : Reordered s s') (id : ι) :
    (s.placed.businessByBill id).Perm (s'.placed.businessByBill id) := by
  rw [ReconciliationSnapshot.placed_business, ReconciliationSnapshot.placed_business, h.backedBy]
  exact h.facts.filter _

theorem placed_orphans (h : Reordered s s') : s.placed.orphanFacts.Perm s'.placed.orphanFacts := by
  rw [ReconciliationSnapshot.placed_orphans, ReconciliationSnapshot.placed_orphans, h.orphaned]
  have hLength : ∀ fact, (s.evidence fact).length = (s'.evidence fact).length := fun fact => (h.evidence fact).length_eq
  simp only [hLength]
  exact (h.facts.filter _).map _

theorem placed_reservations (h : Reordered s s') (id : ι) :
    s.placed.reservations id = s'.placed.reservations id := by
  rw [ReconciliationSnapshot.placed_reservations, ReconciliationSnapshot.placed_reservations, h.claimReservations,
    h.backedBy]
  simp only [h.selfReserved]
  exact congrArg (s'.claimReservations id + ·) ((h.facts.filter _).map _).sum_nat

/-! ## The items -/

theorem billIssues (h : Reordered s s') {linked linked' : List (ReconciliationFact ι)} (hLinked : linked.Perm linked')
    (allocated business : Nat) :
    s.billIssues bill linked allocated business = s'.billIssues bill linked' allocated business := by
  have hDuplicate : s.duplicate bill = s'.duplicate bill := by
    unfold duplicate billsByReference
    rw [(group_perm ReconciliationBill.referenceKey h.bills _).length_eq]
  have hParents : (s.parents bill).Perm (s'.parents bill) := group_perm _ (h.bills.filter _) _
  have hOriginal : s.namesOtherOriginal bill = s'.namesOtherOriginal bill := by
    funext fact
    unfold namesOtherOriginal
    cases fact.originalBillId with
    | none => rfl
    | some id => simp only [(hParents.map ReconciliationBill.id).contains_eq]
  simp only [ReconciliationSnapshot.billIssues, refundIssues, verified, hDuplicate, hOriginal, hParents.length_eq,
    hLinked.any_eq]

theorem billItem (h : Reordered s s') (bill : ReconciliationBill ι) : s.billItem bill = s'.billItem bill := by
  have hLinked := h.placed_business bill.id
  have hBusiness : businessMinor (s.placed.businessByBill bill.id) =
      businessMinor (s'.placed.businessByBill bill.id) := ((hLinked.filter _).map _).sum_nat
  have hReserved := h.reservedFactsByBill bill.id
  have hOrders : (((s.placed.businessByBill bill.id ++ s.reservedFactsByBill bill.id).filterMap
        ReconciliationFact.orderId).eraseDups.insertionSort (· ≤ ·)) =
      ((s'.placed.businessByBill bill.id ++ s'.reservedFactsByBill bill.id).filterMap
        ReconciliationFact.orderId).eraseDups.insertionSort (· ≤ ·) := by
    refine insertionSort_perm le_total (fun _ _ _ => le_trans) (fun _ _ _ _ => le_antisymm) (perm_eraseDups fun id => ?_)
    exact ((hLinked.append hReserved).filterMap _).mem_iff
  have hActive := hLinked.filter fun fact => fact.membershipOrderId.isSome
  have hMembers : single (((if (s.placed.businessByBill bill.id).filter (fun fact => fact.membershipOrderId.isSome) = []
        then s.reservedFactsByBill bill.id else (s.placed.businessByBill bill.id).filter fun fact =>
          fact.membershipOrderId.isSome).filterMap ReconciliationFact.membershipOrderId).eraseDups) =
      single (((if (s'.placed.businessByBill bill.id).filter (fun fact => fact.membershipOrderId.isSome) = []
        then s'.reservedFactsByBill bill.id else (s'.placed.businessByBill bill.id).filter fun fact =>
          fact.membershipOrderId.isSome).filterMap ReconciliationFact.membershipOrderId).eraseDups) := by
    refine single_perm (perm_eraseDups fun id => ?_)
    simp only [perm_nil_iff hActive]
    split
    · exact (hReserved.filterMap _).mem_iff
    · exact (hActive.filterMap _).mem_iff
  simp only [ReconciliationSnapshot.billItem, hBusiness, h.placed_reservations, hOrders, hMembers,
    h.billIssues hLinked]

end Reordered

/-! ## The order of the items -/

theorem itemBefore_total (a b : PaymentReconciliationItem ι) : itemBefore a b ∨ itemBefore b a := by
  unfold itemBefore
  obtain hLess | hEq | hLess := Nat.lt_trichotomy a.id.rank.1 b.id.rank.1
  · exact .inl (.inl hLess)
  · obtain hId | hId := le_total a.id.rank.2 b.id.rank.2
    · exact .inl (.inr ⟨hEq, hId⟩)
    · exact .inr (.inr ⟨hEq.symm, hId⟩)
  · exact .inr (.inl hLess)

theorem itemBefore_trans {a b c : PaymentReconciliationItem ι} (hab : itemBefore a b) (hbc : itemBefore b c) :
    itemBefore a c := by
  obtain hab | ⟨hab, habId⟩ := hab
  · obtain hbc | ⟨hbc, -⟩ := hbc
    · exact .inl (Nat.lt_trans hab hbc)
    · exact .inl (hbc ▸ hab)
  · obtain hbc | ⟨hbc, hbcId⟩ := hbc
    · exact .inl (hab ▸ hbc)
    · exact .inr ⟨hab.trans hbc, le_trans habId hbcId⟩

omit [LinearOrder ι] in
theorem rank_injective : Function.Injective (ReconciliationItemId.rank (ι := ι)) := by
  rintro (_ | ⟨_ | _, _⟩) (_ | ⟨_ | _, _⟩) h <;> simp_all [ReconciliationItemId.rank]

theorem itemBefore_antisymm {a b : PaymentReconciliationItem ι} (hab : itemBefore a b) (hba : itemBefore b a) :
    a.id = b.id := by
  refine rank_injective ?_
  obtain hab | ⟨hab, habId⟩ := hab
  · obtain hba | ⟨hba, -⟩ := hba <;> omega
  · obtain hba | ⟨-, hbaId⟩ := hba
    · omega
    · exact Prod.ext hab (le_antisymm habId hbaId)

theorem item_eq_of_id {a b : PaymentReconciliationItem ι} (ha : a ∈ s.projectPaymentReconciliation)
    (hb : b ∈ s.projectPaymentReconciliation) (hId : a.id = b.id) : a = b := by
  obtain ⟨bill, hBill, hA⟩ | ⟨fact, hFact, -, rfl⟩ := mem_project.mp ha
  · have hIdA := (billItem_id hA).1
    obtain ⟨other, hOther, hB⟩ | ⟨fact, -, -, rfl⟩ := mem_project.mp hb
    · have hIdB := (billItem_id hB).1
      rw [hId, hIdB, ReconciliationItemId.bill.injEq] at hIdA
      obtain rfl := bill_eq_of_id hBill hOther hIdA
      exact Option.some.inj (hA.symm.trans hB)
    · rw [hId] at hIdA
      cases hIdA
  · obtain ⟨other, -, hB⟩ | ⟨other, hOther, -, rfl⟩ := mem_project.mp hb
    · have hIdB := (billItem_id hB).1
      rw [← hId] at hIdB
      cases hIdB
    · have hKey : other.factKey = fact.factKey := by
        simp only [orphanItem, ReconciliationItemId.fact.injEq] at hId
        exact Prod.ext hId.1.symm hId.2.symm
      rw [fact_eq_of_key hFact hOther hKey]

theorem Reordered.projectPaymentReconciliation (h : Reordered s s') :
    s.projectPaymentReconciliation = s'.projectPaymentReconciliation := by
  have hItems : (s.bills.filterMap s.billItem ++ s.placed.orphanFacts.map orphanItem).Perm
      (s'.bills.filterMap s'.billItem ++ s'.placed.orphanFacts.map orphanItem) := by
    rw [funext h.billItem]
    exact (h.bills.filterMap _).append (h.placed_orphans.map _)
  refine insertionSort_perm itemBefore_total (fun _ _ _ => itemBefore_trans) ?_ hItems
  intro a ha b hb hab hba
  exact item_eq_of_id ((List.mem_insertionSort _).mpr ha) ((List.mem_insertionSort _).mpr hb) (itemBefore_antisymm hab hba)

/-- Every positive fact inside the matching is counted by one item and no other fact is; another
order of the rows gives the same items; and the items without an issue are those of clean bills. -/
theorem payment_reconciliation_partition {ι : Type} [LinearOrder ι] (s : ReconciliationSnapshot ι) :
    (∀ item ∈ s.projectPaymentReconciliation,
      item.businessMinor = ((s.facts.filter (s.counts item)).map ReconciliationFact.amountMinor).sum) ∧
    (∀ fact ∈ s.facts, fact.effective = true → fact.currency = "CNY" → 0 < fact.amountMinor →
      (s.projectPaymentReconciliation.countP fun item => s.counts item fact) =
        if s.outsideMatching fact then 0 else 1) ∧
    (∀ s' : ReconciliationSnapshot ι, Reordered s s' →
      s.projectPaymentReconciliation = s'.projectPaymentReconciliation) ∧
    ∀ bill ∈ s.bills, ∀ item ∈ s.projectPaymentReconciliation, item.billId = some bill.id →
      (item.issues = [] ↔ s.Clean bill item.allocatedMinor item.businessMinor) := by
  refine ⟨fun item hItem => businessMinor_counts hItem,
    fun fact hFact hEffective hCny hPositive => counted_once hFact hEffective hCny hPositive,
    fun s' h => h.projectPaymentReconciliation, ?_⟩
  intro bill hBill item hItem hId
  obtain ⟨other, hOther, hSome⟩ | ⟨fact, -, -, rfl⟩ := mem_project.mp hItem
  · obtain ⟨-, hBillId, -, hIssues⟩ := billItem_id hSome
    obtain rfl := bill_eq_of_id hBill hOther (Option.some.inj (hBillId.symm.trans hId))
    rw [hIssues]
    exact billIssues_eq_nil hOther item.allocatedMinor item.businessMinor
  · cases hId

/-- One refund and its payment, both booked in full, and a payment that is not booked. -/
def sampleSnapshot : ReconciliationSnapshot Nat where
  bills := [⟨1, 9, 8, .collection, "T1", none, some 500, .success, false, none, 20, 20, true⟩,
    ⟨2, 9, 8, .refund, "R1", some "T1", some 200, .success, false, none, 30, 30, true⟩,
    ⟨3, 9, 8, .collection, "T2", none, some 100, .success, false, none, 40, 40, true⟩]
  facts := [⟨11, .stay, .collection, 500, "CNY", some "T1", none, none, some 1, some 7, none, none, 21, true⟩,
    ⟨12, .stay, .refund, 200, "CNY", some "R1", some "T1", some 1, none, some 7, none, none, 31, true⟩]
  claims := [⟨1, 11, .stay, 500, false, true⟩, ⟨2, 12, .stay, 200, false, true⟩]
  matchingSince := some 10
  bill_keys := by decide
  fact_keys := by decide

set_option maxRecDepth 4000 in
example : sampleSnapshot.projectPaymentReconciliation.map (fun item => (item.id, item.issues.map ReconciliationIssue.code)) =
    [(.bill 1, []), (.bill 2, []), (.bill 3, [.unassigned])] := by decide

theorem payment_reconciliation_partition_sample :
    (sampleSnapshot.projectPaymentReconciliation.countP fun item => sampleSnapshot.counts item
      ⟨12, .stay, .refund, 200, "CNY", some "R1", some "T1", some 1, none, some 7, none, none, 31, true⟩) = 1 :=
  (payment_reconciliation_partition sampleSnapshot).2.1 _ (by simp [sampleSnapshot]) rfl rfl (by decide)

end ReconciliationSnapshot

end GreenPms
