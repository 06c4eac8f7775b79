import GreenPms.Payments.RefundReserve

/-! # A payment share registered with its refunds

One command books a share of a payment and refunds that were made of it before. It is accepted
when what stays of the payment still covers the refunds that are not booked, or when the share is
refunded whole.
-/

namespace GreenPms

open Checked Totals TransitionSystem

namespace AllocationTables

variable {d : PaymentDirectory} {t t' : AllocationTables}

/-! ## The facts -/

theorem recordFact_eq_ok {f : CollectionFact} {reference : Option String} (h : t.recordFact f reference = .ok t') :
    t'.funds = t.funds.addFact f ∧ t'.allocations = t.allocations ∧ t'.released = t.released ∧
      ∀ g ∈ t.funds.facts, g.factId ≠ f.factId := by
  simp only [recordFact, bind_eq_ok, pure_eq_ok] at h
  obtain ⟨funds, hInsert, rfl⟩ := h
  obtain ⟨rfl, hFresh⟩ := FundsTables.insertFact_eq_ok hInsert
  exact ⟨rfl, rfl, rfl, hFresh⟩

theorem Ok.recordFact (h : t.Ok d) {f : CollectionFact} {reference : Option String}
    (hRun : t.recordFact f reference = .ok t') (hOk : (t.funds.addFact f).Ok) : t'.Ok d := by
  simp only [AllocationTables.recordFact, bind_eq_ok, pure_eq_ok] at hRun
  obtain ⟨funds, hInsert, rfl⟩ := hRun
  obtain ⟨rfl, -⟩ := FundsTables.insertFact_eq_ok hInsert
  exact h.ledger hOk (fun g hg => List.mem_cons_of_mem _ hg) _

def partFact (orderId sourceFactId : Nat) (part : PaymentShare × Nat) : CollectionFact :=
  ⟨part.2, orderId, .refund, part.1.amountMinor, -part.1.amountMinor, some sourceFactId, none, .wecom,
    some part.1.externalPaymentBillId⟩

def shareFact (stamp : PaymentStamp) (orderId : Nat) (source : PaymentShare) : CollectionFact :=
  ⟨stamp.factId, orderId, .collection, source.amountMinor, source.amountMinor, none, none, .wecom,
    some source.externalPaymentBillId⟩

def recordPart (d : PaymentDirectory) (orderId sourceFactId : Nat) (t : AllocationTables)
    (part : PaymentShare × Nat) : Except Thrown AllocationTables :=
  t.recordFact (partFact orderId sourceFactId part) (referenceOf d part.1.externalPaymentBillId)

theorem Ok.recordShare (h : t.Ok d) {stamp : PaymentStamp} {orderId : Nat} {source : PaymentShare}
    {reference : Option String} (hRun : t.recordFact (shareFact stamp orderId source) reference = .ok t')
    (hPositive : 0 < source.amountMinor) :
    t'.Ok d ∧ shareFact stamp orderId source ∈ t'.funds.facts ∧ isReversed t'.funds.facts stamp.factId = false ∧
      balanceMinor t'.funds.facts (shareFact stamp orderId source) = source.amountMinor ∧
      t'.funds.reservedMinor stamp.factId = 0 := by
  obtain ⟨hFunds, -, -, hFresh⟩ := recordFact_eq_ok hRun
  have hKind : (shareFact stamp orderId source).factType ≠ .reversal := by simp [shareFact]
  have hAppends : Appends t.funds.facts (shareFact stamp orderId source) := by
    constructor
    · exact hFresh
    · exact hPositive
    · rfl
    all_goals simp [shareFact, CollectionFact.isDraw]
  have hBalance := balance_append hAppends h.funds.ledger hKind (shareFact stamp orderId source)
  rw [h.funds.ledger.balance_fresh hFresh] at hBalance
  simp only [shareFact, CollectionFact.isDraw, reduceCtorEq, decide_false, Bool.or_self, Bool.false_and,
    Bool.false_eq_true, if_false, Int.sub_zero] at hBalance
  refine ⟨h.recordFact hRun (h.funds.append hAppends hKind (by simp [shareFact, CollectionFact.isDraw])), ?_⟩
  rw [hFunds]
  refine ⟨List.mem_cons_self, ?_, hBalance, h.funds.reserved_fresh hFresh⟩
  exact (hAppends.isReversed_same hKind stamp.factId).trans (hAppends.unreversed h.funds.ledger)

theorem Ok.recordParts {orderId : Nat} (share : CollectionFact) {parts : List (PaymentShare × Nat)} (h : t.Ok d)
    (hRun : parts.foldlM (recordPart d orderId share.factId) t = .ok t') (hShare : share ∈ t.funds.facts)
    (hType : share.isShare = true) (hUnreversed : isReversed t.funds.facts share.factId = false)
    (hPositive : ∀ part ∈ parts, 0 < part.1.amountMinor)
    (hFree : (parts.map fun part => part.1.amountMinor).sum ≤
      balanceMinor t.funds.facts share - t.funds.reservedMinor share.factId) :
    t'.Ok d ∧ t'.allocations = t.allocations ∧ t'.released = t.released ∧
      (∀ f ∈ t.funds.facts, f ∈ t'.funds.facts) ∧
      ∀ part ∈ parts, ∃ f ∈ t'.funds.facts, f.factId = part.2 ∧ f.factType = .refund := by
  induction parts generalizing t with
  | nil =>
    rw [List.foldlM_nil, pure_eq_ok] at hRun
    subst hRun
    exact ⟨h, rfl, rfl, fun _ hf => hf, fun _ hPart => nomatch hPart⟩
  | cons part parts ih =>
    rw [List.foldlM_cons, bind_eq_ok] at hRun
    obtain ⟨u, hFirst, hRest⟩ := hRun
    obtain ⟨hHead, hTail⟩ := List.forall_mem_cons.mp hPositive
    rw [List.map_cons, List.sum_cons] at hFree
    have hLater : 0 ≤ (parts.map fun part => part.1.amountMinor).sum := by
      refine List.sum_nonneg fun n hn => ?_
      obtain ⟨p, hp, rfl⟩ := List.mem_map.mp hn
      exact (hTail p hp).le
    obtain ⟨hFunds, hAllocations, hReleased, hFresh⟩ := recordFact_eq_ok hFirst
    have hKind : (partFact orderId share.factId part).factType ≠ .reversal := by simp [partFact]
    have hAppends : Appends t.funds.facts (partFact orderId share.factId part) := by
      constructor
      · exact hFresh
      · exact hHead
      · rfl
      · exact fun _ => ⟨share, hShare, rfl, hType⟩
      all_goals simp [partFact]
    have hAdded := h.funds.append hAppends hKind fun _ g hg hRef => by
      have hSame : g.factId = share.factId := (Option.some.inj hRef).symm
      rw [List.inj_on_of_nodup_map h.funds.ledger.keys hg hShare hSame]
      exact ⟨hUnreversed, by simp only [partFact]; omega⟩
    have hBalance := balance_append hAppends h.funds.ledger hKind share
    have hStill := hAppends.isReversed_same hKind share.factId
    simp only [partFact, CollectionFact.isDraw, decide_true, Bool.true_or, Bool.true_and, if_true] at hBalance
    obtain ⟨hOk, hAllocations', hReleased', hGrow, hFacts⟩ := ih (h.recordFact hFirst hAdded) hRest
      (by rw [hFunds]; exact List.mem_cons_of_mem _ hShare) (by rw [hFunds]; exact hStill.trans hUnreversed) hTail
      (by
        rw [hFunds]
        change _ ≤ balanceMinor (partFact orderId share.factId part :: t.funds.facts) share -
          t.funds.reservedMinor share.factId
        simp only [partFact]
        omega)
    refine ⟨hOk, hAllocations'.trans hAllocations, hReleased'.trans hReleased, fun f hf => hGrow f ?_, ?_⟩
    · rw [hFunds]
      exact List.mem_cons_of_mem _ hf
    · have hMem : partFact orderId share.factId part ∈ u.funds.facts := by
        rw [hFunds]
        exact List.mem_cons_self
      exact List.forall_mem_cons.mpr ⟨⟨_, hGrow _ hMem, rfl, rfl⟩, hFacts⟩

/-! ## The allocations -/

/-- The allocation of a refund part, with the fact and the new identity. -/
def partAllocation (part : PaymentShare × Nat × Nat) : PaymentAllocation :=
  ⟨part.2.2, part.1.externalPaymentBillId, part.2.1, part.1.amountMinor⟩

/-- A refund part that may be allocated: its fact is booked and its bill has that much left. -/
structure PartReady (d : PaymentDirectory) (t : AllocationTables) (part : PaymentShare × Nat × Nat) : Prop where
  positive : 0 < part.1.amountMinor
  fact : ∃ f ∈ t.funds.facts, f.factId = part.2.1 ∧ f.factType = .refund
  bill : ∃ bill ∈ d.bills, bill.id = part.1.externalPaymentBillId ∧ bill.kind = .refund ∧
    part.1.amountMinor ≤ t.sourceReserve bill

theorem Ok.bindParts {parts : List (PaymentShare × Nat × Nat)} (h : t.Ok d)
    (hRun : parts.foldlM (fun t part => t.bindAllocation (partAllocation part)) t = .ok t')
    (hApart : (parts.map fun part => part.1.externalPaymentBillId).Nodup) (hReady : ∀ part ∈ parts, PartReady d t part) :
    t'.Ok d ∧ t'.funds = t.funds ∧ (∀ bill ∈ d.bills, bill.kind = .collection →
      t'.sourceReserve bill = t.sourceReserve bill) ∧
      ∀ bill, openRefunds d t' bill = openRefunds d t bill -
        total (fun part => refundsPayment d bill part.1.externalPaymentBillId) (fun part => part.1.amountMinor)
          parts := by
  induction parts generalizing t with
  | nil =>
    rw [List.foldlM_nil, pure_eq_ok] at hRun
    subst hRun
    exact ⟨h, rfl, fun _ _ _ => rfl, fun _ => (Int.sub_zero _).symm⟩
  | cons part parts ih =>
    rw [List.foldlM_cons, bind_eq_ok] at hRun
    obtain ⟨u, hFirst, hRest⟩ := hRun
    obtain ⟨hNew, hApart⟩ := List.nodup_cons.mp hApart
    obtain ⟨hHead, hTail⟩ := List.forall_mem_cons.mp hReady
    obtain ⟨f, hf, hFactId, hType⟩ := hHead.fact
    obtain ⟨refund, hRefund, hId, hKind, hLeft⟩ := hHead.bill
    have hBound : u.Ok d := h.bind hFirst hf hFactId hRefund hId (by rw [hType, hKind]; rfl) hHead.positive hLeft
    have hFunds := (h.bind_adds hFirst 0).1
    have hNext : ∀ p ∈ parts, PartReady d u p := by
      intro p hp
      obtain ⟨bill, hBill, hBillId, hBillKind, hBillLeft⟩ := (hTail p hp).bill
      refine ⟨(hTail p hp).positive, hFunds ▸ (hTail p hp).fact, bill, hBill, hBillId, hBillKind, ?_⟩
      have hOther : part.1.externalPaymentBillId ≠ bill.id := by
        intro hEq
        exact hNew (List.mem_map.mpr ⟨p, hp, hBillId.symm.trans hEq.symm⟩)
      rw [h.bind_reserve hFirst bill, partAllocation, if_neg hOther]
      omega
    obtain ⟨hOk, hFunds', hReserve, hOpen⟩ := ih hBound hRest hApart hNext
    refine ⟨hOk, hFunds'.trans hFunds, fun bill hBill hCollection => ?_, fun bill => ?_⟩
    · have hOther : part.1.externalPaymentBillId ≠ bill.id := by
        intro hEq
        obtain rfl := List.inj_on_of_nodup_map d.bill_keys hRefund hBill (hId.trans hEq)
        rw [hKind] at hCollection
        cases hCollection
      rw [hReserve bill hBill hCollection, h.bind_reserve hFirst bill, partAllocation, if_neg hOther]
      omega
    · rw [hOpen bill, h.bind_open hFirst bill, total_cons]
      exact Int.sub_sub ..

/-! ## What the builder has checked -/

structure Grouped (d : PaymentDirectory) (t : AllocationTables) (input : RefundReconciliation)
    (source : ExternalPaymentBill) : Prop where
  mem : source ∈ d.bills
  sourceId : source.id = input.source.externalPaymentBillId
  kind : source.kind = .collection
  positive : ∀ part ∈ input.refunds, 0 < part.amountMinor
  apart : (input.refunds.map PaymentShare.externalPaymentBillId).Nodup
  parts : ∀ part ∈ input.refunds, ∃ bill ∈ d.refundsOf source, bill.id = part.externalPaymentBillId ∧
    part.amountMinor ≤ t.sourceReserve bill
  within : input.refundedMinor ≤ input.source.amountMinor
  safe : refundReconciliationReserveSafe (t.sourceReserve source) (openRefunds d t source) input.source.amountMinor
    input.refundedMinor = true

theorem verified_eq_ok {bill? : Option ExternalPaymentBill} {kind : PaymentKind} {bill : ExternalPaymentBill}
    {amount : Int} (h : t.verified d bill? kind = .ok (bill, amount)) :
    bill? = some bill ∧ bill.kind = kind ∧ bill.state = .success ∧ billAmount bill = amount := by
  simp only [verified, bind_eq_ok, require_eq_ok, expect_eq_ok, pure_eq_ok, Prod.mk.injEq] at h
  obtain ⟨_, -, found, hFound, n, hAmount, _, ⟨hKind, -, hState, -⟩, rfl, rfl⟩ := h
  refine ⟨hFound, hKind, hState, ?_⟩
  rw [billAmount, hAmount]
  rfl

/-- Without an unclear refund the builder's list is that of the refunds that name the payment. -/
theorem successful_eq {source : ExternalPaymentBill}
    (hClear : ((d.related source).filter fun b => b.state = .success).any (t.unclearRefund d source) = false) :
    ((d.related source).filter fun b => b.state = .success) = d.refundsOf source := by
  rw [PaymentDirectory.related, PaymentDirectory.refundsOf, List.filter_filter]
  refine List.filter_congr fun b hb => ?_
  by_cases hRelated : b ∈ (d.related source).filter fun b => b.state = .success
  · have hNamed := List.any_eq_false.mp hClear b hRelated
    simp only [unclearRefund, Bool.or_eq_true, decide_eq_true_eq, not_or, not_not] at hNamed
    rw [PaymentDirectory.related, List.mem_filter, List.mem_filter] at hRelated
    simp only [Bool.and_eq_true, decide_eq_true_eq] at hRelated
    obtain ⟨⟨-, ⟨⟨hKind, hSource⟩, hMerchant⟩, -⟩, hState⟩ := hRelated
    simp [hKind, hSource, hMerchant, hState, hNamed.1.2]
  · rw [PaymentDirectory.related, List.mem_filter, List.mem_filter] at hRelated
    simp only [hb, true_and, Bool.and_eq_true, Bool.or_eq_true, decide_eq_true_eq] at hRelated
    rw [Bool.eq_iff_iff]
    simp only [Bool.and_eq_true, Bool.or_eq_true, decide_eq_true_eq]
    tauto

theorem buildRefundReconciliation_eq_ok {orderId : Nat} {input : RefundReconciliation} {u : Unit}
    (h : t.buildRefundReconciliation d orderId input = .ok u) : ∃ source, Grouped d t input source := by
  simp only [buildRefundReconciliation, parseRefundReconciliation, bind_eq_ok, require_eq_ok] at h
  obtain ⟨_, -, _, -, _, ⟨_, -, _, -, _, hValid, _, ⟨hApart, -⟩, hWithin⟩, _, -, ⟨source, amount⟩, hSource, _, hClear,
    _, -, _, hParts, hSafe⟩ := h
  obtain ⟨hFind, hKind, -, rfl⟩ := verified_eq_ok hSource
  obtain ⟨hMem, hId⟩ := bill?_eq_some hFind
  rw [successful_eq hClear] at hSafe
  have hPositive : ∀ part ∈ input.refunds, 0 < part.amountMinor := fun part hPart => by
    have hShare := checkAll_eq_ok.mp hValid part hPart
    simp only [validShare, require_eq_ok] at hShare
    exact hShare.1
  refine ⟨source, hMem, hId, hKind, hPositive, hApart, fun part hPart => ?_, hWithin, hSafe⟩
  have hRefund := checkAll_eq_ok.mp hParts part hPart
  simp only [refundPart, bind_eq_ok, require_eq_ok] at hRefund
  obtain ⟨⟨bill, left⟩, hBill, _, ⟨hSame, hMerchant, hNamed⟩, hLeft⟩ := hRefund
  obtain ⟨hFindBill, hBillKind, hState, rfl⟩ := verified_eq_ok hBill
  obtain ⟨hBillMem, hBillId⟩ := bill?_eq_some hFindBill
  refine ⟨bill, List.mem_filter.mpr ⟨hBillMem, ?_⟩, hBillId, hLeft⟩
  simp only at hSame hMerchant hNamed
  simp [hBillKind, hSame, hMerchant, hNamed, hState]

/-! ## The command -/

theorem applyRefundReconciliation_eq_ok {stamp : PaymentStamp} {orderId : Nat} {input : RefundReconciliation}
    (h : t.applyRefundReconciliation d stamp orderId input = .ok t') :
    stamp.refundFactIds.length = input.refunds.length ∧ stamp.refundAllocationIds.length = input.refunds.length ∧
      ∃ collected recorded bound,
        t.recordFact (shareFact stamp orderId input.source) (referenceOf d input.source.externalPaymentBillId) =
          .ok collected ∧
        (input.refunds.zip stamp.refundFactIds).foldlM (recordPart d orderId stamp.factId) collected =
          .ok recorded ∧
        (input.refunds.zip (stamp.refundFactIds.zip stamp.refundAllocationIds)).foldlM
          (fun t part => t.bindAllocation (partAllocation part)) recorded = .ok bound ∧
        bound.bindAllocation ⟨stamp.allocationId, input.source.externalPaymentBillId, stamp.factId,
          input.source.amountMinor⟩ = .ok t' := by
  simp only [applyRefundReconciliation, bind_eq_ok, require_eq_ok] at h
  obtain ⟨_, ⟨hFacts, hAllocations⟩, collected, hCollected, recorded, hRecorded, bound, hBound, hLast⟩ := h
  exact ⟨hFacts, hAllocations, collected, recorded, bound, hCollected, hRecorded, hBound, hLast⟩

variable {stamp : PaymentStamp} {orderId : Nat} {input : RefundReconciliation} {source : ExternalPaymentBill}

theorem Grouped.positive_share (h : Grouped d t input source) : 0 < input.source.amountMinor ∧
    input.source.amountMinor ≤ t.sourceReserve source := by
  have hSafe := h.safe
  simp only [refundReconciliationReserveSafe, Bool.and_eq_true, decide_eq_true_eq] at hSafe
  exact ⟨hSafe.1.1.1.1.1, hSafe.1.1.2⟩

theorem Grouped.recorded {collected recorded : AllocationTables} (hGroup : Grouped d t input source) (h : t.Ok d)
    (hFactIds : stamp.refundFactIds.length = input.refunds.length)
    (hCollected : t.recordFact (shareFact stamp orderId input.source)
      (referenceOf d input.source.externalPaymentBillId) = .ok collected)
    (hRecorded : (input.refunds.zip stamp.refundFactIds).foldlM (recordPart d orderId stamp.factId) collected =
      .ok recorded) :
    recorded.Ok d ∧ (∀ billId, recorded.allocatedMinor billId = t.allocatedMinor billId) ∧
      shareFact stamp orderId input.source ∈ recorded.funds.facts ∧
      ∀ part ∈ input.refunds.zip stamp.refundFactIds,
        ∃ f ∈ recorded.funds.facts, f.factId = part.2 ∧ f.factType = .refund := by
  obtain ⟨hCollectedOk, hShare, hUnreversed, hHeld, hReserved⟩ := h.recordShare hCollected hGroup.positive_share.1
  obtain ⟨-, hCollectedAllocations, hCollectedReleased, -⟩ := recordFact_eq_ok hCollected
  have hParts : ∀ part ∈ input.refunds.zip stamp.refundFactIds, 0 < part.1.amountMinor := fun part hPart =>
    hGroup.positive part.1 (List.of_mem_zip hPart).1
  have hSum : (input.refunds.zip stamp.refundFactIds |>.map fun part => part.1.amountMinor).sum =
      input.refundedMinor := by
    change (List.map (PaymentShare.amountMinor ∘ Prod.fst) _).sum = _
    rw [← List.map_map, List.map_fst_zip (Nat.le_of_eq hFactIds.symm)]
    rfl
  have hWithin := hGroup.within
  obtain ⟨hRecordedOk, hAllocations, hReleased, hGrow, hFacts⟩ := hCollectedOk.recordParts (shareFact stamp orderId
    input.source) hRecorded hShare rfl hUnreversed hParts (by
      rw [hSum, hHeld]
      change _ ≤ _ - collected.funds.reservedMinor stamp.factId
      omega)
  refine ⟨hRecordedOk, fun billId => ?_, hGrow _ hShare, hFacts⟩
  unfold allocatedMinor live
  rw [hReleased, hAllocations, hCollectedReleased, hCollectedAllocations]

theorem unassigned_congr (hSame : ∀ billId, t'.allocatedMinor billId = t.allocatedMinor billId)
    (bills : List ExternalPaymentBill) : t'.unassigned bills = t.unassigned bills := by
  unfold unassigned
  simp only [hSame]

theorem Grouped.other_payment (hGroup : Grouped d t input source) {bill : ExternalPaymentBill} (hBill : bill ∈ d.bills)
    (hKind : bill.kind = .collection) (hOther : source.id ≠ bill.id) {part : PaymentShare} (hPart : part ∈ input.refunds) :
    refundsPayment d bill part.externalPaymentBillId = false := by
  by_contra hRefund
  obtain ⟨refund, hRefundMem, hId, -⟩ := hGroup.parts part hPart
  have hIn := List.mem_filter.mp hRefundMem
  rw [← hId, Bool.not_eq_false] at hRefund
  have hHere := List.mem_filter.mp (refundsPayment_kind hIn.1 hRefund).2
  simp only [Bool.and_eq_true, decide_eq_true_eq] at hIn hHere
  obtain ⟨-, ⟨⟨⟨-, hSource⟩, hMerchant⟩, hReference⟩, -⟩ := hIn
  obtain ⟨-, ⟨⟨⟨-, hSource'⟩, hMerchant'⟩, hReference'⟩, -⟩ := hHere
  rw [hReference, Option.some.injEq] at hReference'
  have hSame : source = bill := List.inj_on_of_nodup_map d.reference_keys hGroup.mem hBill (by
    simp only [ExternalPaymentBill.referenceKey, ← hSource, ← hMerchant, hSource', hMerchant', hReference',
      hGroup.kind, hKind])
  exact hOther (congrArg ExternalPaymentBill.id hSame)

theorem Grouped.own_payment (hGroup : Grouped d t input source) {part : PaymentShare} (hPart : part ∈ input.refunds) :
    refundsPayment d source part.externalPaymentBillId = true := by
  obtain ⟨refund, hRefund, hId, -⟩ := hGroup.parts part hPart
  rw [refundsPayment, List.contains_iff_mem, ← hId]
  exact List.mem_map_of_mem hRefund

/-- A batch takes the share from the reserve of its payment and its refunds from the open ones. -/
theorem Grouped.applied (hGroup : Grouped d t input source) (h : t.Ok d)
    (hApply : t.applyRefundReconciliation d stamp orderId input = .ok t') :
    t'.Ok d ∧ ∀ bill ∈ d.bills, bill.kind = .collection →
      t'.sourceReserve bill = t.sourceReserve bill - (if source.id = bill.id then input.source.amountMinor else 0) ∧
      openRefunds d t' bill = openRefunds d t bill - if source.id = bill.id then input.refundedMinor else 0 := by
  obtain ⟨hFactIds, hAllocationIds, collected, recorded, bound, hCollected, hRecorded, hBound, hLast⟩ :=
    applyRefundReconciliation_eq_ok hApply
  obtain ⟨hRecordedOk, hSame, hShare, hFacts⟩ := hGroup.recorded h hFactIds hCollected hRecorded
  have hZip : (input.refunds.zip (stamp.refundFactIds.zip stamp.refundAllocationIds)).map (Prod.map id Prod.fst) =
      input.refunds.zip stamp.refundFactIds := by
    rw [← List.zip_map_right, List.map_fst_zip (by omega)]
  have hFirst : (input.refunds.zip (stamp.refundFactIds.zip stamp.refundAllocationIds)).map Prod.fst =
      input.refunds := List.map_fst_zip (by rw [List.length_zip]; omega)
  have hReady : ∀ part ∈ input.refunds.zip (stamp.refundFactIds.zip stamp.refundAllocationIds),
      PartReady d recorded part := by
    intro part hPart
    have hIn : part.1 ∈ input.refunds := (List.of_mem_zip hPart).1
    obtain ⟨refund, hRefund, hId, hLeft⟩ := hGroup.parts part.1 hIn
    have hMem := List.mem_filter.mp hRefund
    simp only [Bool.and_eq_true, decide_eq_true_eq] at hMem
    refine ⟨hGroup.positive part.1 hIn, hFacts _ (hZip ▸ List.mem_map_of_mem hPart), refund, hMem.1, hId,
      hMem.2.1.1.1.1, ?_⟩
    rw [sourceReserve, hSame]
    exact hLeft
  obtain ⟨hBoundOk, hFunds, hReserve, hOpen⟩ := hRecordedOk.bindParts hBound (by
    change (List.map (PaymentShare.externalPaymentBillId ∘ Prod.fst) _).Nodup
    rw [← List.map_map, hFirst]
    exact hGroup.apart) hReady
  have hTotal : ∀ bill, total (fun part : PaymentShare × Nat × Nat => refundsPayment d bill
      part.1.externalPaymentBillId) (fun part => part.1.amountMinor)
      (input.refunds.zip (stamp.refundFactIds.zip stamp.refundAllocationIds)) =
      total (fun part => refundsPayment d bill part.externalPaymentBillId) PaymentShare.amountMinor
        input.refunds := by
    intro bill
    unfold total
    nth_rewrite 2 [← hFirst]
    rw [List.map_map]
    rfl
  have hLeft : input.source.amountMinor ≤ bound.sourceReserve source := by
    rw [hReserve source hGroup.mem hGroup.kind, sourceReserve, hSame]
    exact hGroup.positive_share.2
  refine ⟨hBoundOk.bind hLast (hFunds ▸ hShare) rfl hGroup.mem hGroup.sourceId (by rw [hGroup.kind]; rfl)
    hGroup.positive_share.1 hLeft, fun bill hBill hKind => ⟨?_, ?_⟩⟩
  · rw [hBoundOk.bind_reserve hLast, hReserve bill hBill hKind, sourceReserve, hSame, ← hGroup.sourceId]
    rfl
  · have hShareOpen : refundsPayment d bill input.source.externalPaymentBillId = false := by
      by_contra hRefund
      rw [← hGroup.sourceId, Bool.not_eq_false] at hRefund
      have hSourceKind := (refundsPayment_kind hGroup.mem hRefund).1
      rw [hGroup.kind] at hSourceKind
      cases hSourceKind
    rw [hBoundOk.bind_open hLast, hShareOpen, if_neg Bool.false_ne_true, Int.sub_zero, hOpen bill, hTotal bill,
      openRefunds, unassigned_congr hSame]
    congr 1
    split
    · next hHere =>
      obtain rfl := List.inj_on_of_nodup_map d.bill_keys hGroup.mem hBill hHere
      exact congrArg List.sum (List.map_congr_left fun part hPart => if_pos (hGroup.own_payment hPart))
    · next hOther =>
      refine total_eq_zero fun part hPart hRefund => ?_
      rw [hGroup.other_payment hBill hKind hOther hPart] at hRefund
      cases hRefund

theorem Ok.reconcileRefunds (h : t.Ok d) (hRun : t.reconcileRefunds d stamp orderId input = .ok t') :
    t'.Ok d ∧ ∀ bill ∈ d.bills, bill.kind = .collection → Covered d t bill → Covered d t' bill := by
  simp only [AllocationTables.reconcileRefunds, bind_eq_ok] at hRun
  obtain ⟨_, hBuild, hApply⟩ := hRun
  obtain ⟨source, hGroup⟩ := buildRefundReconciliation_eq_ok hBuild
  obtain ⟨hOk, hChange⟩ := hGroup.applied h hApply
  refine ⟨hOk, fun bill hBill hKind hCovered => ?_⟩
  obtain ⟨hReserve, hOpen⟩ := hChange bill hBill hKind
  unfold Covered at hCovered ⊢
  by_cases hHere : source.id = bill.id
  · obtain rfl := List.inj_on_of_nodup_map d.bill_keys hGroup.mem hBill hHere
    have hSafe := hGroup.safe
    simp only [refundReconciliationReserveSafe, Bool.and_eq_true, Bool.or_eq_true, decide_eq_true_eq] at hSafe
    rw [hReserve, hOpen, if_pos rfl, if_pos rfl]
    -- a share that is refunded whole takes as much from both sides
    obtain hWhole | hGuard := hSafe.2
    · omega
    · exact hGuard
  · rw [hReserve, hOpen, if_neg hHere, if_neg hHere]
    omega

end AllocationTables

/-! ## Runs -/

open AllocationTables

inductive RefundEvent where
  | reconcile (stamp : PaymentStamp) (orderId : Nat) (input : RefundReconciliation)
  | recordCollection (factId allocationId : Nat) (effect : PaymentEffect)
  | recordRefund (factId allocationId : Nat) (effect : PaymentEffect) (referencesFactId : Nat)
  | reverseCollection (factId orderId reversesFactId : Nat)

/-- The accepted commands on the payments, from tables that the allocation graph admits. A refund
keeps its allocation: only a share is reversed with release. -/
def refundSystem (d : PaymentDirectory) : System AllocationTables RefundEvent where
  init t := t.Ok d
  step t event t' := match event with
    | .reconcile stamp orderId input => t.reconcileRefunds d stamp orderId input = .ok t'
    | .recordCollection factId allocationId effect => t.recordCollection d factId allocationId effect = .ok t'
    | .recordRefund factId allocationId effect referencesFactId =>
        t.recordRefund d factId allocationId effect referencesFactId = .ok t'
    | .reverseCollection factId orderId reversesFactId =>
        (findFact t.funds.facts reversesFactId).any (fun share => share.factType = .collection) = true ∧
          t.reverseReleasing d factId orderId reversesFactId = .ok t'

variable {d : PaymentDirectory}

theorem refund_step {t t' : AllocationTables} {event : RefundEvent} (h : t.Ok d)
    (hStep : (refundSystem d).step t event t') :
    t'.Ok d ∧ ∀ bill ∈ d.bills, bill.kind = .collection → Covered d t bill → Covered d t' bill := by
  cases event with
  | reconcile => exact h.reconcileRefunds hStep
  | recordCollection => exact h.recordCollection hStep
  | recordRefund => exact h.recordRefund hStep
  | reverseCollection =>
    obtain ⟨hShare, hRun⟩ := hStep
    cases hFind : findFact t.funds.facts _ with
    | none =>
      rw [hFind] at hShare
      cases hShare
    | some share =>
      rw [hFind] at hShare
      exact h.reverseReleasing hFind (of_decide_eq_true hShare) hRun

/-- In every run that starts with a covered payment its reserve covers the open refunds at every
step, no share is refunded beyond its amount, and the net amount booked to orders stays within the
payment less its refunds. -/
theorem wecom_refunds_stay_covered (t t' : AllocationTables) (events : List RefundEvent) (bill : ExternalPaymentBill)
    (hBill : bill ∈ d.bills) (hKind : bill.kind = .collection) (hOk : t.Ok d) (hCovered : Covered d t bill)
    (hRun : Run (refundSystem d) t events t') :
    0 ≤ openRefunds d t' bill ∧ openRefunds d t' bill ≤ t'.sourceReserve bill ∧
      (∀ share ∈ t'.funds.facts, share.factType = .collection →
        refundedMinor t'.funds.facts share.factId ≤ share.amountMinor) ∧
      bookedMinor d t' bill ≤ billAmount bill - refundTotal d bill := by
  have hKept : t'.Ok d ∧ Covered d t' bill := by
    refine hRun.induct_reachable (P := fun t => t.Ok d ∧ Covered d t bill) (.of_init hOk) ⟨hOk, hCovered⟩ ?_
    rintro a event b - ⟨ha, haCovered⟩ hStep
    obtain ⟨hb, hKeeps⟩ := refund_step ha hStep
    exact ⟨hb, hKeeps bill hBill hKind haCovered⟩
  obtain ⟨hOk', hCovered'⟩ := hKept
  refine ⟨hOk'.refunds_open bill, hCovered', fun share hShare hType => ?_, ?_⟩
  · have hBalance := hOk'.funds.balance_nonneg hShare (by simp [CollectionFact.isShare, hType])
    have hMoved := hOk'.funds.ledger.moved_nonneg .reallocationOut share.factId
    rw [balanceMinor, transferredMinor] at hBalance
    omega
  · rw [bookedMinor_eq]
    unfold Covered at hCovered'
    omega

def refundedPayment : ExternalPaymentBill := ⟨1, 1, 1, .collection, "pay", some "pay", "trade", some 100, 5, .success, false⟩

def paymentRefund : ExternalPaymentBill := ⟨2, 1, 1, .refund, "back", some "pay", "trade", some 40, 6, .success, false⟩

def refundDirectory : PaymentDirectory where
  bills := [refundedPayment, paymentRefund]
  bill_keys := by decide
  reference_keys := by decide
  enabled _ := true
  matchingSince _ := 0
  allocationEnabled := true
  memberClaimed _ := false
  memberReference _ := false
  reconcilable _ := true
  transferred _ := false

def unbookedTables : AllocationTables where
  funds := { fundedTables with facts := [], retainedFunds := [], entries := [] }
  fields _ := none
  allocations := []
  released := []

theorem unbookedTables_ok : unbookedTables.Ok refundDirectory := by
  constructor
  · exact ⟨.nil, by simp [unbookedTables], by simp [unbookedTables], by simp [unbookedTables],
      by simp [unbookedTables], by simp [unbookedTables], by simp [unbookedTables]⟩
  case within => decide
  all_goals simp [unbookedTables]

def bookedTables : AllocationTables :=
  match unbookedTables.reconcileRefunds refundDirectory ⟨10, [11], 20, [21]⟩ 1 ⟨⟨1, 60⟩, [⟨2, 40⟩]⟩ with
  | .ok t => t
  | .error _ => unbookedTables

theorem wecom_refunds_stay_covered_sample :
    bookedMinor refundDirectory bookedTables refundedPayment = 20 ∧
      bookedMinor refundDirectory bookedTables refundedPayment ≤ 100 - 40 :=
  ⟨by decide, (wecom_refunds_stay_covered unbookedTables bookedTables
    [.reconcile ⟨10, [11], 20, [21]⟩ 1 ⟨⟨1, 60⟩, [⟨2, 40⟩]⟩] refundedPayment List.mem_cons_self rfl unbookedTables_ok
    (by unfold Covered; decide) (.single rfl)).2.2.2⟩

end GreenPms
