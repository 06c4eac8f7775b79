import Mathlib.Algebra.Order.BigOperators.Group.List
import GreenPms.Library.Folds
import GreenPms.Library.Transition
import GreenPms.Payments.Allocations

/-! # The reserve of a payment covers its open refunds

What is left of a payment for further orders is never less than what its refunds still have to be
booked against. A group of a payment share with its refunds, a single refund, a collection and a
release each check another inequality; each of them keeps the reserve.
-/

namespace GreenPms

open Checked Totals TransitionSystem

def PaymentKind.factType : PaymentKind → CollectionFactType
  | .collection => .collection
  | .refund => .refund

namespace AllocationTables

variable {d : PaymentDirectory} {t t' : AllocationTables}

/-- What the deferred check of the allocation graph says of these tables. -/
structure Ok (d : PaymentDirectory) (t : AllocationTables) : Prop where
  funds : t.funds.Ok
  keys : (t.allocations.map PaymentAllocation.id).Nodup
  released : ∀ id ∈ t.released, ∃ a ∈ t.allocations, a.id = id
  positive : ∀ a ∈ t.allocations, 0 < a.amountMinor
  bills : ∀ a ∈ t.allocations, ∃ bill ∈ d.bills, bill.id = a.billId
  facts : ∀ a ∈ t.allocations, ∃ f ∈ t.funds.facts, f.factId = a.collectionFactId ∧
    ∀ bill ∈ d.bills, bill.id = a.billId → f.factType = bill.kind.factType
  within : ∀ bill ∈ d.bills, t.allocatedMinor bill.id ≤ billAmount bill

def sourceReserve (t : AllocationTables) (bill : ExternalPaymentBill) : Int :=
  billAmount bill - t.allocatedMinor bill.id

def openRefunds (d : PaymentDirectory) (t : AllocationTables) (bill : ExternalPaymentBill) : Int :=
  t.unassigned (d.refundsOf bill)

def refundTotal (d : PaymentDirectory) (bill : ExternalPaymentBill) : Int := ((d.refundsOf bill).map billAmount).sum

def bookedMinor (d : PaymentDirectory) (t : AllocationTables) (bill : ExternalPaymentBill) : Int :=
  t.allocatedMinor bill.id - ((d.refundsOf bill).map fun r => t.allocatedMinor r.id).sum

theorem bookedMinor_eq (bill : ExternalPaymentBill) : bookedMinor d t bill =
    billAmount bill - refundTotal d bill - (t.sourceReserve bill - openRefunds d t bill) := by
  have hSplit : ∀ bills : List ExternalPaymentBill, t.unassigned bills =
      (bills.map billAmount).sum - (bills.map fun r => t.allocatedMinor r.id).sum := by
    intro bills
    induction bills with
    | nil => rfl
    | cons b bills ih =>
      simp only [unassigned, List.map_cons, List.sum_cons] at ih ⊢
      omega
  rw [bookedMinor, sourceReserve, openRefunds, hSplit, refundTotal]
  omega

theorem Ok.refunds_open (h : t.Ok d) (bill : ExternalPaymentBill) : 0 ≤ openRefunds d t bill := by
  unfold openRefunds unassigned
  refine List.sum_nonneg fun n hn => ?_
  obtain ⟨r, hr, rfl⟩ := List.mem_map.mp hn
  have hWithin := h.within r (List.mem_filter.mp hr).1
  omega

/-! ## Writes -/

theorem Ok.bind_adds (h : t.Ok d) {a : PaymentAllocation} (hBind : t.bindAllocation a = .ok t') (billId : Nat) :
    t'.funds = t.funds ∧ t'.allocations = a :: t.allocations ∧ t'.released = t.released ∧
      t'.allocatedMinor billId = t.allocatedMinor billId + if a.billId = billId then a.amountMinor else 0 := by
  simp only [bindAllocation, bind_eq_ok, require_eq_ok, pure_eq_ok] at hBind
  obtain ⟨_, hFresh, rfl⟩ := hBind
  refine ⟨rfl, rfl, rfl, ?_⟩
  have hLive : t.released.contains a.id = false := by
    by_contra hReleased
    rw [Bool.not_eq_false, List.contains_iff_mem] at hReleased
    obtain ⟨x, hx, hId⟩ := h.released a.id hReleased
    exact (hFresh x hx).1 hId
  have hCons := total_cons (fun x => t.live x && x.billId = billId) PaymentAllocation.amountMinor a t.allocations
  simp only [live, hLive, Bool.not_false, Bool.true_and, decide_eq_true_eq] at hCons
  change total (fun x => t.live x && x.billId = billId) PaymentAllocation.amountMinor (a :: t.allocations) = _
  simp only [live, allocatedMinor] at hCons ⊢
  omega

def refundsPayment (d : PaymentDirectory) (bill : ExternalPaymentBill) (billId : Nat) : Bool :=
  ((d.refundsOf bill).map ExternalPaymentBill.id).contains billId

theorem unassigned_drop {bills : List ExternalPaymentBill} (hKeys : (bills.map ExternalPaymentBill.id).Nodup)
    (billId : Nat) (n : Int)
    (hDrop : ∀ b, t'.allocatedMinor b = t.allocatedMinor b + if billId = b then n else 0) :
    t'.unassigned bills = t.unassigned bills -
      if (bills.map ExternalPaymentBill.id).contains billId then n else 0 := by
  unfold unassigned
  induction bills with
  | nil => rfl
  | cons b bills ih =>
    obtain ⟨hNew, hKeys⟩ := List.nodup_cons.mp hKeys
    simp only [List.map_cons, List.sum_cons, List.contains_cons, Bool.or_eq_true, beq_iff_eq] at ih ⊢
    rw [ih hKeys, hDrop]
    by_cases hHere : billId = b.id
    · have hNot : (bills.map ExternalPaymentBill.id).contains billId = false := by
        simpa [hHere, - List.mem_map] using hNew
      simp only [hHere] at hNot ⊢
      simp only [hNot, true_or, if_true, Bool.false_eq_true, if_false]
      omega
    · simp only [hHere, false_or, if_false]
      omega

theorem Ok.bind_open (h : t.Ok d) {a : PaymentAllocation} (hBind : t.bindAllocation a = .ok t')
    (bill : ExternalPaymentBill) :
    openRefunds d t' bill = openRefunds d t bill - if refundsPayment d bill a.billId then a.amountMinor else 0 := by
  refine unassigned_drop (List.Nodup.sublist (List.filter_sublist.map _) d.bill_keys) a.billId a.amountMinor
    fun b => ?_
  exact (h.bind_adds hBind b).2.2.2

theorem Ok.bind (h : t.Ok d) {a : PaymentAllocation} (hBind : t.bindAllocation a = .ok t')
    {f : CollectionFact} (hFact : f ∈ t.funds.facts) (hId : f.factId = a.collectionFactId)
    {bill : ExternalPaymentBill} (hBill : bill ∈ d.bills) (hBillId : bill.id = a.billId)
    (hType : f.factType = bill.kind.factType) (hPositive : 0 < a.amountMinor)
    (hLeft : a.amountMinor ≤ t.sourceReserve bill) : t'.Ok d := by
  have hFresh := hBind
  simp only [bindAllocation, bind_eq_ok, require_eq_ok, pure_eq_ok] at hFresh
  obtain ⟨_, hFresh, -⟩ := hFresh
  obtain ⟨hFunds, hAllocations, hReleased, -⟩ := h.bind_adds hBind a.billId
  have hSame : ∀ b ∈ d.bills, b.id = a.billId → b = bill := fun b hb hb' =>
    List.inj_on_of_nodup_map d.bill_keys hb hBill (hb'.trans hBillId.symm)
  constructor
  · exact hFunds ▸ h.funds
  · rw [hAllocations, List.map_cons, List.nodup_cons]
    refine ⟨fun hMem => ?_, h.keys⟩
    obtain ⟨x, hx, hEq⟩ := List.mem_map.mp hMem
    exact (hFresh x hx).1 hEq
  · rw [hReleased, hAllocations]
    intro id hIn
    obtain ⟨x, hx, hEq⟩ := h.released id hIn
    exact ⟨x, List.mem_cons_of_mem _ hx, hEq⟩
  · rw [hAllocations]
    exact List.forall_mem_cons.mpr ⟨hPositive, h.positive⟩
  · rw [hAllocations]
    exact List.forall_mem_cons.mpr ⟨⟨bill, hBill, hBillId⟩, h.bills⟩
  · rw [hAllocations, hFunds]
    refine List.forall_mem_cons.mpr ⟨⟨f, hFact, hId, fun b hb hb' => ?_⟩, h.facts⟩
    rw [hSame b hb hb']
    exact hType
  · intro b hb
    rw [(h.bind_adds hBind b.id).2.2.2]
    have hWithin := h.within b hb
    split
    · next hHere =>
      obtain rfl := hSame b hb hHere.symm
      rw [sourceReserve] at hLeft
      omega
    · omega

theorem Ok.ledger (h : t.Ok d) {funds : FundsTables} (hOk : funds.Ok) (hGrow : ∀ f ∈ t.funds.facts, f ∈ funds.facts)
    (fields : Nat → Option PaymentFields) :
    AllocationTables.Ok d { t with funds, fields } where
  funds := hOk
  keys := h.keys
  released := h.released
  positive := h.positive
  bills := h.bills
  facts a ha := by
    obtain ⟨f, hf, hId, hType⟩ := h.facts a ha
    exact ⟨f, hGrow f hf, hId, hType⟩
  within := h.within

/-! ## One bill, one fact -/

def Covered (d : PaymentDirectory) (t : AllocationTables) (bill : ExternalPaymentBill) : Prop :=
  openRefunds d t bill ≤ t.sourceReserve bill

theorem bill?_eq_some {id : Nat} {bill : ExternalPaymentBill} (h : d.bill? id = some bill) :
    bill ∈ d.bills ∧ bill.id = id :=
  ⟨List.mem_of_find?_eq_some h, by simpa using List.find?_some h⟩

theorem refundsPayment_kind {source bill : ExternalPaymentBill} (hBill : bill ∈ d.bills)
    (h : refundsPayment d source bill.id = true) : bill.kind = .refund ∧ bill ∈ d.refundsOf source := by
  rw [refundsPayment, List.contains_iff_mem, List.mem_map] at h
  obtain ⟨r, hr, hId⟩ := h
  have hIn := List.mem_filter.mp hr
  obtain rfl := List.inj_on_of_nodup_map d.bill_keys hIn.1 hBill hId
  simp only [Bool.and_eq_true, decide_eq_true_eq] at hIn
  exact ⟨hIn.2.1.1.1.1, hr⟩

theorem allocatableBill_eq_ok {kind : PaymentKind} {effect : PaymentEffect} {bill : ExternalPaymentBill}
    (h : t.allocatableBill d kind effect = .ok bill) :
    bill ∈ d.bills ∧ bill.id = effect.billId ∧ bill.kind = kind ∧ 0 < effect.amountMinor ∧
      effect.amountMinor ≤ t.sourceReserve bill := by
  simp only [allocatableBill, bind_eq_ok, require_eq_ok, expect_eq_ok, pure_eq_ok,
    Option.filter_eq_some_iff, Bool.and_eq_true, decide_eq_true_eq] at h
  obtain ⟨_, -, found, ⟨hFind, -, hKind⟩, _, ⟨-, hMember⟩, _, ⟨hPositive, hLeft⟩, _, -, rfl⟩ := h
  obtain ⟨hMem, hId⟩ := bill?_eq_some hFind
  refine ⟨hMem, hId, hKind, hPositive, ?_⟩
  simp only [remainingMinor, hMember, Bool.false_eq_true, if_false] at hLeft
  rw [sourceReserve]
  omega

theorem Ok.no_open (h : t.Ok d) {bill : ExternalPaymentBill} (hBill : bill ∈ d.bills)
    (hNone : t.unassignedRefund d bill.id = false) : openRefunds d t bill = 0 := by
  have hFind : d.bill? bill.id = some bill := by
    unfold PaymentDirectory.bill?
    cases hFound : d.bills.find? fun b => decide (b.id = bill.id) with
    | none => simpa using List.find?_eq_none.mp hFound bill hBill
    | some b =>
      have hSame : b.id = bill.id := by simpa using List.find?_some hFound
      rw [List.inj_on_of_nodup_map d.bill_keys (List.mem_of_find?_eq_some hFound) hBill hSame]
  simp only [unassignedRefund, hFind, Option.any_some, List.any_eq_false] at hNone
  unfold openRefunds unassigned
  refine List.sum_eq_zero fun n hn => ?_
  obtain ⟨r, hr, rfl⟩ := List.mem_map.mp hn
  have hSettled := hNone r hr
  have hWithin := h.within r (List.mem_filter.mp hr).1
  cases hAmount : r.amountMinor with
  | none => simp [hAmount] at hSettled
  | some amount =>
    simp only [hAmount, Option.isNone_some, Bool.false_or, Option.any_some, Bool.or_eq_true, decide_eq_true_eq,
      not_or] at hSettled
    simp only [billAmount, hAmount, Option.getD_some] at hWithin ⊢
    omega

theorem recordCollection_grows {funds funds' : FundsTables} {desk : PaymentDesk} {stamp : FundsStamp} {orderId : Nat}
    {amount : Int} {method : FundsMethod} {billId : Option Nat}
    (h : funds.recordCollection desk stamp orderId amount method billId = .ok funds') :
    (∃ f ∈ funds'.facts, f.factId = stamp.factId ∧ f.factType = .collection) ∧
      ∀ f ∈ funds.facts, f ∈ funds'.facts := by
  simp only [FundsTables.recordCollection, bind_eq_ok] at h
  obtain ⟨_, -, _, -, _, -, _, -, hInsert⟩ := h
  obtain ⟨rfl, -⟩ := FundsTables.insertFact_eq_ok hInsert
  exact ⟨⟨_, List.mem_cons_self, rfl, rfl⟩, fun f hf => List.mem_cons_of_mem _ hf⟩

theorem recordRefund_grows {funds funds' : FundsTables} {desk : PaymentDesk} {stamp : FundsStamp} {orderId : Nat}
    {amount : Int} {referencesFactId : Nat} {method : FundsMethod} {reference : String} {billId : Option Nat}
    (h : funds.recordRefund desk stamp orderId amount referencesFactId method reference billId = .ok funds') :
    (∃ f ∈ funds'.facts, f.factId = stamp.factId ∧ f.factType = .refund) ∧
      ∀ f ∈ funds.facts, f ∈ funds'.facts := by
  simp only [FundsTables.recordRefund, bind_eq_ok] at h
  obtain ⟨_, -, _, -, _, -, _, -, _, -, _, -, _, -, _, -, _, -, _, -, _, -, hInsert⟩ := h
  obtain ⟨rfl, -⟩ := FundsTables.insertFact_eq_ok hInsert
  exact ⟨⟨_, List.mem_cons_self, rfl, rfl⟩, fun f hf => List.mem_cons_of_mem _ hf⟩

theorem Ok.bind_reserve (h : t.Ok d) {a : PaymentAllocation} (hBind : t.bindAllocation a = .ok t')
    (bill : ExternalPaymentBill) :
    t'.sourceReserve bill = t.sourceReserve bill - if a.billId = bill.id then a.amountMinor else 0 := by
  rw [sourceReserve, sourceReserve, (h.bind_adds hBind bill.id).2.2.2]
  omega

theorem Ok.recordCollection (h : t.Ok d) {factId allocationId : Nat} {effect : PaymentEffect}
    (hRun : t.recordCollection d factId allocationId effect = .ok t') :
    t'.Ok d ∧ ∀ bill ∈ d.bills, bill.kind = .collection → Covered d t bill → Covered d t' bill := by
  simp only [AllocationTables.recordCollection, collectionBasis, bind_eq_ok, require_eq_ok] at hRun
  obtain ⟨funds, hFunds, _, ⟨source, hSource, _, -, hNone⟩, hBind⟩ := hRun
  obtain ⟨hMem, hId, hKind, hPositive, hLeft⟩ := allocatableBill_eq_ok hSource
  obtain ⟨⟨f, hf, hFactId, hType⟩, hGrow⟩ := recordCollection_grows hFunds
  have hOk : (t.withFields funds factId ⟨some effect.reference, some effect.billId⟩).Ok d :=
    h.ledger (h.funds.recordCollection hFunds) hGrow _
  refine ⟨hOk.bind hBind hf hFactId hMem hId (by rw [hType, hKind]; rfl) hPositive hLeft, ?_⟩
  intro bill hBill hBillKind hCovered
  have hOpen := hOk.bind_open hBind bill
  have hReserve := hOk.bind_reserve hBind bill
  have hOther : refundsPayment d bill source.id = false := by
    by_contra hRefund
    rw [(refundsPayment_kind hMem (by simpa using hRefund)).1] at hKind
    cases hKind
  rw [← hId, hOther, if_neg Bool.false_ne_true] at hOpen
  unfold Covered at hCovered ⊢
  change openRefunds d t' bill = openRefunds d t bill - 0 at hOpen
  change t'.sourceReserve bill = t.sourceReserve bill - _ at hReserve
  split at hReserve
  · next hHere =>
    obtain rfl := List.inj_on_of_nodup_map d.bill_keys hMem hBill (hId.trans hHere)
    rw [← hId] at hNone
    have hZero := h.no_open hMem hNone
    simp only at hReserve
    omega
  · omega

theorem Ok.recordRefund (h : t.Ok d) {factId allocationId : Nat} {effect : PaymentEffect} {referencesFactId : Nat}
    (hRun : t.recordRefund d factId allocationId effect referencesFactId = .ok t') :
    t'.Ok d ∧ ∀ bill ∈ d.bills, bill.kind = .collection → Covered d t bill → Covered d t' bill := by
  simp only [AllocationTables.recordRefund, refundBasis, bind_eq_ok] at hRun
  obtain ⟨funds, hFunds, _, ⟨refund, hRefund, -⟩, hBind⟩ := hRun
  obtain ⟨hMem, hId, hKind, hPositive, hLeft⟩ := allocatableBill_eq_ok hRefund
  obtain ⟨⟨f, hf, hFactId, hType⟩, hGrow⟩ := recordRefund_grows hFunds
  have hOk : (t.withFields funds factId ⟨some effect.reference, some effect.billId⟩).Ok d :=
    h.ledger (h.funds.recordRefund hFunds) hGrow _
  refine ⟨hOk.bind hBind hf hFactId hMem hId (by rw [hType, hKind]; rfl) hPositive hLeft, ?_⟩
  intro bill hBill hBillKind hCovered
  have hOpen := hOk.bind_open hBind bill
  have hReserve := hOk.bind_reserve hBind bill
  have hOther : effect.billId ≠ bill.id := by
    intro hHere
    obtain rfl := List.inj_on_of_nodup_map d.bill_keys hMem hBill (hId.trans hHere)
    rw [hKind] at hBillKind
    cases hBillKind
  rw [if_neg hOther] at hReserve
  unfold Covered at hCovered ⊢
  change openRefunds d t' bill = openRefunds d t bill - _ at hOpen
  change t'.sourceReserve bill = t.sourceReserve bill - 0 at hReserve
  split at hOpen
  · simp only at hOpen
    omega
  · omega

/-! ## A release -/

theorem Ok.release_drops (h : t.Ok d) {a : PaymentAllocation} (ha : a ∈ t.allocations) (hLive : t.live a = true)
    (billId : Nat) :
    AllocationTables.allocatedMinor { t with released := a.id :: t.released } billId =
      t.allocatedMinor billId - if a.billId = billId then a.amountMinor else 0 := by
  have hDrop := total_drop (p := fun x => t.live x && x.billId = billId) (w := PaymentAllocation.amountMinor)
    h.keys ha
  simp only [hLive, Bool.true_and, decide_eq_true_eq] at hDrop
  rw [AllocationTables.allocatedMinor, AllocationTables.allocatedMinor, ← hDrop]
  refine total_congr (fun x _ => ?_) fun _ _ _ => rfl
  simp only [live, List.contains_cons, Bool.not_or]
  cases t.released.contains x.id <;> by_cases hSame : x.id = a.id <;> simp [hSame]

theorem Ok.release_open (h : t.Ok d) {a : PaymentAllocation} (ha : a ∈ t.allocations) (hLive : t.live a = true)
    (bill : ExternalPaymentBill) :
    openRefunds d { t with released := a.id :: t.released } bill =
      openRefunds d t bill + if refundsPayment d bill a.billId then a.amountMinor else 0 := by
  have hKeys : ((d.refundsOf bill).map ExternalPaymentBill.id).Nodup :=
    List.Nodup.sublist (List.filter_sublist.map _) d.bill_keys
  have hFreed : ∀ b, allocatedMinor { t with released := a.id :: t.released } b =
      t.allocatedMinor b + if a.billId = b then -a.amountMinor else 0 := fun b => by
    rw [h.release_drops ha hLive b]
    split <;> omega
  have hDrop := unassigned_drop hKeys a.billId (-a.amountMinor) hFreed
  change openRefunds d _ bill = openRefunds d t bill - if refundsPayment d bill a.billId then -a.amountMinor else 0
    at hDrop
  rw [hDrop]
  split <;> omega

theorem Ok.release_reserve (h : t.Ok d) {a : PaymentAllocation} (ha : a ∈ t.allocations) (hLive : t.live a = true)
    (bill : ExternalPaymentBill) :
    sourceReserve { t with released := a.id :: t.released } bill =
      t.sourceReserve bill + if a.billId = bill.id then a.amountMinor else 0 := by
  rw [sourceReserve, sourceReserve, h.release_drops ha hLive]
  omega

theorem Ok.release (h : t.Ok d) {a : PaymentAllocation} (ha : a ∈ t.allocations) (hLive : t.live a = true) :
    AllocationTables.Ok d { t with released := a.id :: t.released } where
  funds := h.funds
  keys := h.keys
  released := List.forall_mem_cons.mpr ⟨⟨a, ha, rfl⟩, h.released⟩
  positive := h.positive
  bills := h.bills
  facts := h.facts
  within bill hBill := by
    rw [h.release_drops ha hLive]
    have hWithin := h.within bill hBill
    have hPositive := h.positive a ha
    split <;> omega

theorem Ok.reverseReleasing (h : t.Ok d) {factId orderId reversesFactId : Nat} {share : CollectionFact}
    (hShare : findFact t.funds.facts reversesFactId = some share) (hType : share.factType = .collection)
    (hRun : t.reverseReleasing d factId orderId reversesFactId = .ok t') :
    t'.Ok d ∧ ∀ bill ∈ d.bills, bill.kind = .collection → Covered d t bill → Covered d t' bill := by
  simp only [AllocationTables.reverseReleasing, bind_eq_ok, expect_eq_ok, pure_eq_ok] at hRun
  obtain ⟨funds, hFunds, a, hFind, rfl⟩ := hRun
  have ha := List.mem_of_find?_eq_some hFind
  have hFound := List.find?_some hFind
  simp only [Bool.and_eq_true, decide_eq_true_eq] at hFound
  obtain ⟨hLive, hFact⟩ := hFound
  have hGrow : ∀ f ∈ t.funds.facts, f ∈ funds.facts := by
    simp only [FundsTables.reverseFact, bind_eq_ok] at hFunds
    obtain ⟨_, -, _, -, _, -, _, -, _, -, _, -, hInsert⟩ := hFunds
    obtain ⟨rfl, -⟩ := FundsTables.insertFact_eq_ok hInsert
    exact fun f hf => List.mem_cons_of_mem _ hf
  have hOk : (t.withFields funds factId ⟨none, none⟩).Ok d := h.ledger (h.funds.reverseFact hFunds) hGrow _
  refine ⟨hOk.release ha hLive, ?_⟩
  intro bill hBill hKind hCovered
  have hSource : ∃ source ∈ d.bills, source.id = a.billId ∧ source.kind = .collection := by
    obtain ⟨source, hSource, hId⟩ := h.bills a ha
    obtain ⟨f, hf, hFactId, hKinds⟩ := h.facts a ha
    refine ⟨source, hSource, hId, ?_⟩
    have hSame : f = share := by
      have hFound := h.funds.ledger.findFact_eq hf
      rw [hFactId, hFact, hShare] at hFound
      exact (Option.some.inj hFound).symm
    have hFactType := hKinds source hSource hId
    rw [hSame, hType] at hFactType
    cases hSourceKind : source.kind with
    | collection => rfl
    | refund =>
      rw [hSourceKind] at hFactType
      cases hFactType
  obtain ⟨source, hSourceMem, hSourceId, hSourceKind⟩ := hSource
  have hOther : refundsPayment d bill a.billId = false := by
    by_contra hRefund
    rw [← hSourceId] at hRefund
    rw [(refundsPayment_kind hSourceMem (by simpa using hRefund)).1] at hSourceKind
    cases hSourceKind
  have hOpen := hOk.release_open ha hLive bill
  have hReserve := hOk.release_reserve ha hLive bill
  have hPositive := h.positive a ha
  rw [hOther, if_neg Bool.false_ne_true] at hOpen
  unfold Covered at hCovered ⊢
  change openRefunds d _ bill = openRefunds d t bill + 0 at hOpen
  change sourceReserve _ bill = t.sourceReserve bill + _ at hReserve
  refine hOpen.le.trans (le_trans ?_ hReserve.ge)
  split <;> omega

end AllocationTables

end GreenPms
