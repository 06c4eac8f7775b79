import GreenPms.Payments.Sync
import GreenPms.Payments.RefundReserve

/-! # Linking bills with their payments

What booking a payment, matching a bill and reading a bill change, and when they leave the link of
every other bill settled: no amount changes and no review is asked for when the bill is next read.
-/

namespace GreenPms

open Checked TransitionSystem

namespace PaymentTables

variable {s s' : PaymentTables} {settings : PaymentSettings}

def mirrored (s : PaymentTables) : MatchTarget → Bool
  | .lodging factId => s.ledger.allocations.any fun a => a.collectionFactId = factId
  | .membership _ => true

structure Linked (s : PaymentTables) (bill : ExternalPaymentBill) (amount : Int) : Prop where
  referenced : s.unreferencedRefund bill amount = false
  single : s.candidates bill amount = [] ∨ ∃ target, s.candidates bill amount = [target] ∧
    s.targetMatched target = false ∧ s.mirrored target = true

/-- The next reading of the bill would still link it. -/
structure Unlinked (s : PaymentTables) (bill : ExternalPaymentBill) (amount : Int) : Prop where
  unmatched : s.matched bill.id = false
  clear : bill.needsReview = false
  verified : verifiedAmount bill = some amount

def Settled (s : PaymentTables) (bill : ExternalPaymentBill) : Prop :=
  ∀ amount, s.Unlinked bill amount → s.Linked bill amount

structure Grounded (s : PaymentTables) : Prop where
  referenced : ∀ f ∈ s.ledger.funds.facts, ∀ r, f.referencesFactId = some r →
    ∃ g ∈ s.ledger.funds.facts, g.factId = r
  targets : ∀ m ∈ s.billMatches, ∀ r, m.target = .lodging r → ∃ g ∈ s.ledger.funds.facts, g.factId = r

structure Ok (s : PaymentTables) : Prop extends Grounded s where
  settled : ∀ b ∈ s.bills, s.Settled b

theorem Unread.ok (h : s.Unread) : s.Ok where
  settled b hb := by
    rw [h.bills] at hb
    cases hb
  referenced := h.referenced
  targets m hm := by
    rw [h.billMatches] at hm
    cases hm

theorem mem_candidates {bill : ExternalPaymentBill} {amount : Int} {factId : Nat}
    (h : .lodging factId ∈ s.candidates bill amount) : ∃ g ∈ s.ledger.funds.facts, g.factId = factId := by
  obtain hLodging | hMember := List.mem_append.mp h
  · obtain ⟨g, hg, hTarget⟩ := List.mem_map.mp hLodging
    exact ⟨g, (List.mem_filter.mp hg).1, MatchTarget.lodging.inj hTarget⟩
  · obtain ⟨p, -, hTarget⟩ := List.mem_map.mp hMember
    cases hTarget

/-! ## Booking a payment -/

theorem factTypeOf_injective {k l : PaymentKind} (h : factTypeOf k = factTypeOf l) : k = l := by
  cases k <;> cases l <;> simp [factTypeOf] at h ⊢

structure Books (s s' : PaymentTables) (f : CollectionFact) (fields : PaymentFields) : Prop where
  bills : s'.bills = s.bills
  billMatches : s'.billMatches = s.billMatches
  memberPayments : s'.memberPayments = s.memberPayments
  facts : s'.ledger.funds.facts = f :: s.ledger.funds.facts
  fresh : ∀ g ∈ s.ledger.funds.facts, g.factId ≠ f.factId
  fields : s'.ledger.fields = Function.update s.ledger.fields f.factId (some fields)
  allocations : ∀ a ∈ s.ledger.allocations, a ∈ s'.ledger.allocations
  source : ∀ r, f.referencesFactId = some r → ∃ g ∈ s.ledger.funds.facts, g.factId = r

namespace Books

variable {f : CollectionFact} {fields : PaymentFields} {bill : ExternalPaymentBill} {amount : Int}

theorem factReference_new (h : Books s s' f fields) : s'.ledger.factReference f.factId = fields.reference := by
  rw [AllocationTables.factReference, h.fields, Function.update_self]
  rfl

theorem factReference_old (h : Books s s' f fields) {g : CollectionFact} (hg : g ∈ s.ledger.funds.facts) :
    s'.ledger.factReference g.factId = s.ledger.factReference g.factId := by
  rw [AllocationTables.factReference, h.fields, Function.update_of_ne (h.fresh g hg)]
  rfl

theorem originalReference_old (h : Books s s' f fields) (hOk : s.Ok) {g : CollectionFact}
    (hg : g ∈ s.ledger.funds.facts) : s'.originalReference g = s.originalReference g := by
  rw [originalReference, originalReference]
  cases hRef : g.referencesFactId with
  | none => rfl
  | some r =>
    obtain ⟨source, hSource, rfl⟩ := hOk.referenced g hg r hRef
    exact h.factReference_old hSource

theorem names_old (h : Books s s' f fields) (hOk : s.Ok) {g : CollectionFact} (hg : g ∈ s.ledger.funds.facts) :
    s'.names bill amount g = s.names bill amount g := by
  simp only [names, h.factReference_old hg, h.originalReference_old hOk hg]

/-- A payment with a number is a candidate of the bills of its kind, number and amount alone. -/
theorem names_new (h : Books s s' f fields) {reference : String} {kind : PaymentKind}
    (hNumber : fields.reference = some reference) (hType : f.factType = factTypeOf kind)
    (hNames : s'.names bill amount f = true) :
    bill.kind = kind ∧ bill.reference = reference ∧ f.amountMinor = amount := by
  simp only [names, h.factReference_new, hNumber, Bool.and_eq_true, decide_eq_true_eq] at hNames
  obtain ⟨⟨⟨-, hSame⟩, hAmount⟩, hReference⟩ := hNames
  refine ⟨factTypeOf_injective (hSame.symm.trans hType), ?_, hAmount⟩
  cases hCase : bill.kind with
  | collection =>
    simp only [hCase, decide_eq_true_eq, Option.some.injEq] at hReference
    exact hReference.symm
  | refund =>
    simp only [hCase, Bool.and_eq_true, Bool.or_eq_true, decide_eq_true_eq, Option.some.injEq, reduceCtorEq,
      or_false] at hReference
    exact hReference.2.symm

theorem candidates_eq (h : Books s s' f fields) (hOk : s.Ok) : s'.candidates bill amount =
    (if s'.names bill amount f then [.lodging f.factId] else []) ++ s.candidates bill amount := by
  have hOld : s.ledger.funds.facts.filter (s'.names bill amount) = s.ledger.funds.facts.filter (s.names bill amount) :=
    List.filter_congr fun g hg => h.names_old hOk hg
  rw [candidates, candidates, h.facts, h.memberPayments, List.filter_cons, hOld]
  split <;> simp

theorem unreferencedRefund_eq (h : Books s s' f fields) (hOk : s.Ok)
    (hNumber : fields.reference.isSome = true ∨ f.factType = .reversal) :
    s'.unreferencedRefund bill amount = s.unreferencedRefund bill amount := by
  have hOld : ∀ g ∈ s.ledger.funds.facts, s'.unnumbered bill amount g = s.unnumbered bill amount g := by
    intro g hg
    rw [unnumbered, unnumbered, h.factReference_old hg, h.originalReference_old hOk hg]
  have hNew : s'.unnumbered bill amount f = false := by
    rw [unnumbered, h.factReference_new]
    obtain hNumber | hReversal := hNumber
    · obtain ⟨number, hSome⟩ := Option.isSome_iff_exists.mp hNumber
      simp [hSome]
    · simp [hReversal]
  have hAny : s.ledger.funds.facts.any (s'.unnumbered bill amount) =
      s.ledger.funds.facts.any (s.unnumbered bill amount) := by
    rw [Bool.eq_iff_iff, List.any_eq_true, List.any_eq_true]
    exact exists_congr fun g => and_congr_right fun hg => by rw [hOld g hg]
  rw [unreferencedRefund, unreferencedRefund, h.facts, List.any_cons, hNew, Bool.false_or, hAny]

theorem mirrored_grows (h : Books s s' f fields) {target : MatchTarget} (hMirrored : s.mirrored target = true) :
    s'.mirrored target = true := by
  cases target with
  | membership => rfl
  | lodging factId =>
    obtain ⟨a, ha, hFact⟩ := List.any_eq_true.mp hMirrored
    exact List.any_eq_true.mpr ⟨a, h.allocations a ha, hFact⟩

theorem fact_grows (h : Books s s' f fields) {r : Nat} (hOld : ∃ g ∈ s.ledger.funds.facts, g.factId = r) :
    ∃ g ∈ s'.ledger.funds.facts, g.factId = r := by
  obtain ⟨g, hg, hId⟩ := hOld
  exact ⟨g, h.facts ▸ List.mem_cons_of_mem f hg, hId⟩

theorem unlinked_iff (h : Books s s' f fields) : s'.Unlinked bill amount ↔ s.Unlinked bill amount := by
  have hSame : s'.matched bill.id = s.matched bill.id := by rw [matched, matched, h.billMatches]
  exact ⟨fun ⟨hFree, hClear, hAmount⟩ => ⟨hSame ▸ hFree, hClear, hAmount⟩,
    fun ⟨hFree, hClear, hAmount⟩ => ⟨hSame ▸ hFree, hClear, hAmount⟩⟩

/-- A fact that no match can name yet. -/
theorem new_unmatched (h : Books s s' f fields) (hOk : s.Ok) : s'.targetMatched (.lodging f.factId) = false := by
  rw [targetMatched, h.billMatches, List.any_eq_false]
  intro m hm hTarget
  obtain ⟨g, hg, hId⟩ := hOk.targets m hm f.factId (of_decide_eq_true hTarget)
  exact h.fresh g hg hId

/-- A booking that is the only one in the name of a bill, and allocated to it, can be linked. -/
theorem settled (h : Books s s' f fields) (hOk : s.Ok) (hNumber : fields.reference.isSome = true ∨ f.factType = .reversal)
    (hb : bill ∈ s.bills) (hOnly : ∀ amount, s.Unlinked bill amount → s'.names bill amount f = true →
      s.candidates bill amount = [] ∧ s'.mirrored (.lodging f.factId) = true) : s'.Settled bill := by
  intro amount hUnlinked
  have hBefore := h.unlinked_iff.mp hUnlinked
  obtain ⟨hReferenced, hSingle⟩ := hOk.settled bill hb amount hBefore
  refine ⟨(h.unreferencedRefund_eq hOk hNumber).trans hReferenced, ?_⟩
  rw [h.candidates_eq hOk]
  split
  case isTrue hNames =>
    obtain ⟨hNone, hAllocated⟩ := hOnly amount hBefore hNames
    rw [hNone, List.append_nil]
    exact .inr ⟨_, rfl, h.new_unmatched hOk, hAllocated⟩
  case isFalse =>
    rw [List.nil_append]
    obtain hNone | ⟨target, hOne, hFree, hMirrored⟩ := hSingle
    · exact .inl hNone
    · refine .inr ⟨target, hOne, ?_, h.mirrored_grows hMirrored⟩
      rw [targetMatched, h.billMatches]
      exact hFree

theorem grounded (h : Books s s' f fields) (hGrounded : s.Grounded) : s'.Grounded where
  referenced g hg r hRef := by
    rw [h.facts] at hg
    obtain rfl | hOld := List.mem_cons.mp hg
    · exact h.fact_grows (h.source r hRef)
    · exact h.fact_grows (hGrounded.referenced g hOld r hRef)
  targets m hm r hTarget := h.fact_grows (hGrounded.targets m (h.billMatches ▸ hm) r hTarget)

end Books

/-- The fact is booked over the one bill of its kind and reference, and allocated. -/
structure Backs (s s' : PaymentTables) (bill : ExternalPaymentBill) (f : CollectionFact) (fields : PaymentFields) :
    Prop where
  books : Books s s' f fields
  reference : fields.reference = some bill.reference
  type : f.factType = factTypeOf bill.kind
  stored : bill ∈ s.bills
  alone : ∀ b ∈ s.bills, b.kind = bill.kind → b.reference = bill.reference → b = bill
  allocated : s'.mirrored (.lodging f.factId) = true

namespace Backs

variable {bill b : ExternalPaymentBill} {f : CollectionFact} {fields : PaymentFields} {amount : Int}

theorem names_only (h : Backs s s' bill f fields) (hb : b ∈ s.bills) (hNames : s'.names b amount f = true) :
    b = bill ∧ f.amountMinor = amount := by
  obtain ⟨hKind, hReference, hAmount⟩ := h.books.names_new h.reference h.type hNames
  exact ⟨h.alone b hb hKind hReference, hAmount⟩

theorem ok (h : Backs s s' bill f fields) (hOk : s.Ok)
    (hFirst : s.Unlinked bill f.amountMinor → s.candidates bill f.amountMinor = []) : s'.Ok := by
  refine ⟨h.books.grounded hOk.toGrounded, fun b hb => ?_⟩
  rw [h.books.bills] at hb
  refine h.books.settled hOk (.inl (by simp [h.reference])) hb fun amount hUnlinked hNames => ?_
  obtain ⟨rfl, rfl⟩ := h.names_only hb hNames
  exact ⟨hFirst hUnlinked, h.allocated⟩

end Backs

theorem directory_alone (settings : PaymentSettings) {bill : ExternalPaymentBill} (hBill : bill ∈ s.bills)
    (hDuplicate : (s.directory settings).duplicate bill = false) :
    ∀ b ∈ s.bills, b.kind = bill.kind → b.reference = bill.reference → b = bill := by
  intro b hb hKind hReference
  have hNot := List.any_eq_false.mp hDuplicate b hb
  have hId : b.id = bill.id := by simpa [hKind, hReference] using hNot
  exact List.inj_on_of_nodup_map s.bill_keys hb hBill hId

theorem allocatable_alone {kind : PaymentKind} {effect : PaymentEffect} {bill : ExternalPaymentBill}
    (h : s.ledger.allocatableBill (s.directory settings) kind effect = .ok bill) :
    bill ∈ s.bills ∧ bill.id = effect.billId ∧ bill.kind = kind ∧
      ∀ b ∈ s.bills, b.kind = bill.kind → b.reference = bill.reference → b = bill := by
  obtain ⟨hMem, hId, hKind, -, -⟩ := AllocationTables.allocatableBill_eq_ok h
  refine ⟨hMem, hId, hKind, directory_alone settings hMem ?_⟩
  simp only [AllocationTables.allocatableBill, bind_eq_ok, require_eq_ok, expect_eq_ok, pure_eq_ok] at h
  obtain ⟨_, -, found, -, _, ⟨hStatus, -⟩, _, -, _, -, rfl⟩ := h
  cases hDuplicate : (s.directory settings).duplicate found with
  | false => rfl
  | true => simp [AllocationTables.paymentStatus, hDuplicate] at hStatus

theorem bindAllocation_eq_ok {t t' : AllocationTables} {a : PaymentAllocation} (h : t.bindAllocation a = .ok t') :
    t' = { t with allocations := a :: t.allocations } := by
  simp only [AllocationTables.bindAllocation, bind_eq_ok, require_eq_ok, pure_eq_ok] at h
  obtain ⟨_, -, rfl⟩ := h
  rfl

theorem recordCollection_backs {factId allocationId : Nat} {effect : PaymentEffect}
    (h : s.recordCollection settings factId allocationId effect = .ok s') :
    ∃ bill f fields, bill.id = effect.billId ∧ f.amountMinor = effect.amountMinor ∧ Backs s s' bill f fields := by
  simp only [recordCollection, AllocationTables.recordCollection, AllocationTables.collectionBasis,
    FundsTables.recordCollection, bind_eq_ok, require_eq_ok, pure_eq_ok] at h
  obtain ⟨ledger, ⟨funds, ⟨_, -, _, -, _, -, _, -, hInsert⟩, _, ⟨bill, hBill, _, hReference, -⟩, hBind⟩, rfl⟩ := h
  obtain ⟨rfl, hFresh⟩ := FundsTables.insertFact_eq_ok hInsert
  obtain rfl := bindAllocation_eq_ok hBind
  obtain ⟨hStored, hId, hKind, hAlone⟩ := allocatable_alone hBill
  refine ⟨bill, _, _, hId, rfl, ⟨rfl, rfl, rfl, rfl, hFresh, rfl, fun a ha => List.mem_cons_of_mem _ ha, ?_⟩,
    congrArg some hReference, hKind ▸ rfl, hStored, hAlone, ?_⟩
  · intro r hRef
    cases hRef
  · simp [mirrored, withLedger, AllocationTables.fundsStamp]

theorem recordRefund_backs {factId allocationId referencesFactId : Nat} {effect : PaymentEffect}
    (h : s.recordRefund settings factId allocationId effect referencesFactId = .ok s') :
    ∃ bill f fields, bill.id = effect.billId ∧ f.amountMinor = effect.amountMinor ∧ Backs s s' bill f fields := by
  simp only [recordRefund, AllocationTables.recordRefund, AllocationTables.refundBasis,
    FundsTables.recordRefund, bind_eq_ok, require_eq_ok, expect_eq_ok, pure_eq_ok] at h
  obtain ⟨ledger, ⟨funds, ⟨_, -, _, -, _, -, original, hOriginal, _, -, _, -, _, -, _, -, _, -, _, -, _, -, hInsert⟩,
    _, ⟨bill, hBill, _, hReference, -⟩, hBind⟩, rfl⟩ := h
  obtain ⟨rfl, hFresh⟩ := FundsTables.insertFact_eq_ok hInsert
  obtain rfl := bindAllocation_eq_ok hBind
  obtain ⟨hStored, hId, hKind, hAlone⟩ := allocatable_alone hBill
  refine ⟨bill, _, _, hId, rfl, ⟨rfl, rfl, rfl, rfl, hFresh, rfl, fun a ha => List.mem_cons_of_mem _ ha, ?_⟩,
    congrArg some hReference, hKind ▸ rfl, hStored, hAlone, ?_⟩
  · intro r hRef
    obtain rfl := Option.some.inj hRef
    exact ⟨original, mem_of_findFact hOriginal⟩
  · simp [mirrored, withLedger, AllocationTables.fundsStamp]

theorem reverseReleasing_books {factId orderId reversesFactId : Nat}
    (h : s.reverseReleasing settings factId orderId reversesFactId = .ok s') :
    ∃ f fields, f.factType = .reversal ∧ Books s s' f fields := by
  simp only [reverseReleasing, AllocationTables.reverseReleasing, FundsTables.reverseFact, bind_eq_ok,
    require_eq_ok, expect_eq_ok, pure_eq_ok] at h
  obtain ⟨ledger, ⟨funds, ⟨_, -, original, -, _, -, _, -, _, -, _, -, hInsert⟩, allocation, -, rfl⟩, rfl⟩ := h
  obtain ⟨rfl, hFresh⟩ := FundsTables.insertFact_eq_ok hInsert
  refine ⟨_, _, rfl, rfl, rfl, rfl, rfl, hFresh, rfl, fun a ha => ha, ?_⟩
  intro r hRef
  cases hRef

theorem Ok.reverse (h : s.Ok) {f : CollectionFact} {fields : PaymentFields} (hType : f.factType = .reversal)
    (hBooks : Books s s' f fields) : s'.Ok := by
  refine ⟨hBooks.grounded h.toGrounded, fun b hb => ?_⟩
  rw [hBooks.bills] at hb
  refine hBooks.settled h (.inr hType) hb fun amount _ hNames => ?_
  simp only [names, hType, Bool.and_eq_true, decide_eq_true_eq] at hNames
  obtain ⟨⟨⟨-, hSame⟩, -⟩, -⟩ := hNames
  cases hKind : b.kind <;> simp [factTypeOf, hKind] at hSame

/-! ## Matching a bill -/

/-- A match is inserted; the facts keep all but the bill that they are attributed to. -/
structure Matches (s s' : PaymentTables) (m : ExternalPaymentMatch) : Prop where
  bills : s'.bills = s.bills
  billMatches : s'.billMatches = m :: s.billMatches
  memberPayments : s'.memberPayments = s.memberPayments
  facts : ∃ g : CollectionFact → CollectionFact, s'.ledger.funds.facts = s.ledger.funds.facts.map g ∧
    ∀ f, ∃ billId, g f = { f with billId := billId }
  fields : s'.ledger.fields = s.ledger.fields
  allocations : ∀ a ∈ s.ledger.allocations, a ∈ s'.ledger.allocations

namespace Matches

variable {m : ExternalPaymentMatch} {bill : ExternalPaymentBill} {amount : Int}

theorem reads (h : Matches s s' m) : (∀ f billId,
    s'.names bill amount { f with billId := billId } = s.names bill amount f) ∧
    ∀ f billId, s'.unnumbered bill amount { f with billId := billId } = s.unnumbered bill amount f := by
  have hReference : s'.ledger.factReference = s.ledger.factReference := by
    funext id
    rw [AllocationTables.factReference, AllocationTables.factReference, h.fields]
  constructor
  · intro f billId
    rw [names, names, originalReference, originalReference, hReference]
  · intro f billId
    rw [unnumbered, unnumbered, originalReference, originalReference, hReference]

theorem candidates_eq (h : Matches s s' m) : s'.candidates bill amount = s.candidates bill amount := by
  obtain ⟨g, hFacts, hSame⟩ := h.facts
  have hNames : s'.names bill amount ∘ g = s.names bill amount := by
    funext f
    obtain ⟨billId, hf⟩ := hSame f
    rw [Function.comp_apply, hf]
    exact h.reads.1 f billId
  have hTarget : (fun f : CollectionFact => MatchTarget.lodging f.factId) ∘ g = fun f => .lodging f.factId := by
    funext f
    obtain ⟨billId, hf⟩ := hSame f
    rw [Function.comp_apply, hf]
  rw [candidates, candidates, hFacts, h.memberPayments, List.filter_map, List.map_map, hNames, hTarget]

theorem unreferencedRefund_eq (h : Matches s s' m) :
    s'.unreferencedRefund bill amount = s.unreferencedRefund bill amount := by
  obtain ⟨g, hFacts, hSame⟩ := h.facts
  have hUnnumbered : s'.unnumbered bill amount ∘ g = s.unnumbered bill amount := by
    funext f
    obtain ⟨billId, hf⟩ := hSame f
    rw [Function.comp_apply, hf]
    exact h.reads.2 f billId
  rw [unreferencedRefund, unreferencedRefund, hFacts, List.any_map, hUnnumbered]

theorem mirrored_grows (h : Matches s s' m) {target : MatchTarget} (hMirrored : s.mirrored target = true) :
    s'.mirrored target = true := by
  cases target with
  | membership => rfl
  | lodging factId =>
    obtain ⟨a, ha, hFact⟩ := List.any_eq_true.mp hMirrored
    exact List.any_eq_true.mpr ⟨a, h.allocations a ha, hFact⟩

theorem fact_grows (h : Matches s s' m) {r : Nat} (hOld : ∃ f ∈ s.ledger.funds.facts, f.factId = r) :
    ∃ f ∈ s'.ledger.funds.facts, f.factId = r := by
  obtain ⟨g, hFacts, hSame⟩ := h.facts
  obtain ⟨f, hf, hId⟩ := hOld
  obtain ⟨billId, hg⟩ := hSame f
  refine ⟨g f, hFacts ▸ List.mem_map_of_mem hf, ?_⟩
  rw [hg]
  exact hId

theorem matched_eq (h : Matches s s' m) (billId : Nat) : s'.matched billId = (decide (m.billId = billId) || s.matched billId) := by
  rw [matched, matched, h.billMatches, List.any_cons]

theorem targetMatched_eq (h : Matches s s' m) (target : MatchTarget) :
    s'.targetMatched target = (decide (m.target = target) || s.targetMatched target) := by
  rw [targetMatched, targetMatched, h.billMatches, List.any_cons]

theorem grounded (h : Matches s s' m) (hGrounded : s.Grounded)
    (hTarget : ∀ r, m.target = .lodging r → ∃ f ∈ s.ledger.funds.facts, f.factId = r) : s'.Grounded where
  referenced f hf r hRef := by
    obtain ⟨g, hFacts, hSame⟩ := h.facts
    rw [hFacts] at hf
    obtain ⟨old, hOld, rfl⟩ := List.mem_map.mp hf
    obtain ⟨billId, hg⟩ := hSame old
    rw [hg] at hRef
    exact h.fact_grows (hGrounded.referenced old hOld r hRef)
  targets x hx r hr := by
    rw [h.billMatches] at hx
    obtain rfl | hOld := List.mem_cons.mp hx
    · exact h.fact_grows (hTarget r hr)
    · exact h.fact_grows (hGrounded.targets x hOld r hr)

theorem settled (h : Matches s s' m) (hb : s.Settled bill)
    (hOther : ∀ amount, s.Unlinked bill amount → s.candidates bill amount ≠ [m.target]) : s'.Settled bill := by
  intro amount hUnlinked
  have hFree := hUnlinked.unmatched
  rw [h.matched_eq, Bool.or_eq_false_iff] at hFree
  have hBefore : s.Unlinked bill amount := ⟨hFree.2, hUnlinked.clear, hUnlinked.verified⟩
  obtain ⟨hReferenced, hSingle⟩ := hb amount hBefore
  refine ⟨h.unreferencedRefund_eq.trans hReferenced, ?_⟩
  rw [h.candidates_eq]
  obtain hNone | ⟨target, hOne, hUnmatched, hMirrored⟩ := hSingle
  · exact .inl hNone
  · refine .inr ⟨target, hOne, ?_, h.mirrored_grows hMirrored⟩
    rw [h.targetMatched_eq, hUnmatched, Bool.or_false]
    refine decide_eq_false fun hTarget => hOther amount hBefore ?_
    rw [hOne, hTarget]

theorem settled_matched (h : Matches s s' m) (hBill : m.billId = bill.id) : s'.Settled bill := by
  intro amount hUnlinked
  have hFree := hUnlinked.unmatched
  rw [h.matched_eq] at hFree
  simp [hBill] at hFree

end Matches

theorem mirrorAllocation_eq_ok {legacyId : Nat} {m : ExternalPaymentMatch}
    (h : { s with billMatches := m :: s.billMatches }.mirrorAllocation legacyId m = .ok s') :
    Matches s s' m ∧ (s.mirrored m.target = true → s'.ledger = s.ledger) := by
  rw [mirrorAllocation.eq_def] at h
  cases hTarget : m.target with
  | membership factId =>
    rw [hTarget] at h
    obtain rfl := Except.ok.inj h
    exact ⟨⟨rfl, rfl, rfl, ⟨id, (List.map_id _).symm, fun f => ⟨f.billId, rfl⟩⟩, rfl, fun a ha => ha⟩, fun _ => rfl⟩
  | lodging factId =>
    rw [hTarget] at h
    dsimp only at h
    split at h
    case isTrue =>
      obtain rfl := Except.ok.inj h
      exact ⟨⟨rfl, rfl, rfl, ⟨id, (List.map_id _).symm, fun f => ⟨f.billId, rfl⟩⟩, rfl, fun a ha => ha⟩, fun _ => rfl⟩
    case isFalse hNot =>
      simp only [bind_eq_ok, expect_eq_ok, pure_eq_ok] at h
      obtain ⟨fact, -, bound, hBind, rfl⟩ := h
      obtain rfl := bindAllocation_eq_ok hBind
      refine ⟨⟨rfl, rfl, rfl, ⟨attributed factId m.billId, rfl, fun f => ?_⟩, rfl,
        fun a ha => List.mem_cons_of_mem _ ha⟩, fun hMirrored => absurd hMirrored hNot⟩
      rw [attributed]
      split
      · exact ⟨_, rfl⟩
      · exact ⟨f.billId, rfl⟩

theorem insertMatch_eq_ok {legacyId : Nat} {m : ExternalPaymentMatch} (h : s.insertMatch legacyId m = .ok s') :
    Matches s s' m ∧ (s.mirrored m.target = true → s'.ledger = s.ledger) ∧
      ∃ bill, s.bill? m.billId = some bill ∧ bill.needsReview = false := by
  simp only [insertMatch, validateMatch, bind_eq_ok, require_eq_ok, expect_eq_ok, pure_eq_ok] at h
  obtain ⟨_, ⟨bill, hBill, amount, -, _, ⟨-, hClear⟩, -⟩, _, -, mirrored, hMirror, _, -, rfl⟩ := h
  obtain ⟨hMatches, hSame⟩ := mirrorAllocation_eq_ok hMirror
  exact ⟨hMatches, hSame, bill, hBill, hClear⟩

theorem wholeBill_eq_ok {kind : PaymentKind} {reference : String} {amount : Int} {bill : ExternalPaymentBill}
    (h : s.wholeBill settings kind reference amount = .ok bill) :
    ∀ b ∈ s.bills, settings.enabled b.sourceId = true → b.kind = kind → b.reference = reference → b = bill := by
  intro b hb hEnabled hKind hReference
  have hMem : b ∈ s.bills.filter fun b => settings.enabled b.sourceId && b.kind = kind && b.reference = reference :=
    List.mem_filter.mpr ⟨hb, by simp [hEnabled, hKind, hReference]⟩
  unfold wholeBill at h
  split at h
  case h_1 => cases h
  case h_2 found hFound =>
    simp only [bind_eq_ok, pure_eq_ok] at h
    obtain ⟨_, -, _, -, _, -, rfl⟩ := h
    exact List.mem_singleton.mp (hFound ▸ hMem)
  case h_3 => cases h

theorem Ok.bindWhole (hOk : s.Ok) {f : CollectionFact} {reference : String} {kind : PaymentKind} {billId legacyId : Nat}
    (hFresh : ∀ g ∈ s.ledger.funds.facts, g.factId ≠ f.factId)
    (hSource : ∀ r, f.referencesFactId = some r → ∃ g ∈ s.ledger.funds.facts, g.factId = r)
    (hType : f.factType = factTypeOf kind)
    (hAlone : ∀ b ∈ s.bills, s.Unlinked b f.amountMinor → b.kind = kind → b.reference = reference → b.id = billId)
    (hBind : s.bindWhole f.factId legacyId billId reference (s.ledger.funds.addFact f) = .ok s') : s'.Ok := by
  have hBooks : Books s (s.withLedger (s.ledger.withFields (s.ledger.funds.addFact f) f.factId ⟨some reference, none⟩))
      f ⟨some reference, none⟩ := ⟨rfl, rfl, rfl, rfl, hFresh, rfl, fun a ha => ha, hSource⟩
  rw [PaymentTables.bindWhole] at hBind
  generalize s.withLedger (s.ledger.withFields (s.ledger.funds.addFact f) f.factId ⟨some reference, none⟩) = booked
    at hBooks hBind
  obtain ⟨hMatches, -, -⟩ := insertMatch_eq_ok hBind
  refine ⟨hMatches.grounded (hBooks.grounded hOk.toGrounded) fun r hTarget => ?_, fun b hb => ?_⟩
  · obtain rfl := MatchTarget.lodging.inj hTarget
    exact ⟨f, hBooks.facts ▸ List.mem_cons_self, rfl⟩
  rw [hMatches.bills, hBooks.bills] at hb
  by_cases hBill : b.id = billId
  · exact hMatches.settled_matched hBill.symm
  have hOther : ∀ amount, s.Unlinked b amount → booked.names b amount f = false := by
    intro amount hUnlinked
    rw [Bool.eq_false_iff]
    intro hNames
    obtain ⟨hKind, hReference, rfl⟩ := hBooks.names_new rfl hType hNames
    exact hBill (hAlone b hb hUnlinked hKind hReference)
  refine hMatches.settled (hBooks.settled hOk (.inl rfl) hb fun amount hUnlinked hNames => ?_)
    fun amount hUnlinked hOne => ?_
  · rw [hOther amount hUnlinked] at hNames
    cases hNames
  · rw [hBooks.candidates_eq hOk, hOther amount (hBooks.unlinked_iff.mp hUnlinked)] at hOne
    have hMem : MatchTarget.lodging f.factId ∈ s.candidates b amount := by
      simp [show s.candidates b amount = _ from hOne]
    obtain ⟨g, hg, hId⟩ := mem_candidates hMem
    exact hBooks.fresh g hg hId

theorem Ok.recordWholeCollection (h : s.Ok) {factId legacyId orderId : Nat} {amount : Int} {reference : String}
    (hAlone : ∀ b ∈ s.bills, s.Unlinked b amount → b.kind = .collection → b.reference = reference →
      settings.enabled b.sourceId = true)
    (hRun : s.recordWholeCollection settings factId legacyId orderId amount reference = .ok s') : s'.Ok := by
  simp only [PaymentTables.recordWholeCollection, FundsTables.recordCollection, bind_eq_ok] at hRun
  obtain ⟨funds, ⟨_, -, _, -, _, -, _, -, hFact⟩, bill, hBill, hBind⟩ := hRun
  obtain ⟨rfl, hFresh⟩ := FundsTables.insertFact_eq_ok hFact
  refine h.bindWhole (f := ⟨factId, orderId, .collection, amount, amount, none, none, .wecom, none⟩) hFresh
    (fun r hRef => ?_) (show CollectionFactType.collection = factTypeOf .collection from rfl) (fun b hb hUnlinked hKind hReference => ?_) hBind
  · cases hRef
  · exact congrArg _ (wholeBill_eq_ok hBill b hb (hAlone b hb hUnlinked hKind hReference) hKind hReference)

theorem Ok.recordWholeRefund (h : s.Ok) {factId legacyId orderId referencesFactId : Nat} {amount : Int}
    {reference : String}
    (hAlone : ∀ b ∈ s.bills, s.Unlinked b amount → b.kind = .refund → b.reference = reference →
      settings.enabled b.sourceId = true)
    (hRun : s.recordWholeRefund settings factId legacyId orderId amount reference referencesFactId = .ok s') :
    s'.Ok := by
  simp only [PaymentTables.recordWholeRefund, FundsTables.recordRefund, bind_eq_ok, expect_eq_ok] at hRun
  obtain ⟨funds, ⟨_, -, _, -, _, -, original, hOriginal, _, -, _, -, _, -, _, -, _, -, _, -, _, -, hFact⟩, bill, hBill,
    _, -, hBind⟩ := hRun
  obtain ⟨rfl, hFresh⟩ := FundsTables.insertFact_eq_ok hFact
  refine h.bindWhole (f := ⟨factId, orderId, .refund, amount, -amount, some referencesFactId, none, .wecom, none⟩)
    hFresh (fun r hRef => ?_) (show CollectionFactType.refund = factTypeOf .refund from rfl) (fun b hb hUnlinked hKind hReference => ?_) hBind
  · obtain rfl := Option.some.inj hRef
    exact ⟨original, mem_of_findFact hOriginal⟩
  · exact congrArg _ (wholeBill_eq_ok hBill b hb (hAlone b hb hUnlinked hKind hReference) hKind hReference)

/-! ## Reading a bill -/

def readRow (s : PaymentTables) (bill : WecomBill) (newId : Nat) : ExternalPaymentBill :=
  match s.stored? bill with
  | none => bill.row newId
  | some old => if bill.amountMinor.isSome then old.withColumns (bill.columns old) else old

structure Writes (s s' : PaymentTables) (row : ExternalPaymentBill) : Prop where
  ledger : s'.ledger = s.ledger
  billMatches : s'.billMatches = s.billMatches
  memberPayments : s'.memberPayments = s.memberPayments
  written : ∀ b ∈ s'.bills, b.id = row.id → b = row
  others : ∀ b ∈ s'.bills, b.id ≠ row.id → b ∈ s.bills

namespace Writes

variable {row bill : ExternalPaymentBill}

theorem candidates_eq (h : Writes s s' row) (amount : Int) : s'.candidates bill amount = s.candidates bill amount := by
  have hNames : s'.names = s.names := by
    funext bill amount f
    rw [names, names, originalReference, originalReference, h.ledger]
  rw [candidates, candidates, hNames, h.ledger, h.memberPayments]

theorem unreferencedRefund_eq (h : Writes s s' row) (amount : Int) :
    s'.unreferencedRefund bill amount = s.unreferencedRefund bill amount := by
  have hUnnumbered : s'.unnumbered = s.unnumbered := by
    funext bill amount f
    rw [unnumbered, unnumbered, originalReference, originalReference, h.ledger]
  rw [unreferencedRefund, unreferencedRefund, hUnnumbered, h.ledger]

theorem mirrored_eq (h : Writes s s' row) : s'.mirrored = s.mirrored := by
  funext target
  cases target with
  | membership => rfl
  | lodging factId => rw [mirrored, mirrored, h.ledger]

theorem unlinked_iff (h : Writes s s' row) {amount : Int} : s'.Unlinked bill amount ↔ s.Unlinked bill amount := by
  have hSame : s'.matched bill.id = s.matched bill.id := by rw [matched, matched, h.billMatches]
  exact ⟨fun ⟨hFree, hClear, hAmount⟩ => ⟨hSame ▸ hFree, hClear, hAmount⟩,
    fun ⟨hFree, hClear, hAmount⟩ => ⟨hSame ▸ hFree, hClear, hAmount⟩⟩

theorem settled (h : Writes s s' row) (hb : s.Settled bill) : s'.Settled bill := by
  intro amount hUnlinked
  obtain ⟨hReferenced, hSingle⟩ := hb amount (h.unlinked_iff.mp hUnlinked)
  refine ⟨(h.unreferencedRefund_eq amount).trans hReferenced, ?_⟩
  rw [h.candidates_eq, h.mirrored_eq]
  simp only [targetMatched, h.billMatches]
  exact hSingle

theorem grounded (h : Writes s s' row) (hGrounded : s.Grounded) : s'.Grounded where
  referenced f hf r hRef := by
    rw [h.ledger] at hf ⊢
    exact hGrounded.referenced f hf r hRef
  targets m hm r hTarget := by
    rw [h.billMatches] at hm
    rw [h.ledger]
    exact hGrounded.targets m hm r hTarget

end Writes

theorem stored?_eq_some {bill : WecomBill} {old : ExternalPaymentBill} (h : s.stored? bill = some old) :
    old ∈ s.bills ∧ old.referenceKey = bill.referenceKey :=
  ⟨List.mem_of_find?_eq_some h, by simpa using List.find?_some h⟩

theorem updateBill_writes {old : ExternalPaymentBill} (hOld : old ∈ s.bills) (c : ExternalPaymentBill → BillColumns) :
    Writes s (s.updateBill old.id c) (old.withColumns (c old)) := by
  have hOf : ∀ b ∈ (s.updateBill old.id c).bills, ∃ x ∈ s.bills, b = updated old.id c x := by
    intro b hb
    obtain ⟨x, hx, rfl⟩ := List.mem_map.mp hb
    exact ⟨x, hx, rfl⟩
  refine ⟨rfl, rfl, rfl, fun b hb hId => ?_, fun b hb hId => ?_⟩
  · obtain ⟨x, hx, rfl⟩ := hOf b hb
    rw [updated] at hId ⊢
    split
    case isTrue hSame =>
      rw [List.inj_on_of_nodup_map s.bill_keys hx hOld hSame]
    case isFalse hOther =>
      rw [if_neg hOther] at hId
      exact absurd hId hOther
  · obtain ⟨x, hx, rfl⟩ := hOf b hb
    rw [updated] at hId ⊢
    split
    case isTrue hSame =>
      rw [if_pos hSame] at hId
      exact absurd hSame hId
    case isFalse => exact hx

theorem upsertBill_writes {bill : WecomBill} {newId id : Nat} (h : s.upsertBill bill newId = .ok (id, s')) :
    id = (s.readRow bill newId).id ∧ Writes s s' (s.readRow bill newId) := by
  rw [upsertBill] at h
  split at h
  case h_1 hNone =>
    rw [readRow, hNone]
    simp only [bind_eq_ok, pure_eq_ok, Prod.mk.injEq] at h
    obtain ⟨t, hInsert, rfl, rfl⟩ := h
    rw [insertBill] at hInsert
    split at hInsert
    case isTrue hFresh =>
      obtain rfl := Except.ok.inj hInsert
      refine ⟨rfl, rfl, rfl, rfl, fun b hb hId => ?_, fun b hb hId => ?_⟩
      · obtain rfl | hOld := List.mem_cons.mp hb
        · rfl
        · exact absurd hId (hFresh b hOld).1
      · obtain rfl | hOld := List.mem_cons.mp hb
        · exact absurd rfl hId
        · exact hOld
    case isFalse => cases hInsert
  case h_2 old hSome =>
    rw [readRow, hSome]
    obtain ⟨hOld, -⟩ := stored?_eq_some hSome
    obtain ⟨rfl, hWritten⟩ := Prod.mk.inj (Except.ok.inj h)
    dsimp only
    split at hWritten
    case isTrue hSome =>
      rw [if_pos hSome]
      subst hWritten
      exact ⟨rfl, updateBill_writes hOld bill.columns⟩
    case isFalse hNone =>
      rw [if_neg hNone]
      subst hWritten
      exact ⟨rfl, rfl, rfl, rfl, fun b hb hId => List.inj_on_of_nodup_map s.bill_keys hb hOld hId, fun b hb _ => hb⟩

theorem bill?_eq_some {id : Nat} {bill : ExternalPaymentBill} (h : s.bill? id = some bill) :
    bill ∈ s.bills ∧ bill.id = id :=
  ⟨List.mem_of_find?_eq_some h, by simpa using List.find?_some h⟩

/-- What a link has done to a bill: nothing, a review, or a match with its one candidate. -/
inductive LinksBill (s : PaymentTables) (bill : ExternalPaymentBill) : PaymentTables → Prop
  | kept (h : ∀ amount, s.Unlinked bill amount → s.unreferencedRefund bill amount = false ∧ s.candidates bill amount = []) :
      LinksBill s bill s
  | reviewed {amount : Int} (hUnmatched : s.matched bill.id = false) (hVerified : verifiedAmount bill = some amount)
      (h : s.unreferencedRefund bill amount = true ∨ (∃ x y rest, s.candidates bill amount = x :: y :: rest) ∨
        ∃ target, s.candidates bill amount = [target] ∧ s.targetMatched target = true) :
      LinksBill s bill (s.markReview bill.id)
  | linked {amount : Int} {target : MatchTarget} {s' : PaymentTables} (hUnmatched : s.matched bill.id = false)
      (hVerified : verifiedAmount bill = some amount)
      (hOne : s.candidates bill amount = [target])
      (hMatches : Matches s s' ⟨bill.id, target, .historicalLink⟩)
      (hMirrored : s.mirrored target = true → s'.ledger = s.ledger) (hClear : bill.needsReview = false) :
      LinksBill s bill s'

theorem linkHistorical_eq_ok {legacyId id n : Nat} (h : s.linkHistoricalExternalPayment legacyId id = .ok (n, s')) :
    ∃ bill ∈ s.bills, bill.id = id ∧ s.LinksBill bill s' := by
  simp only [linkHistoricalExternalPayment, bind_eq_ok, expect_eq_ok] at h
  obtain ⟨bill, hBill, h⟩ := h
  obtain ⟨hMem, rfl⟩ := bill?_eq_some hBill
  refine ⟨bill, hMem, rfl, ?_⟩
  split at h
  case isTrue hMatched =>
    obtain ⟨-, rfl⟩ := Prod.mk.inj (pure_eq_ok.mp h)
    refine .kept fun amount hUnlinked => ?_
    rw [hUnlinked.unmatched] at hMatched
    cases hMatched
  case isFalse hUnmatched =>
    rw [Bool.not_eq_true] at hUnmatched
    split at h
    case h_1 hNone =>
      obtain ⟨-, rfl⟩ := Prod.mk.inj (pure_eq_ok.mp h)
      refine .kept fun amount hUnlinked => ?_
      rw [hUnlinked.verified] at hNone
      cases hNone
    case h_2 amount hAmount =>
      split at h
      case isTrue hUnreferenced =>
        obtain ⟨-, rfl⟩ := Prod.mk.inj (pure_eq_ok.mp h)
        exact .reviewed hUnmatched hAmount (.inl hUnreferenced)
      case isFalse hReferenced =>
        rw [Bool.not_eq_true] at hReferenced
        split at h
        case h_1 hNone =>
          obtain ⟨-, rfl⟩ := Prod.mk.inj (pure_eq_ok.mp h)
          refine .kept fun other hUnlinked => ?_
          obtain rfl := Option.some.inj (hAmount.symm.trans hUnlinked.verified)
          exact ⟨hReferenced, hNone⟩
        case h_2 target hOne =>
          split at h
          case isTrue hTarget =>
            obtain ⟨-, rfl⟩ := Prod.mk.inj (pure_eq_ok.mp h)
            exact .reviewed hUnmatched hAmount (.inr (.inr ⟨target, hOne, hTarget⟩))
          case isFalse =>
            simp only [bind_eq_ok, pure_eq_ok, Prod.mk.injEq] at h
            obtain ⟨t, hInsert, -, rfl⟩ := h
            obtain ⟨hMatches, hMirrored, found, hFound, hClear⟩ := insertMatch_eq_ok hInsert
            obtain rfl := Option.some.inj (hBill.symm.trans hFound)
            exact .linked hUnmatched hAmount hOne hMatches hMirrored hClear
        case h_3 targets hNone hSome =>
          obtain ⟨-, rfl⟩ := Prod.mk.inj (pure_eq_ok.mp h)
          refine .reviewed hUnmatched hAmount (.inr (.inl ?_))
          cases hList : s.candidates bill amount with
          | nil => exact absurd hList hNone
          | cons x rest =>
            cases rest with
            | nil => exact absurd hList (hSome x)
            | cons y rest => exact ⟨x, y, rest, rfl⟩

theorem persistBill_eq_ok {stamp : BillStamp} {bill : WecomBill} {announce : Bool} {discovered : Option Nat}
    (h : s.persistBill stamp bill announce = .ok (discovered, s')) :
    ∃ w, Writes s w (s.readRow bill stamp.billId) ∧ s.readRow bill stamp.billId ∈ w.bills ∧
      w.LinksBill (s.readRow bill stamp.billId) s' := by
  simp only [persistBill, bind_eq_ok, pure_eq_ok, Prod.mk.injEq] at h
  obtain ⟨⟨id, w⟩, hUpsert, ⟨n, linked⟩, hLink, -, rfl⟩ := h
  obtain ⟨rfl, hWrites⟩ := upsertBill_writes hUpsert
  obtain ⟨found, hFound, hId, hLinks⟩ := linkHistorical_eq_ok hLink
  obtain rfl := hWrites.written found hFound hId
  exact ⟨w, hWrites, hFound, hLinks⟩

/-- The one payment that a reading links is not the one that another bill waits for. -/
def Shares (s : PaymentTables) (row : ExternalPaymentBill) : Prop :=
  ∃ target amount, verifiedAmount row = some amount ∧ s.candidates row amount = [target] ∧
    ∃ b ∈ s.bills, b.id ≠ row.id ∧ ∃ amount, s.Unlinked b amount ∧ s.candidates b amount = [target]

theorem Ok.read (h : s.Ok) {stamp : BillStamp} {bill : WecomBill} {announce : Bool} {discovered : Option Nat}
    (hAlone : ¬s.Shares (s.readRow bill stamp.billId))
    (hRun : s.persistBill stamp bill announce = .ok (discovered, s')) : s'.Ok := by
  obtain ⟨w, hWrites, hRow, hLinks⟩ := persistBill_eq_ok hRun
  generalize s.readRow bill stamp.billId = row at hAlone hWrites hRow hLinks
  have hGrounded := hWrites.grounded h.toGrounded
  have hOthers : ∀ b ∈ w.bills, b.id ≠ row.id → w.Settled b :=
    fun b hb hId => hWrites.settled (h.settled b (hWrites.others b hb hId))
  cases hLinks with
  | kept hNone =>
    refine ⟨hGrounded, fun b hb => ?_⟩
    by_cases hId : b.id = row.id
    · obtain rfl := hWrites.written b hb hId
      intro amount hUnlinked
      obtain ⟨hReferenced, hEmpty⟩ := hNone amount hUnlinked
      exact ⟨hReferenced, .inl hEmpty⟩
    · exact hOthers b hb hId
  | reviewed =>
    have hReviewed : Writes w (w.markReview row.id) (row.withColumns (reviewed row)) := updateBill_writes hRow reviewed
    refine ⟨hReviewed.grounded hGrounded, fun b hb => ?_⟩
    by_cases hId : b.id = row.id
    · obtain rfl := hReviewed.written b hb hId
      exact fun amount hUnlinked => absurd hUnlinked.clear Bool.noConfusion
    · exact hReviewed.settled (hOthers b (hReviewed.others b hb hId) hId)
  | linked _ hVerified hOne hMatches =>
    refine ⟨hMatches.grounded hGrounded fun r hTarget => ?_, fun b hb => ?_⟩
    · obtain rfl : _ = MatchTarget.lodging r := hTarget
      exact mem_candidates (hOne ▸ List.mem_cons_self)
    · by_cases hId : b.id = row.id
      · exact hMatches.settled_matched hId.symm
      · rw [hMatches.bills] at hb
        refine hMatches.settled (hOthers b hb hId) fun amount hUnlinked hSame => hAlone ?_
        rw [hWrites.candidates_eq] at hOne hSame
        exact ⟨_, _, hVerified, hOne, b, hWrites.others b hb hId, hId, amount, hWrites.unlinked_iff.mp hUnlinked, hSame⟩

end PaymentTables

end GreenPms
