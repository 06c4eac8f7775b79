import GreenPms.Payments.Linking

/-! # Reading a bill again

A bill whose payment was booked with it is linked when it is next read. Until then a second payment
over the whole bill, which is allowed once the first is reversed, makes the link ambiguous.
-/

namespace GreenPms

open Checked TransitionSystem

namespace PaymentTables

variable {s s' : PaymentTables} {settings : PaymentSettings}

/-! ## Reading an unchanged bill -/

structure SameBill (old : ExternalPaymentBill) (bill : WecomBill) : Prop where
  key : old.referenceKey = bill.referenceKey
  trade : old.originalTradeNo = bill.originalTradeNo
  transaction : old.transactionId = bill.transactionId
  amount : old.amountMinor = bill.amountMinor
  state : old.state = bill.state

def observed (b : ExternalPaymentBill) : Nat × BillState × Option Int × Bool :=
  (b.id, b.state, b.amountMinor, b.needsReview)

/-- State, amount and review of every bill, and its allocated total, are as they were. -/
structure SamePayments (s s' : PaymentTables) : Prop where
  bills : s'.bills.map observed = s.bills.map observed
  allocated : ∀ billId, s'.ledger.allocatedMinor billId = s.ledger.allocatedMinor billId

theorem updateBill_observed {old : ExternalPaymentBill} (hOld : old ∈ s.bills) {c : ExternalPaymentBill → BillColumns}
    (hSame : observed (old.withColumns (c old)) = observed old) :
    (s.updateBill old.id c).bills.map observed = s.bills.map observed := by
  rw [updateBill, List.map_map]
  refine List.map_congr_left fun b hb => ?_
  rw [Function.comp_apply, updated]
  split
  case isTrue hId =>
    obtain rfl := List.inj_on_of_nodup_map s.bill_keys hb hOld hId
    exact hSame
  case isFalse => rfl

/-- Nothing but the time of an unchanged bill is written. -/
theorem SameBill.columns {old : ExternalPaymentBill} {bill : WecomBill} (h : SameBill old bill) :
    old.withColumns (bill.columns old) = { old with occurredAt := bill.occurredAt } := by
  have hReview : (old.needsReview || (old.amountMinor.isSome && old.amountMinor ≠ bill.amountMinor) ||
      old.originalTradeNo ≠ bill.originalTradeNo : Bool) = old.needsReview := by
    simp [h.amount, h.trade]
  rw [ExternalPaymentBill.withColumns, WecomBill.columns, hReview, ← h.transaction, ← h.amount, ← h.state]

theorem SameBill.upsert {old : ExternalPaymentBill} {bill : WecomBill} (h : SameBill old bill) (hOld : old ∈ s.bills)
    {newId id : Nat} {w : PaymentTables} (hUpsert : s.upsertBill bill newId = .ok (id, w)) :
    (∃ time, s.readRow bill newId = { old with occurredAt := time }) ∧
      w.bills.map observed = s.bills.map observed := by
  have hStored : s.stored? bill = some old := by
    unfold stored?
    cases hFind : s.bills.find? fun b => b.referenceKey = bill.referenceKey with
    | none => simpa [h.key] using List.find?_eq_none.mp hFind old hOld
    | some b =>
      have hKey : b.referenceKey = bill.referenceKey := by simpa using List.find?_some hFind
      rw [List.inj_on_of_nodup_map s.reference_keys (List.mem_of_find?_eq_some hFind) hOld (hKey.trans h.key.symm)]
  rw [upsertBill, hStored] at hUpsert
  obtain ⟨-, rfl⟩ := Prod.mk.inj (Except.ok.inj hUpsert)
  rw [readRow, hStored]
  dsimp only
  split
  · exact ⟨⟨bill.occurredAt, h.columns⟩, updateBill_observed hOld ((congrArg observed h.columns).trans rfl)⟩
  · exact ⟨⟨old.occurredAt, rfl⟩, rfl⟩

theorem Ok.reread (h : s.Ok) {old : ExternalPaymentBill} (hOld : old ∈ s.bills) {bill : WecomBill}
    (hSame : SameBill old bill) {stamp : BillStamp} {announce : Bool} {discovered : Option Nat}
    (hRun : s.persistBill stamp bill announce = .ok (discovered, s')) : SamePayments s s' := by
  simp only [persistBill, bind_eq_ok, pure_eq_ok, Prod.mk.injEq] at hRun
  obtain ⟨⟨id, w⟩, hUpsert, ⟨n, linked⟩, hLink, -, rfl⟩ := hRun
  obtain ⟨hTime, hObserved⟩ := hSame.upsert hOld hUpsert
  obtain ⟨rfl, hWrites⟩ := upsertBill_writes hUpsert
  obtain ⟨row, hRow, hId, hLinks⟩ := linkHistorical_eq_ok hLink
  obtain rfl := hWrites.written row hRow hId
  obtain ⟨time, hTime⟩ := hTime
  generalize s.readRow bill stamp.billId = row at *
  subst hTime
  have hSettled : w.Settled { old with occurredAt := time } :=
    hWrites.settled fun amount hUnlinked =>
      have hLinked := h.settled old hOld amount ⟨hUnlinked.unmatched, hUnlinked.clear, hUnlinked.verified⟩
      ⟨hLinked.referenced, hLinked.single⟩
  have hAllocated : ∀ billId, w.ledger.allocatedMinor billId = s.ledger.allocatedMinor billId :=
    fun billId => by rw [hWrites.ledger]
  cases hLinks with
  | kept => exact ⟨hObserved, hAllocated⟩
  | @reviewed amount hUnmatched hVerified hWhy =>
    refine ⟨(updateBill_observed hRow ?_).trans hObserved, hAllocated⟩
    cases hReview : old.needsReview with
    | true => simp [observed, ExternalPaymentBill.withColumns, reviewed]
    | false =>
      -- A settled bill has no reason for a review.
      obtain ⟨hReferenced, hSingle⟩ := hSettled amount ⟨hUnmatched, hReview, hVerified⟩
      obtain hUnreferenced | ⟨x, y, rest, hMany⟩ | ⟨target, hOne, hTaken⟩ := hWhy
      · rw [hReferenced] at hUnreferenced
        cases hUnreferenced
      · obtain hNone | ⟨target, hOne, -⟩ := hSingle
        · rw [hMany] at hNone
          cases hNone
        · rw [hMany] at hOne
          cases hOne
      · obtain hNone | ⟨other, hOther, hFree, -⟩ := hSingle
        · rw [hOne] at hNone
          cases hNone
        · rw [hOne] at hOther
          obtain rfl := List.singleton_inj.mp hOther
          rw [hTaken] at hFree
          cases hFree
  | linked hUnmatched hVerified hOne hMatches hMirrored hClear =>
    obtain ⟨-, hNone | ⟨other, hOther, -, hAllocates⟩⟩ := hSettled _ ⟨hUnmatched, hClear, hVerified⟩
    · rw [hOne] at hNone
      cases hNone
    · rw [hOne] at hOther
      obtain rfl := List.singleton_inj.mp hOther
      refine ⟨(congrArg _ hMatches.bills).trans hObserved, fun billId => ?_⟩
      rw [hMirrored hAllocates]
      exact hAllocated billId

/-! ## Runs -/

/-- A payment over a whole bill is booked with it only while no other payment in its name, reversed or
not, waits to be linked; a reading does not link a payment that another bill waits for; and a
payment that does not name its bill has no unread bill of a disabled source in its name. -/
def Meets (settings : PaymentSettings) (s : PaymentTables) : PaymentStep → Prop
  | .read stamp bill _ => ¬s.Shares (s.readRow bill stamp.billId)
  | .collect _ _ effect | .refund _ _ effect _ => ∀ b ∈ s.bills, b.id = effect.billId →
      s.Unlinked b effect.amountMinor → s.candidates b effect.amountMinor = []
  | .collectWhole _ _ _ amount reference => ∀ b ∈ s.bills, s.Unlinked b amount → b.kind = .collection →
      b.reference = reference → settings.enabled b.sourceId = true
  | .refundWhole _ _ _ amount reference _ => ∀ b ∈ s.bills, s.Unlinked b amount → b.kind = .refund →
      b.reference = reference → settings.enabled b.sourceId = true
  | .reverse _ _ _ => True

theorem Ok.step (h : s.Ok) {e : PaymentStep} (hMeets : s.Meets settings e) (hStep : s.apply settings e = .ok s') :
    s'.Ok := by
  cases e with
  | read stamp bill announce =>
    obtain ⟨⟨discovered, t⟩, hRun, rfl⟩ := map_eq_ok.mp hStep
    exact h.read hMeets hRun
  | collect factId allocationId effect =>
    obtain ⟨bill, f, fields, hId, hAmount, hBacks⟩ := recordCollection_backs hStep
    exact hBacks.ok h fun hUnlinked => hAmount ▸ hMeets bill hBacks.stored hId (hAmount ▸ hUnlinked)
  | refund factId allocationId effect referencesFactId =>
    obtain ⟨bill, f, fields, hId, hAmount, hBacks⟩ := recordRefund_backs hStep
    exact hBacks.ok h fun hUnlinked => hAmount ▸ hMeets bill hBacks.stored hId (hAmount ▸ hUnlinked)
  | collectWhole => exact h.recordWholeCollection hMeets hStep
  | refundWhole => exact h.recordWholeRefund hMeets hStep
  | reverse =>
    obtain ⟨f, fields, hType, hBooks⟩ := reverseReleasing_books hStep
    exact h.reverse hType hBooks

theorem reachable_ok (h : Reachable ((paymentSystem settings).restrict (Meets settings)) s) : s.Ok := by
  refine h.invariant (P := Ok) (fun _ => Unread.ok) fun a e b _ hOk hStep => ?_
  obtain ⟨hMeets, hApplied⟩ := hStep
  exact hOk.step hMeets hApplied

theorem reread_keeps_payments (h : Reachable ((paymentSystem settings).restrict (Meets settings)) s)
    {old : ExternalPaymentBill} (hOld : old ∈ s.bills) {bill : WecomBill} (hSame : SameBill old bill)
    {stamp : BillStamp} {announce : Bool} {discovered : Option Nat}
    (hRun : s.persistBill stamp bill announce = .ok (discovered, s')) : SamePayments s s' :=
  (reachable_ok h).reread hOld hSame hRun

def sampleSettings : PaymentSettings := ⟨fun _ => true, fun _ => 0, true, fun _ => true, fun _ => false⟩

def sampleUnread : PaymentTables where
  bills := []
  bill_keys := List.nodup_nil
  reference_keys := List.nodup_nil
  ledger := ⟨⟨[], [], [], fun _ => some ⟨.reserved, 1000, true, true⟩⟩, fun _ => none, [], []⟩
  billMatches := []
  memberPayments := []

def sampleBill : WecomBill := ⟨1, 1, .collection, "R", "T", none, some 1000, 5, .success⟩

def sampleEffect : PaymentEffect := ⟨1, 1000, .wecom, "R", 7⟩

theorem sampleUnread_unread : sampleUnread.Unread :=
  ⟨rfl, rfl, rfl, fun _ hf => absurd hf List.not_mem_nil⟩

/-- A bill is read, its payment is booked, and the bill is read again. -/
theorem reread_keeps_payments_sample : ∃ s s' discovered, s.ledger.allocatedMinor 7 = 1000 ∧
    s.persistBill ⟨0, 3⟩ sampleBill false = .ok (discovered, s') ∧ SamePayments s s' := by
  have hRun : ∃ s₁ s s' discovered, sampleUnread.apply sampleSettings (.read ⟨7, 0⟩ sampleBill false) = .ok s₁ ∧
      s₁.apply sampleSettings (.collect 1 1 sampleEffect) = .ok s ∧ s₁.bills = [sampleBill.row 7] ∧
      s₁.candidates (sampleBill.row 7) 1000 = [] ∧ s.bills = [sampleBill.row 7] ∧ s.ledger.allocatedMinor 7 = 1000 ∧
      s.persistBill ⟨0, 3⟩ sampleBill false = .ok (discovered, s') :=
    ⟨_, _, _, _, rfl, rfl, rfl, rfl, rfl, rfl, rfl⟩
  obtain ⟨s₁, s, s', discovered, hFirst, hSecond, hBills, hNone, hStored, hAllocated, hRead⟩ := hRun
  refine ⟨s, s', discovered, hAllocated, hRead, ?_⟩
  have hStart : Reachable ((paymentSystem sampleSettings).restrict (Meets sampleSettings)) sampleUnread :=
    .of_init sampleUnread_unread
  have hAlone : sampleUnread.Meets sampleSettings (.read ⟨7, 0⟩ sampleBill false) := by
    rintro ⟨_, _, _, _, b, hb, _⟩
    cases hb
  have hFirstOnly : s₁.Meets sampleSettings (.collect 1 1 sampleEffect) := by
    intro b hb _ _
    rw [hBills] at hb
    obtain rfl := List.mem_singleton.mp hb
    exact hNone
  have hBooked := (hStart.step ⟨hAlone, hFirst⟩).step ⟨hFirstOnly, hSecond⟩
  exact reread_keeps_payments hBooked (hStored ▸ List.mem_cons_self) ⟨rfl, rfl, rfl, rfl, rfl⟩ hRead

/-- A bill is read, its payment is booked, released and booked again. -/
def sampleRebooked : List PaymentStep :=
  [.read ⟨7, 0⟩ sampleBill false, .collect 1 1 sampleEffect, .reverse 2 1 1, .collect 3 2 sampleEffect]

theorem rebooked_bill_needs_review : ∃ s s' old discovered, Reachable (paymentSystem sampleSettings) s ∧
    old ∈ s.bills ∧ SameBill old sampleBill ∧ s.persistBill ⟨0, 3⟩ sampleBill false = .ok (discovered, s') ∧
    ¬SamePayments s s' := by
  have hRun : ∃ s s' discovered, sampleRebooked.foldlM (PaymentTables.apply sampleSettings) sampleUnread = .ok s ∧
      s.bills = [sampleBill.row 7] ∧ s.persistBill ⟨0, 3⟩ sampleBill false = .ok (discovered, s') ∧
      s'.bills.map observed ≠ s.bills.map observed :=
    ⟨_, _, _, rfl, rfl, rfl, by decide⟩
  obtain ⟨s, s', discovered, hSteps, hBills, hRead, hChanged⟩ := hRun
  refine ⟨s, s', sampleBill.row 7, discovered, ⟨sampleUnread, _, sampleUnread_unread, .of_foldlM (fun _ _ _ h => h) hSteps⟩,
    hBills ▸ List.mem_cons_self, ⟨rfl, rfl, rfl, rfl, rfl⟩, hRead, fun hSame => hChanged hSame.bills⟩

end PaymentTables

end GreenPms
