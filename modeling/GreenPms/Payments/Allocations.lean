import Mathlib.Algebra.Ring.Int.Defs
import GreenPms.Funds.Conservation
import GreenPms.Payments.Reconciliation

/-! # Allocations of external payments

The bills that the payment service reports, their allocations to the collections and refunds of
orders, and the commands that allocate a bill or release an allocation. The commands run under
the payment allocation lock of the property, so each is one step on these tables.
-/

namespace GreenPms

open Checked Totals

structure ExternalPaymentBill where
  id : Nat
  sourceId : Nat
  merchantId : Nat
  kind : PaymentKind
  reference : String
  transactionId : Option String
  originalTradeNo : String
  amountMinor : Option Int
  occurredAt : Nat
  state : BillState
  needsReview : Bool
  deriving DecidableEq

/-- `UNIQUE (source_id,merchant_id,kind,reference)` -/
def ExternalPaymentBill.referenceKey (b : ExternalPaymentBill) : Nat × Nat × PaymentKind × String :=
  (b.sourceId, b.merchantId, b.kind, b.reference)

structure PaymentAllocation where
  id : Nat
  billId : Nat
  collectionFactId : Nat
  amountMinor : Int
  deriving DecidableEq

/-- What the commands read and do not write. `reconcilable` is the test of the order: direct, in
CNY, neither free nor of a member. `transferred` says that a reversal moved the money of a fact to
a membership, and `memberReference` that a direct membership payment in force names a reference. -/
structure PaymentDirectory where
  bills : List ExternalPaymentBill
  bill_keys : (bills.map ExternalPaymentBill.id).Nodup
  reference_keys : (bills.map ExternalPaymentBill.referenceKey).Nodup
  enabled : Nat → Bool
  matchingSince : Nat → Nat
  allocationEnabled : Bool
  memberClaimed : Nat → Bool
  memberReference : String → Bool
  reconcilable : Nat → Bool
  transferred : Nat → Bool

structure PaymentFields where
  reference : Option String
  externalPaymentBillId : Option Nat
  deriving DecidableEq

structure AllocationTables where
  funds : FundsTables
  fields : Nat → Option PaymentFields
  allocations : List PaymentAllocation
  released : List Nat

structure PaymentShare where
  externalPaymentBillId : Nat
  amountMinor : Int
  deriving DecidableEq

structure RefundReconciliation where
  source : PaymentShare
  refunds : List PaymentShare
  deriving DecidableEq

structure PaymentStamp where
  factId : Nat
  refundFactIds : List Nat
  allocationId : Nat
  refundAllocationIds : List Nat

def RefundReconciliation.refundedMinor (input : RefundReconciliation) : Int :=
  (input.refunds.map PaymentShare.amountMinor).sum

/-! ## The input of a reconciliation -/

def validShare (share : PaymentShare) : Except Thrown Unit :=
  require (0 < share.amountMinor ∧ share.amountMinor ≤ 2147483647) (fundsInvalid "请选择真实流水并填写有效的本单份额")

def parseRefundReconciliation (input : RefundReconciliation) : Except Thrown Unit := do
  validShare input.source
  require (1 ≤ input.refunds.length ∧ input.refunds.length ≤ 50) (fundsInvalid "请选择 1 至 50 笔已成功的退款")
  checkAll validShare input.refunds
  require ((input.refunds.map PaymentShare.externalPaymentBillId).Nodup ∧
      input.source.externalPaymentBillId ∉ input.refunds.map PaymentShare.externalPaymentBillId)
    (fundsInvalid "同一退款流水不能重复选择")
  require (input.refundedMinor ≤ input.source.amountMinor) (refundLimit "本次退款份额不能超过本次补登记的原收款份额")

def refundReconciliationReserveSafe (sourceRemaining unassignedRefunds collected refunded : Int) : Bool :=
  0 < collected && 0 < refunded && refunded ≤ collected && collected ≤ sourceRemaining &&
    refunded ≤ unassignedRefunds &&
    (collected = refunded || unassignedRefunds - refunded ≤ sourceRemaining - collected)

/-! ## Reading the bills -/

namespace PaymentDirectory

variable (d : PaymentDirectory)

def bill? (id : Nat) : Option ExternalPaymentBill := d.bills.find? fun b => b.id = id

def duplicate (bill : ExternalPaymentBill) : Bool :=
  d.bills.any fun b => b.kind = bill.kind && b.reference = bill.reference && b.id ≠ bill.id

/-- The refund bills of a collection bill, by its reference or by its trade number. -/
def related (source : ExternalPaymentBill) : List ExternalPaymentBill :=
  d.bills.filter fun b => b.kind = .refund && b.sourceId = source.sourceId && b.merchantId = source.merchantId &&
    (b.transactionId = some source.reference || b.originalTradeNo = source.originalTradeNo)

/-- The successful refunds that name this payment as their original. -/
def refundsOf (source : ExternalPaymentBill) : List ExternalPaymentBill :=
  d.bills.filter fun b => b.kind = .refund && b.sourceId = source.sourceId && b.merchantId = source.merchantId &&
    b.transactionId = some source.reference && b.state = .success

end PaymentDirectory

namespace AllocationTables

variable (d : PaymentDirectory) (t : AllocationTables)

def live (a : PaymentAllocation) : Bool := !t.released.contains a.id

def allocatedMinor (billId : Nat) : Int :=
  total (fun a => t.live a && a.billId = billId) PaymentAllocation.amountMinor t.allocations

def factReference (factId : Nat) : Option String := (t.fields factId).bind PaymentFields.reference

/-- A booked fact that names the bill and does not occupy it with its whole amount. -/
def unresolvedHistory (bill : ExternalPaymentBill) : Bool :=
  (t.funds.facts.any fun f => f.method = .wecom &&
    f.factType = (match bill.kind with | .collection => .collection | .refund => .refund) &&
    ((t.fields f.factId).bind PaymentFields.externalPaymentBillId = some bill.id ||
      t.factReference f.factId = some bill.reference) &&
    (!isReversed t.funds.facts f.factId || d.transferred f.factId) &&
    f.amountMinor ≠ total (fun a => t.live a && a.billId = bill.id && a.collectionFactId = f.factId)
      PaymentAllocation.amountMinor t.allocations) ||
  (bill.kind = .collection && d.memberReference bill.reference)

def unverifiedBill : Thrown := fundsConflict "所选收退款来源尚未核实、属于历史范围或已经占用，请重新核对"

def verified (bill? : Option ExternalPaymentBill) (kind : PaymentKind) :
    Except Thrown (ExternalPaymentBill × Int) := do
  require (bill?.any (t.unresolvedHistory d) = false)
    (fundsConflict "该流水已有尚未落实来源占用的历史登记，请先核对历史归属后再补登记")
  let bill ← expect unverifiedBill bill?
  let amount ← expect unverifiedBill bill.amountMinor
  require (bill.kind = kind ∧ d.enabled bill.sourceId = true ∧ bill.state = .success ∧ 0 < amount ∧
    bill.needsReview = false ∧ d.duplicate bill = false ∧ d.memberClaimed bill.id = false ∧
    d.matchingSince bill.sourceId ≤ bill.occurredAt ∧ t.allocatedMinor bill.id ≤ amount) unverifiedBill
  return (bill, amount)

/-! ## The group of a payment and its refunds -/

def billAmount (bill : ExternalPaymentBill) : Int := bill.amountMinor.getD 0

def unclearRefund (source bill : ExternalPaymentBill) : Bool :=
  bill.amountMinor.isNone || bill.needsReview || d.duplicate bill || bill.transactionId ≠ some source.reference ||
    bill.amountMinor.any (· < t.allocatedMinor bill.id)

def refundPart (source : ExternalPaymentBill) (part : PaymentShare) : Except Thrown Unit := do
  let (bill, amount) ← t.verified d (d.bill? part.externalPaymentBillId) .refund
  require (bill.sourceId = source.sourceId ∧ bill.merchantId = source.merchantId ∧
    bill.transactionId = some source.reference) (fundsInvalid "退款流水与所选原收款不对应")
  require (part.amountMinor ≤ amount - t.allocatedMinor bill.id) (fundsConflict "本次退款份额超过流水尚未归属的余额")

def unassigned (refunds : List ExternalPaymentBill) : Int :=
  (refunds.map fun b => billAmount b - t.allocatedMinor b.id).sum

def buildRefundReconciliation (orderId : Nat) (input : RefundReconciliation) : Except Thrown Unit := do
  let order ← t.funds.lodgingOrder orderId
  require (d.allocationEnabled = true) (fundsInvalid "收款分配与客户留存功能尚未启用")
  parseRefundReconciliation input
  require (order.status ∈ [.reserved, .checkedIn, .checkedOut, .cancelled, .noShow, .checkInRevoked] ∧
    d.reconcilable orderId = true) (fundsState "该订单不支持企微收退款补登记")
  let (source, amount) ← t.verified d (d.bill? input.source.externalPaymentBillId) .collection
  let successful := (d.related source).filter fun b => b.state = .success
  require (successful.any (t.unclearRefund d source) = false)
    (fundsConflict "原收款存在来源或金额待核对的退款，暂不能成组补登记")
  require ((successful.map billAmount).sum ≤ amount) (fundsConflict "成功退款总额超过原收款，请核对来源")
  checkAll (t.refundPart d source) input.refunds
  require (refundReconciliationReserveSafe (amount - t.allocatedMinor source.id) (t.unassigned successful)
    input.source.amountMinor input.refundedMinor = true)
    (fundsConflict "本次补登记会占用其他尚未归属退款的资金，请核对本单收退款份额")

/-! ## Writes -/

def recordFact (fact : CollectionFact) (reference : Option String) : Except Thrown AllocationTables := do
  let funds ← t.funds.insertFact fact
  return { t with
    funds
    fields := Function.update t.fields fact.factId (some ⟨reference, fact.billId⟩) }

/-- `UNIQUE (collection_fact_id)` -/
def bindAllocation (a : PaymentAllocation) : Except Thrown AllocationTables := do
  require (∀ x ∈ t.allocations, x.id ≠ a.id ∧ x.collectionFactId ≠ a.collectionFactId) .failure
  return { t with allocations := a :: t.allocations }

def referenceOf (billId : Nat) : Option String := (d.bill? billId).map ExternalPaymentBill.reference

/-- The facts of a reconciliation, then their allocations, the refunds first. -/
def applyRefundReconciliation (stamp : PaymentStamp) (orderId : Nat) (input : RefundReconciliation) :
    Except Thrown AllocationTables := do
  require (stamp.refundFactIds.length = input.refunds.length ∧
    stamp.refundAllocationIds.length = input.refunds.length) .failure
  let collected ← t.recordFact ⟨stamp.factId, orderId, .collection, input.source.amountMinor,
    input.source.amountMinor, none, none, .wecom, some input.source.externalPaymentBillId⟩
    (referenceOf d input.source.externalPaymentBillId)
  let recorded ← (input.refunds.zip stamp.refundFactIds).foldlM (fun t (part, factId) =>
    t.recordFact ⟨factId, orderId, .refund, part.amountMinor, -part.amountMinor, some stamp.factId, none, .wecom,
      some part.externalPaymentBillId⟩ (referenceOf d part.externalPaymentBillId)) collected
  let bound ← (input.refunds.zip (stamp.refundFactIds.zip stamp.refundAllocationIds)).foldlM
    (fun t (part, factId, id) => t.bindAllocation ⟨id, part.externalPaymentBillId, factId, part.amountMinor⟩) recorded
  bound.bindAllocation ⟨stamp.allocationId, input.source.externalPaymentBillId, stamp.factId, input.source.amountMinor⟩

/-! ## One bill, one fact -/

end AllocationTables

inductive PaymentStatus where
  | available | partiallyMatched | matched | historical | pending | unverified | review
  deriving DecidableEq, Repr

structure PaymentEffect where
  orderId : Nat
  amountMinor : Int
  method : FundsMethod
  reference : String
  billId : Nat

namespace AllocationTables

variable (d : PaymentDirectory) (t : AllocationTables)

def paymentStatus (bill : ExternalPaymentBill) : PaymentStatus :=
  if bill.needsReview || d.duplicate bill then .review
  else if d.memberClaimed bill.id then .matched
  else if bill.amountMinor.any (· ≤ t.allocatedMinor bill.id) then .matched
  else if bill.occurredAt < d.matchingSince bill.sourceId then .historical
  else if bill.state = .pending then .pending
  else if bill.state ≠ .success || bill.amountMinor.isNone then .unverified
  else if 0 < t.allocatedMinor bill.id then .partiallyMatched
  else .available

def remainingMinor (bill : ExternalPaymentBill) : Int :=
  max 0 (billAmount bill - t.allocatedMinor bill.id - if d.memberClaimed bill.id then billAmount bill else 0)

/-- A successful refund of the payment is not wholly booked to orders. -/
def unassignedRefund (billId : Nat) : Bool :=
  (d.bill? billId).any fun bill => (d.refundsOf bill).any fun r =>
    r.amountMinor.isNone || r.needsReview || r.amountMinor.any (t.allocatedMinor r.id < ·)

def allocatableBill (kind : PaymentKind) (effect : PaymentEffect) : Except Thrown ExternalPaymentBill := do
  require (d.allocationEnabled = true) (fundsInvalid "收款分配与客户留存功能尚未启用")
  let bill ← expect (fundsMissing "所选收退款流水不存在")
    ((d.bill? effect.billId).filter fun b => d.enabled b.sourceId && b.kind = kind)
  require ((t.paymentStatus d bill = .available ∨ t.paymentStatus d bill = .partiallyMatched) ∧
    d.memberClaimed bill.id = false) (fundsConflict "流水不可分配，请重新核对")
  require (0 < effect.amountMinor ∧ effect.amountMinor ≤ t.remainingMinor d bill)
    (fundsInvalid "本次金额超过流水剩余可分配额度")
  require (effect.method = .wecom) (fundsInvalid "只有企业微信流水支持分配")
  return bill

/-- `allocationPaymentBasis` for a collection. -/
def collectionBasis (effect : PaymentEffect) : Except Thrown Unit := do
  let bill ← t.allocatableBill d .collection effect
  require (effect.reference = bill.reference) (fundsInvalid "收款编号与所选流水不一致")
  require (t.unassignedRefund d effect.billId = false) (fundsConflict "原收款存在尚未完成归属的退款，请先核对退款")

/-- `allocationPaymentBasis` for a refund. -/
def refundBasis (effect : PaymentEffect) (referencesFactId : Nat) : Except Thrown Unit := do
  let bill ← t.allocatableBill d .refund effect
  require (effect.reference = bill.reference) (fundsInvalid "退款编号与所选流水不一致")
  let source ← t.funds.fundingSource referencesFactId
  let sourceBillId ← expect (fundsInvalid "退款必须引用本订单有来源的收款份额") source.billId
  require (source.orderId = effect.orderId) (fundsInvalid "退款必须引用本订单有来源的收款份额")
  require ((d.bill? sourceBillId).any (fun parent => bill.sourceId = parent.sourceId &&
    bill.merchantId = parent.merchantId && bill.transactionId = some parent.reference) = true)
    (fundsInvalid "退款流水与原收款不对应")

/-- What the funds commands read of these tables; the basis is checked apart. -/
def desk : PaymentDesk where
  allocationEnabled := d.allocationEnabled
  basisOk := true
  unassignedRefund := t.unassignedRefund d
  refundReferenceTaken reference := t.funds.facts.any fun f =>
    f.factType = .refund && t.factReference f.factId = some reference
  hasAllocation factId := t.allocations.any fun a => a.collectionFactId = factId
  openAllocation factId := (t.allocations.find? fun a => t.live a && a.collectionFactId = factId).map
    PaymentAllocation.billId

def fundsStamp (factId : Nat) : FundsStamp := ⟨factId, factId, factId⟩

def withFields (funds : FundsTables) (factId : Nat) (fields : PaymentFields) : AllocationTables :=
  { t with funds, fields := Function.update t.fields factId (some fields) }

/-- `RECORD_COLLECTION` of a bill. -/
def recordCollection (factId allocationId : Nat) (effect : PaymentEffect) : Except Thrown AllocationTables := do
  let funds ← t.funds.recordCollection (t.desk d) (fundsStamp factId) effect.orderId effect.amountMinor
    effect.method (some effect.billId)
  t.collectionBasis d effect
  (t.withFields funds factId ⟨some effect.reference, some effect.billId⟩).bindAllocation
    ⟨allocationId, effect.billId, factId, effect.amountMinor⟩

/-- `RECORD_REFUND` of a bill. -/
def recordRefund (factId allocationId : Nat) (effect : PaymentEffect) (referencesFactId : Nat) :
    Except Thrown AllocationTables := do
  let funds ← t.funds.recordRefund (t.desk d) (fundsStamp factId) effect.orderId effect.amountMinor
    referencesFactId effect.method effect.reference (some effect.billId)
  t.refundBasis d effect referencesFactId
  (t.withFields funds factId ⟨some effect.reference, some effect.billId⟩).bindAllocation
    ⟨allocationId, effect.billId, factId, effect.amountMinor⟩

/-- `REVERSE_FACT` that releases the allocation of the fact. -/
def reverseReleasing (factId orderId reversesFactId : Nat) : Except Thrown AllocationTables := do
  let funds ← t.funds.reverseFact (t.desk d) (fundsStamp factId) orderId reversesFactId true
  let allocation ← expect (fundsInvalid "没有可撤销的收退款分配")
    (t.allocations.find? fun a => t.live a && a.collectionFactId = reversesFactId)
  return { t.withFields funds factId ⟨none, none⟩ with released := allocation.id :: t.released }

/-- `RECORD_REFUND` of a group: a payment share with refunds that were made before. -/
def reconcileRefunds (stamp : PaymentStamp) (orderId : Nat) (input : RefundReconciliation) :
    Except Thrown AllocationTables := do
  t.buildRefundReconciliation d orderId input
  t.applyRefundReconciliation d stamp orderId input

end AllocationTables

end GreenPms
