import GreenPms.Funds.Ledger
import GreenPms.Library.Transition
import GreenPms.Order.Amendments

/-! # Commands on customer money

The seven commands that move the money of direct orders. Each runs under the payment allocation
lock of its property, so it is one step on the ledger, the retained funds and their entries.
-/

namespace GreenPms

open Checked Totals TransitionSystem

structure RetainedFund where
  id : Nat
  sourceOrderId : Nat
  sourceFactId : Nat
  billId : Nat
  ownerName : String
  ownerContact : String
  amountMinor : Int
  deriving DecidableEq, Repr

inductive RetainedEntryKind where
  | use | refund | release
  deriving DecidableEq, Repr

structure RetainedFundEntry where
  retainedFundId : Nat
  kind : RetainedEntryKind
  amountMinor : Int
  targetOrderId : Option Nat
  sourceOutFactId : Option Nat
  targetInFactId : Option Nat
  refundFactId : Option Nat
  deriving DecidableEq, Repr

/-- What the funds commands read of an order; `retainedEligible` is the filter of
`eligibleOrder`, and the lodging funds are open until the stay is converted to a membership. -/
structure FundsOrder where
  status : OrderStatus
  currentContractAmountMinor : Int
  lodgingFundsOpen : Bool
  retainedEligible : Bool
  deriving DecidableEq, Repr

structure FundsTables where
  facts : List CollectionFact
  retainedFunds : List RetainedFund
  entries : List RetainedFundEntry
  orders : Nat → Option FundsOrder

structure PaymentDesk where
  allocationEnabled : Bool
  basisOk : Bool
  unassignedRefund : Nat → Bool
  refundReferenceTaken : String → Bool
  hasAllocation : Nat → Bool
  openAllocation : Nat → Option Nat

structure FundsStamp where
  factId : Nat
  inFactId : Nat
  retainedFundId : Nat

def fundsInvalid (message : String) : Thrown := .domain (domainError .validationError message)
def fundsConflict (message : String) : Thrown := .domain (domainError .aggregateVersionConflict message)
def fundsMissing (message : String) : Thrown := .domain (domainError .notFound message)
def fundsState (message : String) : Thrown := .domain (domainError .invalidOrderState message)
def factReversed (message : String) : Thrown := .domain (domainError .factAlreadyReversed message)
def refundLimit (message : String) : Thrown := .domain (domainError .refundLimitExceeded message)
def crossOrder (message : String) : Thrown := .domain (domainError .crossOrderFactReference message)

namespace FundsTables

variable (t : FundsTables)

def spentMinor (retainedFundId : Nat) : Int :=
  total (fun e => e.retainedFundId = retainedFundId) RetainedFundEntry.amountMinor t.entries

def lotRemaining (lot : RetainedFund) : Int := lot.amountMinor - t.spentMinor lot.id

def reservedMinor (factId : Nat) : Int :=
  total (fun lot => lot.sourceFactId = factId) t.lotRemaining t.retainedFunds

def orderReserved (orderId : Nat) : Int :=
  total (fun lot => lot.sourceOrderId = orderId) t.lotRemaining t.retainedFunds

def orderNet (orderId : Nat) : Int :=
  total (fun f => f.orderId = orderId) CollectionFact.netEffectMinor t.facts

def findLot (id : Nat) : Option RetainedFund := t.retainedFunds.find? fun lot => lot.id = id

/-- `remainingMinor`: nothing remains of a reversed share. -/
def remainingMinor (f : CollectionFact) : Int :=
  if isReversed t.facts f.factId then 0 else balanceMinor t.facts f

/-- `fundingSource`: the share that a command draws on. -/
def fundingSource (factId : Nat) : Except Thrown CollectionFact :=
  expect (fundsMissing "原收款份额不存在")
    ((findFact t.facts factId).filter CollectionFact.isShare)

def assertNoUnassignedRefund (desk : PaymentDesk) (billId : Nat) : Except Thrown Unit :=
  require (desk.unassignedRefund billId = false) (fundsConflict "原收款存在尚未完成归属的退款，请先核对退款")

def requireAllocationEnabled (desk : PaymentDesk) : Except Thrown Unit :=
  require (desk.allocationEnabled = true) (fundsInvalid "收款分配与客户留存功能尚未启用")

def eligibleOrder (orderId : Nat) : Except Thrown FundsOrder := do
  let order ← expect (fundsInvalid "订单不支持客户留存资金操作，请核对物业、渠道与会员状态") (t.orders orderId)
  require (order.retainedEligible = true)
    (fundsInvalid "订单不支持客户留存资金操作，请核对物业、渠道与会员状态")
  return order

def lodgingOrder (orderId : Nat) : Except Thrown FundsOrder := do
  let order ← expect (fundsMissing "Order not found") (t.orders orderId)
  require (order.lodgingFundsOpen = true)
    (fundsConflict "已完成升级会员，本订单不再追加住宿收退款；后续会员收款请在会员订单中处理")
  return order

def insertFact (fact : CollectionFact) : Except Thrown FundsTables := do
  require (∀ f ∈ t.facts, f.factId ≠ fact.factId) .failure
  return { t with facts := fact :: t.facts }

def insertEntry (entry : RetainedFundEntry) : FundsTables := { t with entries := entry :: t.entries }

/-! ## Collections, refunds and reversals -/

def recordCollection (desk : PaymentDesk) (stamp : FundsStamp) (orderId : Nat) (amountMinor : Int)
    (method : FundsMethod) (billId : Option Nat) : Except Thrown FundsTables := do
  let order ← t.lodgingOrder orderId
  require (1 ≤ amountMinor) (fundsInvalid "amountMinor must be at least 1")
  require (order.status ∈ [.reserved, .checkedIn, .checkedOut])
    (fundsState "Cannot record a collection for this order")
  require (desk.basisOk = true) (fundsConflict "流水不可分配，请重新核对")
  t.insertFact ⟨stamp.factId, orderId, .collection, amountMinor, amountMinor, none, none, method, billId⟩

/-- The plain route of `RECORD_REFUND`. -/
def recordRefund (desk : PaymentDesk) (stamp : FundsStamp) (orderId : Nat) (amountMinor : Int)
    (referencesFactId : Nat) (method : FundsMethod) (refundReference : String) (billId : Option Nat) :
    Except Thrown FundsTables := do
  let _ ← t.lodgingOrder orderId
  require (1 ≤ amountMinor) (fundsInvalid "amountMinor must be at least 1")
  require (billId = none → desk.refundReferenceTaken refundReference = false)
    (fundsConflict "该企业微信退款单号已经登记，请核对原记录")
  let original ← expect (fundsMissing "Referenced collection fact not found") (findFact t.facts referencesFactId)
  require (original.orderId = orderId) (crossOrder "Refund must reference a collection in the same order")
  require (original.isShare = true) (fundsInvalid "Refund must reference a collection fact")
  require ((original.method = .wecom) = (method = .wecom)) (fundsInvalid "企业微信收款必须通过企业微信原路退款")
  require (isReversed t.facts referencesFactId = false) (factReversed "Cannot refund a reversed collection")
  let source ← t.fundingSource referencesFactId
  require (amountMinor ≤ t.remainingMinor source - t.reservedMinor referencesFactId)
    (refundLimit "退款金额不能超过所选原收款的剩余可退金额")
  require (desk.basisOk = true) (fundsConflict "流水不可分配，请重新核对")
  t.insertFact ⟨stamp.factId, orderId, .refund, amountMinor, -amountMinor, some referencesFactId, none, method,
    billId⟩

def assertReleasable (desk : PaymentDesk) (original : CollectionFact) : Except Thrown Unit := do
  requireAllocationEnabled desk
  require (original.factType = .collection ∨ original.factType = .refund)
    (fundsInvalid "这里只能释放收款或退款分配")
  let billId ← expect (fundsInvalid "没有可撤销的收退款分配") (desk.openAllocation original.factId)
  if original.factType = .collection then assertNoUnassignedRefund desk billId else return ()

def assertReversible (desk : PaymentDesk) (original : CollectionFact) (releaseAllocation : Bool) :
    Except Thrown Unit := do
  require (original.factType ≠ .reversal) (fundsInvalid "A reversal fact cannot itself be reversed")
  require (original.factType ≠ .reallocationIn ∧ original.factType ≠ .reallocationOut)
    (fundsInvalid "内部划转不能直接冲销，请从目标订单核对资金")
  require (original.factType = .collection → ¬ (0 < t.reservedMinor original.factId) ∧
      ¬ (0 < transferredMinor t.facts original.factId))
    (fundsInvalid "收款有留存或划转占用，不能冲销")
  require (∀ e ∈ t.entries, e.refundFactId ≠ some original.factId)
    (fundsInvalid "留存退款记录需专项核对，不能直接冲销")
  require (original.factType = .refund → releaseAllocation = false → desk.hasAllocation original.factId = false)
    (fundsInvalid "真实退款只能受控撤销归属；请勾选同时撤销流水归属，不能恢复已经退走的资金")
  if releaseAllocation then assertReleasable desk original else return ()

def reverseFact (desk : PaymentDesk) (stamp : FundsStamp) (orderId reversesFactId : Nat)
    (releaseAllocation : Bool) : Except Thrown FundsTables := do
  let _ ← t.lodgingOrder orderId
  let original ← expect (fundsMissing "Fact not found") (findFact t.facts reversesFactId)
  require (original.orderId = orderId) (crossOrder "Reversal must remain within the order")
  t.assertReversible desk original releaseAllocation
  require (isReversed t.facts reversesFactId = false) (factReversed "Fact is already reversed")
  require (original.factType = .collection → ¬ (0 < activeRefundedAmount t.facts reversesFactId))
    (refundLimit "Reverse active refunds before reversing their collection")
  t.insertFact ⟨stamp.factId, orderId, .reversal, original.amountMinor, -original.netEffectMinor, none,
    some reversesFactId, .reversal, none⟩

/-! ## Retained funds -/

/-- The owner of a moved share stays the owner of the fund that it came from. -/
def ownedBy (f : CollectionFact) (ownerName ownerContact : String) : Bool :=
  f.factType ≠ .reallocationIn || t.entries.any fun e => e.targetInFactId = some f.factId &&
    (t.findLot e.retainedFundId).any fun lot => lot.ownerName = ownerName && lot.ownerContact = ownerContact

def retainAvailable (order : FundsOrder) (orderId : Nat) (source : CollectionFact) : Int :=
  min (t.remainingMinor source - t.reservedMinor source.factId)
    (t.orderNet orderId - order.currentContractAmountMinor - t.orderReserved orderId)

def retainedAmountOk (amountMinor : Int) : Except Thrown Unit :=
  require (0 < amountMinor ∧ amountMinor ≤ 2147483647) (fundsInvalid "金额必须为有效的正整数分")

def retainOrderFunds (desk : PaymentDesk) (stamp : FundsStamp) (orderId : Nat) (amountMinor : Int)
    (sourceFactId : Nat) (ownerName ownerContact : String) : Except Thrown FundsTables := do
  requireAllocationEnabled desk
  retainedAmountOk amountMinor
  let order ← t.eligibleOrder orderId
  require (order.status ∈ [.cancelled, .noShow, .checkedOut])
    (fundsState "仅取消、未到或已退房订单可以登记留存")
  let source ← t.fundingSource sourceFactId
  let billId ← expect (fundsInvalid "留存必须引用本订单有明确来源的有效收款份额") source.billId
  require (source.orderId = orderId ∧ isReversed t.facts source.factId = false)
    (fundsInvalid "留存必须引用本订单有明确来源的有效收款份额")
  assertNoUnassignedRefund desk billId
  require (t.ownedBy source ownerName ownerContact = true)
    (fundsInvalid "再次留存必须保留原款项归属客户，代订不转移款项所有权")
  require (amountMinor ≤ t.retainAvailable order orderId source) (fundsInvalid "留存金额超过本订单未占用的多余款项")
  require (∀ lot ∈ t.retainedFunds, lot.id ≠ stamp.retainedFundId) .failure
  return { t with retainedFunds :=
    ⟨stamp.retainedFundId, orderId, source.factId, billId, ownerName, ownerContact, amountMinor⟩ ::
      t.retainedFunds }

def openLot (desk : PaymentDesk) (orderId : Nat) (amountMinor : Int) (retainedFundId : Nat) :
    Except Thrown (FundsOrder × RetainedFund) := do
  requireAllocationEnabled desk
  retainedAmountOk amountMinor
  let order ← t.eligibleOrder orderId
  let lot ← expect (fundsMissing "客户留存记录不存在") (t.findLot retainedFundId)
  require (amountMinor ≤ t.lotRemaining lot) (fundsInvalid "金额超过留存剩余额度")
  let source ← t.fundingSource lot.sourceFactId
  require (isReversed t.facts source.factId = false ∧ amountMinor ≤ t.remainingMinor source)
    (fundsConflict "来源资金已变化，请重新核对")
  return (order, lot)

def applyRetainedFunds (desk : PaymentDesk) (stamp : FundsStamp) (orderId : Nat) (amountMinor : Int)
    (retainedFundId : Nat) : Except Thrown FundsTables := do
  let (order, lot) ← t.openLot desk orderId amountMinor retainedFundId
  require (orderId ≠ lot.sourceOrderId ∧ order.status ∈ [.reserved, .checkedIn, .checkedOut])
    (fundsState "请选择同物业可收款的其他住宿订单")
  let _ ← t.eligibleOrder lot.sourceOrderId
  assertNoUnassignedRefund desk lot.billId
  let out ← t.insertFact ⟨stamp.factId, lot.sourceOrderId, .reallocationOut, amountMinor, -amountMinor,
    some lot.sourceFactId, none, .wecom, some lot.billId⟩
  let moved ← out.insertFact ⟨stamp.inFactId, orderId, .reallocationIn, amountMinor, amountMinor,
    some lot.sourceFactId, none, .wecom, some lot.billId⟩
  return moved.insertEntry ⟨lot.id, .use, amountMinor, some orderId, some stamp.factId, some stamp.inFactId, none⟩

def releaseRetainedFunds (desk : PaymentDesk) (orderId : Nat) (amountMinor : Int) (retainedFundId : Nat) :
    Except Thrown FundsTables := do
  let (_, lot) ← t.openLot desk orderId amountMinor retainedFundId
  require (orderId = lot.sourceOrderId) (fundsInvalid "必须在留存来源订单处理退款或解除")
  assertNoUnassignedRefund desk lot.billId
  return t.insertEntry ⟨lot.id, .release, amountMinor, none, none, none, none⟩

def refundRetainedFunds (desk : PaymentDesk) (stamp : FundsStamp) (orderId : Nat) (amountMinor : Int)
    (retainedFundId billId : Nat) : Except Thrown FundsTables := do
  let (_, lot) ← t.openLot desk orderId amountMinor retainedFundId
  require (orderId = lot.sourceOrderId) (fundsInvalid "必须在留存来源订单处理退款或解除")
  require (desk.basisOk = true) (fundsConflict "流水不可分配，请重新核对")
  let refunded ← t.insertFact ⟨stamp.factId, lot.sourceOrderId, .refund, amountMinor, -amountMinor,
    some lot.sourceFactId, none, .wecom, some billId⟩
  return refunded.insertEntry ⟨lot.id, .refund, amountMinor, none, none, none, some stamp.factId⟩

end FundsTables

inductive FundsCommand where
  | recordCollection (orderId : Nat) (amountMinor : Int) (method : FundsMethod) (billId : Option Nat)
  | recordRefund (orderId : Nat) (amountMinor : Int) (referencesFactId : Nat) (method : FundsMethod)
      (refundReference : String) (billId : Option Nat)
  | reverseFact (orderId reversesFactId : Nat) (releaseAllocation : Bool)
  | retainOrderFunds (orderId : Nat) (amountMinor : Int) (sourceFactId : Nat) (ownerName ownerContact : String)
  | applyRetainedFunds (orderId : Nat) (amountMinor : Int) (retainedFundId : Nat)
  | releaseRetainedFunds (orderId : Nat) (amountMinor : Int) (retainedFundId : Nat)
  | refundRetainedFunds (orderId : Nat) (amountMinor : Int) (retainedFundId billId : Nat)

def FundsTables.run (t : FundsTables) (desk : PaymentDesk) (stamp : FundsStamp) :
    FundsCommand → Except Thrown FundsTables
  | .recordCollection orderId amountMinor method billId =>
      t.recordCollection desk stamp orderId amountMinor method billId
  | .recordRefund orderId amountMinor referencesFactId method refundReference billId =>
      t.recordRefund desk stamp orderId amountMinor referencesFactId method refundReference billId
  | .reverseFact orderId reversesFactId releaseAllocation =>
      t.reverseFact desk stamp orderId reversesFactId releaseAllocation
  | .retainOrderFunds orderId amountMinor sourceFactId ownerName ownerContact =>
      t.retainOrderFunds desk stamp orderId amountMinor sourceFactId ownerName ownerContact
  | .applyRetainedFunds orderId amountMinor retainedFundId =>
      t.applyRetainedFunds desk stamp orderId amountMinor retainedFundId
  | .releaseRetainedFunds orderId amountMinor retainedFundId =>
      t.releaseRetainedFunds desk orderId amountMinor retainedFundId
  | .refundRetainedFunds orderId amountMinor retainedFundId billId =>
      t.refundRetainedFunds desk stamp orderId amountMinor retainedFundId billId

/-- A funds command, or a command that changes an order but no money. -/
inductive FundsEvent where
  | command (desk : PaymentDesk) (stamp : FundsStamp) (command : FundsCommand)
  | orderChanged (orderId : Nat) (row : FundsOrder)

def fundsSystem : System FundsTables FundsEvent where
  init t := t.facts = [] ∧ t.retainedFunds = [] ∧ t.entries = []
  step t e t' :=
    match e with
    | .command desk stamp command => t.run desk stamp command = .ok t'
    | .orderChanged orderId row => t' = { t with orders := Function.update t.orders orderId (some row) }

end GreenPms
