import Mathlib.Algebra.Ring.Int.Defs
import GreenPms.Channel.Recognition
import GreenPms.Foundation.Text
import GreenPms.Library.Transition

/-! # Orders of external channels

The contract amount of an order and its operating facts under the commands that touch either:
changes of the stay, corrections of the price, terminations, check-outs and their reversal, and
the refunds of the channel.
-/

namespace GreenPms

open Checked TransitionSystem

structure ChannelOrder where
  status : OrderStatus
  version : Nat
  amendments : List Amendment
  revisions : List ChannelRevision
  currentRevision : ChannelRevision
  facts : List ChannelOperatingFact
  openingRefundMinor : Nat

structure ChannelDesk where
  initialized : Bool
  closedMonth : Nat → Bool
  referenceTaken : String → Bool

structure CommandStamp where
  commandId : Nat
  factId : Nat
  clock : Clock

namespace ChannelOrder

variable (o : ChannelOrder)

def contract : Int := o.currentRevision.currentContractAmountMinor

def net : Int := (o.facts.map ChannelOperatingFact.amountMinor).sum - o.openingRefundMinor

def saleTotal : Int :=
  ((o.facts.filter fun f => f.kind = .sale).map ChannelOperatingFact.amountMinor).sum

def appendAmendment (type : CommandType) (commandId : Nat) : ChannelOrder :=
  { o with
    version := o.version + 1
    amendments := o.amendments ++ [⟨o.version + 1, type, commandId⟩] }

def insertFact (fact : ChannelOperatingFact) : Except Thrown ChannelOrder := do
  require (∀ f ∈ o.facts, f.id ≠ fact.id) .failure
  return { o with facts := o.facts ++ [fact] }

def addRevision (revision : ChannelRevision) : ChannelOrder :=
  { o with revisions := o.revisions ++ [revision], currentRevision := revision }

def nextRevision (type : CommandType) (clock : Clock) (target : Int) : ChannelRevision :=
  ⟨o.currentRevision.revisionNo + 1, o.version, type, target, clock.now, clock.today⟩

/-- `insertRevision`, with the fact that it recognises. -/
def insertRevision (stamp : CommandStamp) (revision : ChannelRevision) : Except Thrown ChannelOrder := do
  let fact ← recordChannelRevision stamp.clock stamp.factId o.revisions o.net revision
  match fact with
  | none => return o.addRevision revision
  | some fact => (o.addRevision revision).insertFact fact

def originalSale : Option ChannelOperatingFact :=
  (o.facts.mergeSort fun a b => a.createdAt < b.createdAt || (a.createdAt == b.createdAt && a.id ≤ b.id)).find?
    fun f => f.kind = .sale

def reversed (factId : Nat) : Bool :=
  o.facts.any fun f => f.kind = .reversal && f.referencesFactId = some factId

/-! ## The funds of a channel -/

structure ChannelFundsEffect where
  amountMinor : Int
  referencesFactId : Nat
  refundReference : Option String
  note : String
  businessDate : Nat
  contractTargetMinor : Int

def assertFundsOpen (desk : ChannelDesk) : Except Thrown Unit := do
  require (desk.initialized = true) (validationThrown "历史已计收入尚未承接，渠道退款登记暂未开放")
  require (o.contract ≤ o.net)
    (validationThrown "当前渠道应结高于已确认经营余额，请先核对历史应结及退款资料，不自动补改历史差额")

structure RefundInput where
  amountMinor : Int
  referencesFactId : Option Nat
  refundReference : String
  note : String
  businessDate : Option Nat

def text (key value : String) : Except Thrown String := do
  let trimmed := trimText value
  require (trimmed ≠ "" ∧ unitCount trimmed ≤ 1000) (validationThrown (key ++ "必填且不能过长"))
  return trimmed

def conflictThrown (message : String) : Thrown := .domain (domainError .aggregateVersionConflict message)

/-- `buildChannelFundsEffect` of a refund. -/
def buildRefundEffect (desk : ChannelDesk) (today : Nat) (input : RefundInput) :
    Except Thrown ChannelFundsEffect := do
  o.assertFundsOpen desk
  let note ← text "note" input.note
  require (0 < input.amountMinor ∧ input.amountMinor ≤ channelAmountLimit ∧ input.amountMinor ≤ o.net)
    (validationThrown "渠道退款金额必须大于0且不超过尚未退款的已确认成交金额")
  require (input.referencesFactId = o.originalSale.map ChannelOperatingFact.id)
    (validationThrown "渠道退款必须关联本订单的原成交记录")
  let refundReference ← text "refundReference" input.refundReference
  require (desk.referenceTaken refundReference = false ∧ ∀ f ∈ o.facts, f.kind = .refund →
      f.refundReference = some refundReference → o.reversed f.id = true)
    (conflictThrown "该平台退款单号已经登记")
  let sale ← expect (validationThrown "退款业务日期不得晚于今天或早于原成交") o.originalSale
  let date := input.businessDate.getD today
  require (date ≤ today ∧ sale.businessDate ≤ date)
    (validationThrown "退款业务日期不得晚于今天或早于原成交")
  require (desk.closedMonth date = false)
    (validationThrown "该月已经按确认基准封账；历史退款应通过期初承接处理，不能重复登记")
  return ⟨input.amountMinor, sale.id, some refundReference, note, date,
    min o.contract (o.net - input.amountMinor)⟩

/-- `buildChannelFundsEffect` of a reversal. -/
def buildReversalEffect (desk : ChannelDesk) (reversesFactId : Nat) (note : String) :
    Except Thrown ChannelFundsEffect := do
  o.assertFundsOpen desk
  let note ← text "note" note
  let original ← expect (.domain (domainError .notFound "渠道退款记录不存在"))
    (o.facts.find? fun f => f.id = reversesFactId && f.kind = .refund)
  require (o.reversed original.id = false) (.domain (domainError .factAlreadyReversed "此渠道退款已经撤销误录"))
  require (∀ f ∈ o.facts, f.kind = .sale ∨ f.kind = .correction → f.createdAt ≤ original.createdAt)
    (conflictThrown "此退款之后已有渠道成交或金额更正，请先核对后续记录再处理误录")
  require (∀ r ∈ o.revisions, original.createdAt < r.createdAt →
      r.amendmentType = .recordRefund ∨ r.amendmentType = .reverseFact)
    (conflictThrown "此退款之后已有新的渠道定价，请先核对后续金额记录")
  let target := o.contract - original.contractEffectMinor
  require (target ≤ channelAmountLimit) (validationThrown "恢复后的渠道应结金额超出范围")
  return ⟨-original.amountMinor, original.id, none, note, original.businessDate, target⟩

/-- `applyChannelFunds` with the amendment and the revision that follow it. -/
def applyChannelFunds (stamp : CommandStamp) (type : CommandType) (kind : ChannelFactKind) (amount : Int)
    (effect : ChannelFundsEffect) : Except Thrown ChannelOrder := do
  let funded ← o.insertFact ⟨stamp.factId, kind, amount, effect.contractTargetMinor - o.contract,
    effect.businessDate, some effect.referencesFactId, effect.refundReference, effect.note, stamp.clock.now⟩
  let amended := funded.appendAmendment type stamp.commandId
  if effect.contractTargetMinor = o.contract then return amended
  else amended.insertRevision stamp (amended.nextRevision type stamp.clock effect.contractTargetMinor)

/-! ## The reversal of a check-out -/

def reversalSource : Option ChannelRevision := do
  let checkout ← lastCheckout o.amendments
  if changedSince o.amendments checkout then none
  else
    match earlyShortening o.amendments checkout with
    | some shorten => o.revisions.findRev? fun r => r.amendmentSequence < shorten.sequence
    | none => some o.currentRevision

end ChannelOrder

/-! ## Commands -/

inductive ChannelCommand where
  | changeStay (type : CommandType) (target : Int)
  | earlyCheckOut (target : Int)
  | repriceOrder (target : Int)
  | checkIn
  | checkOut
  | completeStay
  | terminate (type : CommandType)
  | revokeCheckOut
  | correctOrderOccupant
  | manageOrderOccupants
  | recordRefund (input : ChannelOrder.RefundInput)
  | reverseFact (reversesFactId : Nat) (note : String)

def ChannelCommand.saleTarget? : ChannelCommand → Option Int
  | .changeStay _ target | .earlyCheckOut target => some target
  | _ => none

def stayChangeStatuses : CommandType → List OrderStatus
  | .rescheduleStay => [.reserved]
  | .extendStay | .shortenStay => [.checkedIn]
  | .moveUnit => [.reserved, .checkedIn]
  | _ => []

/-- The status that a command terminates and the one that it leaves. -/
def termination : CommandType → Option (OrderStatus × OrderStatus)
  | .cancelOrder => some (.reserved, .cancelled)
  | .markNoShow => some (.reserved, .noShow)
  | .revokeCheckIn => some (.checkedIn, .checkInRevoked)
  | _ => none

def wrongState : Thrown := .domain (domainError .invalidOrderState "Order state does not allow the command")

namespace ChannelOrder

variable (o : ChannelOrder)

def amendWithRevision (stamp : CommandStamp) (type : CommandType) (target : Int) :
    Except Thrown ChannelOrder :=
  let amended := o.appendAmendment type stamp.commandId
  amended.insertRevision stamp (amended.nextRevision type stamp.clock target)

def run (desk : ChannelDesk) (stamp : CommandStamp) : ChannelCommand → Except Thrown ChannelOrder
  | .changeStay type target => do
      require (o.status ∈ stayChangeStatuses type) wrongState
      let _ ← channelRecognitionDelta .sale o.contract o.net target
      o.amendWithRevision stamp type target
  | .earlyCheckOut target => do
      require (o.status = .checkedIn) wrongState
      let _ ← channelRecognitionDelta .sale o.contract o.net target
      let shortened ← o.amendWithRevision stamp .shortenStay target
      return { shortened.appendAmendment .checkOut stamp.commandId with status := .checkedOut }
  | .repriceOrder target => do
      require (o.status = .reserved ∨ o.status = .checkedIn ∨ o.status = .checkedOut) wrongState
      let _ ← channelRecognitionDelta .correction o.contract o.net target
      o.amendWithRevision stamp .repriceOrder target
  | .checkIn => do
      require (o.status = .reserved) wrongState
      return { o.appendAmendment .checkIn stamp.commandId with status := .checkedIn }
  | .checkOut => do
      require (o.status = .checkedIn) wrongState
      return { o.appendAmendment .checkOut stamp.commandId with status := .checkedOut }
  | .completeStay => do
      require (o.status = .reserved) wrongState
      return { (o.appendAmendment .checkIn stamp.commandId).appendAmendment .checkOut stamp.commandId with
        status := .checkedOut }
  | .terminate type => do
      let (before, after) ← expect wrongState (termination type)
      require (o.status = before) wrongState
      let closed ← o.amendWithRevision stamp type 0
      return { closed with status := after }
  | .revokeCheckOut => do
      require (o.status = .checkedOut) wrongState
      let source ← expect wrongState o.reversalSource
      let amended := o.appendAmendment .revokeCheckOut stamp.commandId
      return { amended.addRevision (amended.nextRevision .revokeCheckOut stamp.clock
        source.currentContractAmountMinor) with status := .checkedIn }
  | .correctOrderOccupant => return o.appendAmendment .correctOrderOccupant stamp.commandId
  | .manageOrderOccupants => return o.appendAmendment .manageOrderOccupants stamp.commandId
  | .recordRefund input => do
      let effect ← o.buildRefundEffect desk stamp.clock.today input
      o.applyChannelFunds stamp .recordRefund .refund (-effect.amountMinor) effect
  | .reverseFact reversesFactId note => do
      let effect ← o.buildReversalEffect desk reversesFactId note
      o.applyChannelFunds stamp .reverseFact .reversal effect.amountMinor effect

/-- `CREATE_ORDER` with its first revision. -/
def create (stamp : CommandStamp) (openingRefundMinor : Nat) (target : Int) : Except Thrown ChannelOrder :=
  let revision : ChannelRevision := ⟨1, 1, .createOrder, target, stamp.clock.now, stamp.clock.today⟩
  let draft : ChannelOrder :=
    ⟨.reserved, 1, [⟨1, .createOrder, stamp.commandId⟩], [], revision, [], openingRefundMinor⟩
  draft.insertRevision stamp revision

end ChannelOrder

structure ChannelEvent where
  desk : ChannelDesk
  stamp : CommandStamp
  command : ChannelCommand

/-- The accepted commands on one order from its creation, each under a command identity of its
own. -/
def channelSystem : System ChannelOrder ChannelEvent where
  init o := ∃ stamp openingRefundMinor target, ChannelOrder.create stamp openingRefundMinor target = .ok o
  step o e o' := (∀ a ∈ o.amendments, a.commandId ≠ e.stamp.commandId) ∧ o.run e.desk e.stamp e.command = .ok o'

end GreenPms
