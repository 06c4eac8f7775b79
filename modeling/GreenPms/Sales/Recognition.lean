import Mathlib.Data.List.Sort
import GreenPms.Library.Balances

/-! # Recognition of matched sales

Every valid payment counts with the share that is matched to business. Amounts that were counted
before the opening are credit: a payment takes it from its own entry or from that of its bill, and a
reversed payment hands what it took on to later payments of its bill. Times, dates and identities
are ordered as their texts are.
-/

namespace GreenPms

open Balances

inductive SalesSource where
  | direct | membership
  deriving DecidableEq, Repr

structure MatchedSaleFact where
  id : Nat
  source : SalesSource
  date : Nat
  currency : String
  amountMinor : Int
  registeredAt : Nat
  orderId : Option Nat
  memberId : Option Nat
  billId : Option String
  billAmountMinor : Option Int
  verified : Bool
  reversed : Bool
  reversedAt : Option Nat
  refund : Bool
  sourceKey : String
  deriving DecidableEq, Repr

structure SalesOpening where
  key : String
  amountMinor : Int
  deriving DecidableEq, Repr

structure SourceLink where
  sourceKey : String
  billId : String
  reversedAt : Option Nat
  deriving DecidableEq, Repr

inductive SaleEventKind where
  | sale | refund
  deriving DecidableEq, Repr

structure SaleEvent where
  id : Nat
  source : SalesSource
  date : Nat
  currency : String
  kind : SaleEventKind
  amountMinor : Int
  orderId : Option Nat
  memberId : Option Nat
  registeredAt : Nat
  reason : String
  deriving DecidableEq, Repr

structure SaleReview where
  fact : MatchedSaleFact
  reason : String
  deriving DecidableEq, Repr

structure ReleasedCredit where
  billId : String
  amount : Int
  at_ : Nat
  deriving DecidableEq, Repr

/-- The stores of credit: of each source and bill, and of what was released to a bill. -/
structure CreditStores where
  available : Balances String
  released : List ReleasedCredit

def paymentBillKey (billId : String) : String := "PAYMENT_BILL:" ++ billId

def putFact (facts : List MatchedSaleFact) (fact : MatchedSaleFact) : List MatchedSaleFact :=
  if facts.any fun f => f.id = fact.id then facts.map fun f => if f.id = fact.id then fact else f
  else facts ++ [fact]

def uniqueFacts (facts : List MatchedSaleFact) : List MatchedSaleFact := facts.foldl putFact []

namespace CreditStores

def release (s : CreditStores) (billId : String) (amount : Int) (time : Nat) : CreditStores :=
  { s with released := s.released ++ [⟨billId, amount, time⟩] }

/-- The credit of a reversed source that is not among the facts goes to its bill. -/
def followLink (facts : List MatchedSaleFact) (s : CreditStores) (link : SourceLink) : CreditStores :=
  match link.reversedAt with
  | none => s
  | some time =>
      if facts.any (fun f => f.sourceKey = link.sourceKey) || s.available.has (paymentBillKey link.billId) then s
      else if s.available.get link.sourceKey = 0 then s
      else { s.release link.billId (s.available.get link.sourceKey) time with
        available := s.available.put link.sourceKey 0 }

def opened (facts : List MatchedSaleFact) (opening : List SalesOpening) (sourceLinks : List SourceLink) : CreditStores :=
  sourceLinks.foldl (followLink facts) ⟨ofRows (opening.map fun row => (row.key, row.amountMinor)), []⟩

end CreditStores

/-- What is left of an amount after the released credit of a bill, and the credit after it. -/
def drawReleased (billId : Option String) (registeredAt : Nat) : Int → List ReleasedCredit → Int × List ReleasedCredit
  | amount, [] => (amount, [])
  | amount, bucket :: rest =>
      if some bucket.billId = billId ∧ bucket.at_ ≤ registeredAt then
        let take := min bucket.amount amount
        let (left, after) := drawReleased billId registeredAt (amount - take) rest
        (left, { bucket with amount := bucket.amount - take } :: after)
      else
        let (left, after) := drawReleased billId registeredAt amount rest
        (left, bucket :: after)

namespace MatchedSaleFact

variable (fact : MatchedSaleFact)

/-- The entry of the bill, where the opening has one, and that of the fact otherwise. -/
def creditKey (available : Balances String) : String :=
  match fact.billId with
  | some billId => if available.has (paymentBillKey billId) then paymentBillKey billId else fact.sourceKey
  | none => fact.sourceKey

def handOn (amount : Int) (s : CreditStores) : CreditStores :=
  match fact.billId, fact.reversedAt with
  | some billId, some time =>
      if fact.reversed = true ∧ 0 < fact.amountMinor - amount then s.release billId (fact.amountMinor - amount) time
      else s
  | _, _ => s

def takeCredit (s : CreditStores) : Int × CreditStores :=
  let key := fact.creditKey s.available
  let used := min (s.available.get key) fact.amountMinor
  let (amount, released) := drawReleased fact.billId fact.registeredAt (fact.amountMinor - used) s.released
  (amount, fact.handOn amount ⟨s.available.put key (s.available.get key - used), released⟩)

end MatchedSaleFact

/-- What the loop makes of a fact: it is withheld, or settled with the amount that is left. -/
inductive SaleOutcome where
  | withheld (fact : MatchedSaleFact)
  | settled (fact : MatchedSaleFact) (amount : Int)
  deriving DecidableEq, Repr

def effectiveTotal (facts : List MatchedSaleFact) (billId : String) : Int :=
  ((facts.filter fun f => !f.reversed && f.verified && f.billId = some billId).map MatchedSaleFact.amountMinor).sum

def overMatched (facts : List MatchedSaleFact) (fact : MatchedSaleFact) : Bool :=
  fact.billId.any fun billId => fact.billAmountMinor.any fun amount => amount < effectiveTotal facts billId

def withholds (facts : List MatchedSaleFact) (fact : MatchedSaleFact) : Bool :=
  !fact.verified || (!fact.reversed && overMatched facts fact)

def settleFact (fact : MatchedSaleFact) (s : CreditStores) : Int × CreditStores :=
  if fact.refund = true then (fact.amountMinor, s) else fact.takeCredit s

def settleFacts (all : List MatchedSaleFact) : CreditStores → List MatchedSaleFact → List SaleOutcome
  | _, [] => []
  | s, fact :: rest =>
      if withholds all fact then .withheld fact :: settleFacts all s rest
      else
        let (amount, after) := settleFact fact s
        .settled fact amount :: settleFacts all after rest

def registeredBefore (a b : MatchedSaleFact) : Prop :=
  a.registeredAt < b.registeredAt ∨ (a.registeredAt = b.registeredAt ∧
    (a.date < b.date ∨ (a.date = b.date ∧ a.id ≤ b.id)))

instance : DecidableRel registeredBefore := fun a b => by
  unfold registeredBefore
  infer_instance

def outcomes (facts : List MatchedSaleFact) (opening : List SalesOpening) (sourceLinks : List SourceLink) :
    List SaleOutcome :=
  let unique := uniqueFacts facts
  settleFacts unique (.opened unique opening sourceLinks) (unique.insertionSort registeredBefore)

def SaleOutcome.event (recognitionFrom : Nat) : SaleOutcome → Option SaleEvent
  | .withheld _ => none
  | .settled fact amount =>
      if fact.reversed = true ∨ fact.date < recognitionFrom ∨ amount = 0 then none
      else some {
        id := fact.id
        source := fact.source
        date := fact.date
        currency := fact.currency
        kind := if fact.refund then .refund else .sale
        amountMinor := if fact.refund then -amount else amount
        orderId := fact.orderId
        memberId := fact.memberId
        registeredAt := fact.registeredAt
        reason := if fact.refund then "已登记实际退款" else "真实款项已关联业务；已扣除期初已计份额" }

def SaleOutcome.review (recognitionFrom : Nat) : SaleOutcome → Option SaleReview
  | .withheld fact =>
      if fact.reversed = false ∧ recognitionFrom ≤ fact.date then
        some ⟨fact, if fact.verified then "同一账单的有效关联金额超过流水金额，请核对重复关联；未计入经营销售额"
          else "缺少唯一成功的收款依据，请回原订单核对流水；未计入经营销售额"⟩
      else none
  | .settled _ _ => none

def recognizedMatchedSales (facts : List MatchedSaleFact) (opening : List SalesOpening) (recognitionFrom : Nat)
    (sourceLinks : List SourceLink) : List SaleEvent × List SaleReview :=
  let settled := outcomes facts opening sourceLinks
  (settled.filterMap (SaleOutcome.event recognitionFrom), settled.filterMap (SaleOutcome.review recognitionFrom))

end GreenPms
