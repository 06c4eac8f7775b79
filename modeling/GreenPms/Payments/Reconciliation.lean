import Mathlib.Order.Basic
import GreenPms.Library.Indexes

/-! # Payment reconciliation

The projection of bills, booked facts and claims onto one list of items: an item for each bill
that takes part in the matching, and one for each booked fact that no single bill backs.
Identities are non-empty texts, compared by a linear order.
-/

namespace GreenPms

open Indexes

inductive PaymentKind where
  | collection | refund
  deriving DecidableEq, Repr

inductive FactFamily where
  | stay | member
  deriving DecidableEq, Repr

inductive BillState where
  | success | pending | closed | unknown
  deriving DecidableEq, Repr

structure ReconciliationBill (ι : Type) where
  id : ι
  sourceId : ι
  merchantId : ι
  kind : PaymentKind
  reference : String
  originalReference : Option String
  amountMinor : Option Nat
  state : BillState
  needsReview : Bool
  nickname : Option String
  occurredAt : Nat
  discoveredAt : Nat
  matchingEligible : Bool
  deriving DecidableEq

structure ReconciliationFact (ι : Type) where
  id : ι
  family : FactFamily
  kind : PaymentKind
  amountMinor : Nat
  currency : String
  reference : Option String
  originalReference : Option String
  originalBillId : Option ι
  explicitBillId : Option ι
  orderId : Option ι
  membershipOrderId : Option ι
  predecessorId : Option ι
  createdAt : Nat
  effective : Bool
  deriving DecidableEq

structure ReconciliationClaim (ι : Type) where
  billId : ι
  factId : ι
  family : FactFamily
  amountMinor : Nat
  released : Bool
  allocation : Bool
  deriving DecidableEq

variable {ι : Type}

def ReconciliationFact.factKey (fact : ReconciliationFact ι) : FactFamily × ι := (fact.family, fact.id)

def ReconciliationClaim.factKey (claim : ReconciliationClaim ι) : FactFamily × ι := (claim.family, claim.factId)

def ReconciliationBill.referenceKey (bill : ReconciliationBill ι) : PaymentKind × String := (bill.kind, bill.reference)

structure ReconciliationSnapshot (ι : Type) where
  bills : List (ReconciliationBill ι)
  facts : List (ReconciliationFact ι)
  claims : List (ReconciliationClaim ι)
  matchingSince : Option Nat
  bill_keys : (bills.map ReconciliationBill.id).Nodup
  fact_keys : (facts.map ReconciliationFact.factKey).Nodup

/-- The identity of an item, in the order of its text: `bill:…`, `fact:MEMBER:…`, `fact:STAY:…`. -/
inductive ReconciliationItemId (ι : Type) where
  | bill (id : ι)
  | fact (family : FactFamily) (id : ι)
  deriving DecidableEq

def ReconciliationItemId.rank : ReconciliationItemId ι → Nat × ι
  | .bill id => (0, id)
  | .fact .member id => (1, id)
  | .fact .stay id => (2, id)

inductive ReconciliationIssueCode where
  | unverified | sourceReview | overclaimed | unassigned | businessMismatch | missingOriginal | businessWithoutBill
  deriving DecidableEq, Repr

structure ReconciliationIssue where
  code : ReconciliationIssueCode
  message : String
  deriving DecidableEq, Repr

structure PaymentReconciliationItem (ι : Type) where
  id : ReconciliationItemId ι
  kind : PaymentKind
  billId : Option ι
  factId : Option ι
  orderIds : List ι
  orderId : Option ι
  membershipOrderId : Option ι
  reference : Option String
  originalTransactionReference : Option String
  nickname : Option String
  currency : String
  amountMinor : Option Nat
  allocatedMinor : Nat
  businessMinor : Nat
  unassignedMinor : Option Nat
  excessMinor : Nat
  occurredAt : Nat
  discoveredAt : Option Nat
  issues : List ReconciliationIssue
  deriving DecidableEq

def filled (text : Option String) : Option String := text.filter (· ≠ "")

namespace ReconciliationSnapshot

variable [LinearOrder ι] (s : ReconciliationSnapshot ι)

/-! ## Indexes -/

def billById (id : ι) : Option (ReconciliationBill ι) := s.bills.find? fun bill => bill.id = id

def factByKey (key : FactFamily × ι) : Option (ReconciliationFact ι) := s.facts.find? fun fact => fact.factKey = key

def billsByReference : PaymentKind × String → List (ReconciliationBill ι) :=
  group ReconciliationBill.referenceKey s.bills

def collectionsBySource : ι × ι × Option String → List (ReconciliationBill ι) :=
  group (fun bill => (bill.sourceId, bill.merchantId, some bill.reference))
    (s.bills.filter fun bill => bill.kind = .collection)

def claimsByFact : FactFamily × ι → List (ReconciliationClaim ι) := group ReconciliationClaim.factKey s.claims

def hasAllocation (key : FactFamily × ι) : Bool := s.claims.any fun claim => claim.allocation && claim.factKey = key

/-- The claims that occupy a bill: a legacy match beside its allocation does not. -/
def reservingClaims : List (ReconciliationClaim ι) :=
  s.claims.filter fun claim => !(claim.released || !claim.allocation && s.hasAllocation claim.factKey)

def claimReservations : ι → Nat :=
  s.reservingClaims.foldl (fun m claim => addTo m claim.billId claim.amountMinor) fun _ => 0

def reservedFactsByBill (billId : ι) : List (ReconciliationFact ι) :=
  (group ReconciliationClaim.billId s.reservingClaims billId).filterMap fun claim => s.factByKey claim.factKey

/-! ## The bill of a fact -/

/-- The member fact that `current` replaces, when it names the same payment as `fact`. -/
def replacedPayment (fact current : ReconciliationFact ι) : Option (ReconciliationFact ι) :=
  if current.family = .member then
    current.predecessorId.bind fun id => (s.factByKey (.member, id)).filter fun previous =>
      previous.reference = fact.reference && previous.currency = fact.currency
  else none

def lineage (fact : ReconciliationFact ι) : List (ReconciliationFact ι) :=
  fact :: trail (s.replacedPayment fact) ReconciliationFact.id s.facts.length [fact.id] fact

def selectedClaims (fact : ReconciliationFact ι) : List (ReconciliationClaim ι) :=
  let linked := (s.lineage fact).flatMap fun item => s.claimsByFact item.factKey
  let allocations := linked.filter ReconciliationClaim.allocation
  if allocations = [] then linked else allocations

def evidence (fact : ReconciliationFact ι) : List (ReconciliationBill ι) :=
  match fact.explicitBillId with
  | some id => (s.billById id).toList.filter fun bill => bill.kind = fact.kind
  | none =>
      let selected := s.selectedClaims fact
      if selected = [] then
        match filled fact.reference with
        | some reference => s.billsByReference (fact.kind, reference)
        | none => []
      else
        (selected.map ReconciliationClaim.billId).eraseDups.flatMap fun id =>
          (s.billById id).toList.filter fun bill => bill.kind = fact.kind

/-- What `factsWithClaims` holds of a fact once its evidence is read. -/
def factWithClaims (fact : ReconciliationFact ι) : Bool :=
  fact.explicitBillId.isNone && !(s.selectedClaims fact).isEmpty

/-! ## The facts of a bill -/

def previousEntry (fact current : ReconciliationFact ι) : Option (ReconciliationFact ι) :=
  current.predecessorId.bind fun id => (s.factByKey (fact.family, id)).filter fun previous =>
    previous.reference = fact.reference

def firstEntry (fact : ReconciliationFact ι) : ReconciliationFact ι :=
  (fact :: trail (s.previousEntry fact) ReconciliationFact.id s.facts.length [fact.id] fact).getLast (by simp)

theorem factByKey_mem {s : ReconciliationSnapshot ι} {key : FactFamily × ι} {p : ReconciliationFact ι → Bool}
    {fact : ReconciliationFact ι} (h : (s.factByKey key).filter p = some fact) : fact ∈ s.facts :=
  List.mem_of_find?_eq_some (Option.filter_eq_some_iff.mp h).1

theorem walks_end (fact current : ReconciliationFact ι) {n : Nat} (h : s.facts.length ≤ n) (seen : List ι) :
    trail (s.replacedPayment fact) ReconciliationFact.id n seen current =
        trail (s.replacedPayment fact) ReconciliationFact.id s.facts.length seen current ∧
      trail (s.previousEntry fact) ReconciliationFact.id n seen current =
        trail (s.previousEntry fact) ReconciliationFact.id s.facts.length seen current := by
  have hShort := List.length_filter_le (fun b : ReconciliationFact ι => b.id ∉ seen) s.facts
  constructor
  · refine trail_enough s.facts (fun a b hb => ?_) current (Nat.le_trans hShort h) hShort
    unfold replacedPayment at hb
    split at hb
    · obtain ⟨id, -, hFound⟩ := Option.bind_eq_some_iff.mp hb
      exact factByKey_mem hFound
    · cases hb
  · refine trail_enough s.facts (fun a b hb => ?_) current (Nat.le_trans hShort h) hShort
    obtain ⟨id, -, hFound⟩ := Option.bind_eq_some_iff.mp hb
    exact factByKey_mem hFound

structure Placed (ι : Type) where
  businessByBill : ι → List (ReconciliationFact ι)
  orphanFacts : List (ReconciliationFact ι × Bool)
  reservations : ι → Nat

def place (p : Placed ι) (fact : ReconciliationFact ι) : Placed ι :=
  if fact.effective then
    match s.evidence fact with
    | [bill] => { p with
        businessByBill := appendTo p.businessByBill bill.id fact
        reservations :=
          if s.claimsByFact fact.factKey = [] ∧ s.factWithClaims fact = false then
            addTo p.reservations bill.id fact.amountMinor
          else p.reservations }
    | candidates =>
        if s.matchingSince.any (· ≤ (s.firstEntry fact).createdAt) then
          { p with orphanFacts := p.orphanFacts ++ [(fact, decide (1 < candidates.length))] }
        else p
  else p

def placed : Placed ι := s.facts.foldl s.place ⟨fun _ => [], [], s.claimReservations⟩

/-! ## Items -/

def duplicate (bill : ReconciliationBill ι) : Bool := 1 < (s.billsByReference bill.referenceKey).length

def verified (bill : ReconciliationBill ι) : Bool :=
  bill.state = .success && bill.amountMinor.any (0 < ·) && !bill.needsReview && !s.duplicate bill

def parents (bill : ReconciliationBill ι) : List (ReconciliationBill ι) :=
  s.collectionsBySource (bill.sourceId, bill.merchantId, bill.originalReference)

/-- A linked refund names another original payment than the parents of the bill. -/
def namesOtherOriginal (bill : ReconciliationBill ι) (fact : ReconciliationFact ι) : Bool :=
  match fact.originalBillId with
  | some id => !((s.parents bill).map ReconciliationBill.id).contains id
  | none => (filled fact.originalReference).isNone || fact.originalReference ≠ bill.originalReference

def kindText : PaymentKind → String
  | .refund => "退款"
  | .collection => "收款"

def issueWhen (condition : Bool) (code : ReconciliationIssueCode) (message : String) : List ReconciliationIssue :=
  if condition then [⟨code, message⟩] else []

def refundIssues (bill : ReconciliationBill ι) (linked : List (ReconciliationFact ι)) : List ReconciliationIssue :=
  match bill.kind with
  | .collection => []
  | .refund =>
      issueWhen ((s.parents bill).length ≠ 1) .missingOriginal "无法确定这笔退款退的是哪笔收款，请核对原收款单号。" ++
        issueWhen (linked.any (s.namesOtherOriginal bill)) .sourceReview
          "订单和企微记录的原收款不是同一笔，请核对这笔退款。"

def billIssues (bill : ReconciliationBill ι) (linked : List (ReconciliationFact ι)) (allocated business : Nat) :
    List ReconciliationIssue :=
  issueWhen (!s.verified bill) .unverified
      (if bill.state = .pending then "这笔" ++ kindText bill.kind ++ "还没确认成功，请先到企微查看。"
        else "这笔" ++ kindText bill.kind ++ "的结果或金额还不确定，请先到企微查看。") ++
    issueWhen (bill.needsReview || s.duplicate bill) .sourceReview
      "企微记录有变化，或同一单号出现了多次，请查看原始收退款凭据。" ++
    issueWhen (bill.amountMinor.any fun external => external < business || external < allocated) .overclaimed
      "订单使用这笔钱的金额超过了企微金额，请查看相关订单。" ++
    issueWhen (s.verified bill && bill.amountMinor.any fun external => business < external) .unassigned
      (match bill.kind with
        | .refund => "企微已经退款，订单里还没记全这笔退款。"
        | .collection => "企微已经收款，订单里还没记全这笔收款。") ++
    issueWhen (allocated ≠ business) .businessMismatch "这笔钱对应的订单记录对不上，请查看相关订单。" ++
    issueWhen (linked.any fun fact => fact.currency ≠ "CNY") .sourceReview "订单记录的币种与企微不同，请先核对币种和金额。" ++
    s.refundIssues bill linked

def businessMinor (linked : List (ReconciliationFact ι)) : Nat :=
  ((linked.filter fun fact => fact.currency = "CNY").map ReconciliationFact.amountMinor).sum

def billItem (bill : ReconciliationBill ι) : Option (PaymentReconciliationItem ι) :=
  let linked := s.placed.businessByBill bill.id
  let allocated := s.placed.reservations bill.id
  let business := businessMinor linked
  if bill.matchingEligible = false ∨ bill.state = .closed ∧ allocated = 0 ∧ business = 0 then none
  else
    let reservedFacts := s.reservedFactsByBill bill.id
    let orderIds := ((linked ++ reservedFacts).filterMap ReconciliationFact.orderId).eraseDups.insertionSort (· ≤ ·)
    let activeMemberFacts := linked.filter fun fact => fact.membershipOrderId.isSome
    let memberIds := ((if activeMemberFacts = [] then reservedFacts else activeMemberFacts).filterMap
      ReconciliationFact.membershipOrderId).eraseDups
    some {
      id := .bill bill.id
      kind := bill.kind
      billId := some bill.id
      factId := none
      orderIds
      orderId := single orderIds
      membershipOrderId := single memberIds
      reference := some bill.reference
      originalTransactionReference := bill.originalReference
      nickname := bill.nickname
      currency := "CNY"
      amountMinor := bill.amountMinor
      allocatedMinor := allocated
      businessMinor := business
      unassignedMinor := bill.amountMinor.map (· - business)
      excessMinor := (bill.amountMinor.map (max business allocated - ·)).getD 0
      occurredAt := bill.occurredAt
      discoveredAt := some bill.discoveredAt
      issues := s.billIssues bill linked allocated business }

def orphanItem (orphan : ReconciliationFact ι × Bool) : PaymentReconciliationItem ι :=
  let (fact, ambiguous) := orphan
  { id := .fact fact.family fact.id
    kind := fact.kind
    billId := none
    factId := some fact.id
    orderIds := fact.orderId.toList
    orderId := fact.orderId
    membershipOrderId := fact.membershipOrderId
    reference := fact.reference
    originalTransactionReference := fact.originalReference
    nickname := none
    currency := fact.currency
    amountMinor := none
    allocatedMinor := 0
    businessMinor := fact.amountMinor
    unassignedMinor := none
    excessMinor := 0
    occurredAt := fact.createdAt
    discoveredAt := none
    issues := [if ambiguous then ⟨.sourceReview, "订单里的单号对应了多笔企微记录，还不能确定是哪一笔。"⟩
      else ⟨.businessWithoutBill, "订单里记了这笔钱，但没找到对应的企微收退款记录。"⟩] }

def itemBefore (left right : PaymentReconciliationItem ι) : Prop :=
  left.id.rank.1 < right.id.rank.1 ∨ left.id.rank.1 = right.id.rank.1 ∧ left.id.rank.2 ≤ right.id.rank.2

instance : DecidableRel (itemBefore (ι := ι)) := fun _ _ => inferInstanceAs (Decidable (_ ∨ _ ∧ _))

def projectPaymentReconciliation : List (PaymentReconciliationItem ι) :=
  (s.bills.filterMap s.billItem ++ s.placed.orphanFacts.map orphanItem).insertionSort itemBefore

end ReconciliationSnapshot

end GreenPms
