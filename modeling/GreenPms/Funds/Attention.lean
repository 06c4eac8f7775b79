import Mathlib.Algebra.Ring.Int.Defs
import GreenPms.Funds.Commands
import GreenPms.Pricing.Decision

/-! # The money of a stay in house

Before a stay that leaves today may keep its bed without blocking it, the prices and the funds of the
order are checked over from the stored rows: every revision adds up, and the facts are replayed one
after the other.
-/

namespace GreenPms

open Checked TransitionSystem

structure LodgingRevision where
  id : Nat
  coverageSet : List Nat
  cashLines : List CashLine
  currency : CurrencyCode
  policyVersionId : Nat
  pricingBasis : PricingBasis
  policyBaseAmountMinor : Int
  manualAdjustmentMinor : Int
  currentContractAmountMinor : Int

structure LodgingFact extends CollectionFact where
  currency : CurrencyCode
  pricingRevisionId : Option Nat

structure LodgingOrder where
  currentRevisionId : Option Nat
  pricingPolicyVersionId : Nat

def isSafeInteger (n : Int) : Bool := -maxSafeInteger ≤ n && n ≤ maxSafeInteger

theorem isSafeInteger_iff {n : Int} : isSafeInteger n = true ↔ -9007199254740991 ≤ n ∧ n ≤ 9007199254740991 := by
  rw [isSafeInteger, Bool.and_eq_true, decide_eq_true_eq, decide_eq_true_eq, maxSafeInteger]
  rfl

theorem isSafeInteger_of_column {n : Int} (hLow : -postgresIntegerMaximum ≤ n) (hHigh : n ≤ postgresIntegerMaximum) :
    isSafeInteger n = true := by
  rw [postgresIntegerMaximum] at hLow hHigh
  rw [isSafeInteger_iff]
  omega

inductive MoneyAttention where
  | arrears
  deriving DecidableEq, Repr

def pricingChainDamaged : Thrown := .domain (domainError .internalError "当前住宿的计价链无法核对")

def fundsChainDamaged : Thrown := .domain (domainError .internalError "当前住宿的资金链无法核对")

def revisionConsistent (order : LodgingOrder) (currentTimeline : List StayTimelineItem) (r : LodgingRevision) : Bool :=
  let cashLineTotal :=
    if order.currentRevisionId = some r.id then ordinaryStayCashLineTotalMinor r.cashLines r.currency currentTimeline
    else pricingCashLineTotalMinor r.cashLines r.currency
  r.coverageSet = [] && r.policyVersionId = order.pricingPolicyVersionId &&
    (r.pricingBasis = .policy || r.pricingBasis = .manualAdjustment) &&
    isSafeInteger r.policyBaseAmountMinor && 0 ≤ r.policyBaseAmountMinor && isSafeInteger r.manualAdjustmentMinor &&
    isSafeInteger r.currentContractAmountMinor && 0 ≤ r.currentContractAmountMinor &&
    r.currentContractAmountMinor = r.policyBaseAmountMinor + r.manualAdjustmentMinor &&
    (if r.pricingBasis = .policy then r.manualAdjustmentMinor = 0 else r.manualAdjustmentMinor ≠ 0) &&
    cashLineTotal = some r.policyBaseAmountMinor

/-! ## Replaying the facts -/

structure MoneyScan where
  activeRefundMinorByCollection : Nat → Option Int
  reversedFactIds : List Nat
  processedFactIds : List Nat

namespace MoneyScan

def start : MoneyScan := ⟨fun _ => none, [], []⟩

variable (s : MoneyScan)

def setActive (factId : Nat) (minor : Int) : Nat → Option Int :=
  Function.update s.activeRefundMinorByCollection factId (some minor)

def collection (fact : LodgingFact) : Except Thrown MoneyScan := do
  require (fact.netEffectMinor = fact.amountMinor ∧ fact.referencesFactId = none ∧ fact.reversesFactId = none ∧
    s.activeRefundMinorByCollection fact.factId = none) fundsChainDamaged
  return { s with
    activeRefundMinorByCollection := s.setActive fact.factId 0
    processedFactIds := fact.factId :: s.processedFactIds }

/-- The rows are looked up among all facts of the order, also those that are still to come. -/
def factById (facts : List LodgingFact) (id : Option Nat) : Option LodgingFact :=
  id.bind fun id => facts.find? fun f => f.factId = id

def refund (facts : List LodgingFact) (fact : LodgingFact) : Except Thrown MoneyScan := do
  let source ← expect fundsChainDamaged (factById facts fact.referencesFactId)
  let active ← expect fundsChainDamaged (s.activeRefundMinorByCollection source.factId)
  require (fact.netEffectMinor = -fact.amountMinor ∧ fact.reversesFactId = none ∧ source.factType = .collection ∧
    source.factId ∈ s.processedFactIds ∧ source.factId ∉ s.reversedFactIds ∧
    isSafeInteger (active + fact.amountMinor) = true ∧ active + fact.amountMinor ≤ source.amountMinor)
    fundsChainDamaged
  return { s with
    activeRefundMinorByCollection := s.setActive source.factId (active + fact.amountMinor)
    processedFactIds := fact.factId :: s.processedFactIds }

/-- A reversed refund is given back to its collection; any other fact must have no refund in force. -/
def giveBack (facts : List LodgingFact) (source : LodgingFact) : Except Thrown (Nat → Option Int) :=
  if source.factType = .refund then do
    let refunded ← expect fundsChainDamaged (factById facts source.referencesFactId)
    let active ← expect fundsChainDamaged (s.activeRefundMinorByCollection refunded.factId)
    require (refunded.factType = .collection ∧ isSafeInteger (active - source.amountMinor) = true ∧
      0 ≤ active - source.amountMinor) fundsChainDamaged
    return s.setActive refunded.factId (active - source.amountMinor)
  else do
    require (s.activeRefundMinorByCollection source.factId = some 0) fundsChainDamaged
    return s.activeRefundMinorByCollection

/-- What is neither a collection nor a refund is taken for a reversal. -/
def reversal (facts : List LodgingFact) (fact : LodgingFact) : Except Thrown MoneyScan := do
  let source ← expect fundsChainDamaged (factById facts fact.reversesFactId)
  require (fact.referencesFactId = none ∧ source.factType ≠ .reversal ∧ fact.amountMinor = source.amountMinor ∧
    fact.netEffectMinor = -source.netEffectMinor ∧ source.factId ∉ s.reversedFactIds ∧
    source.factId ∈ s.processedFactIds) fundsChainDamaged
  let active ← s.giveBack facts source
  return ⟨active, source.factId :: s.reversedFactIds, fact.factId :: s.processedFactIds⟩

/-- The refunds in force fit into a collection, and a reversed one has none. -/
def closes (collection : LodgingFact) : Bool :=
  (s.activeRefundMinorByCollection collection.factId).any fun total =>
    isSafeInteger total && total ≤ collection.amountMinor &&
      (collection.factId ∉ s.reversedFactIds || total = 0)

end MoneyScan

def scanFact (facts : List LodgingFact) (revisionIds : List Nat) (currency : CurrencyCode) (s : MoneyScan)
    (fact : LodgingFact) : Except Thrown MoneyScan := do
  require (fact.currency = currency ∧ isSafeInteger fact.amountMinor = true ∧ 0 < fact.amountMinor ∧
    isSafeInteger fact.netEffectMinor = true ∧ fact.pricingRevisionId.any (fun id => id ∈ revisionIds) = true)
    fundsChainDamaged
  match fact.factType with
  | .collection => s.collection fact
  | .refund => s.refund facts fact
  | _ => s.reversal facts fact

def netRecordedCollectionMinor (facts : List LodgingFact) : Int := (facts.map fun f => f.netEffectMinor).sum

def ordinaryStayMoneyAttention (order : LodgingOrder) (revisions : List LodgingRevision) (facts : List LodgingFact)
    (currentTimeline : List StayTimelineItem) : Except Thrown (Option MoneyAttention) := do
  let revision ← expect pricingChainDamaged (revisions.find? fun r => order.currentRevisionId = some r.id)
  require (revisions.all (revisionConsistent order currentTimeline) = true) pricingChainDamaged
  let scan ← facts.foldlM (scanFact facts (revisions.map LodgingRevision.id) revision.currency) MoneyScan.start
  require ((facts.filter fun f => f.factType = .collection).all scan.closes = true) fundsChainDamaged
  require (isSafeInteger (netRecordedCollectionMinor facts) = true ∧ 0 ≤ netRecordedCollectionMinor facts)
    fundsChainDamaged
  return if netRecordedCollectionMinor facts < revision.currentContractAmountMinor then some .arrears else none

/-! ## Writing the facts -/

structure RecordedUnder where
  currency : CurrencyCode
  revisionId : Nat

/-- The funds of a property with the revisions of its orders, oldest first. -/
structure LodgingLedger where
  funds : FundsTables
  revisions : Nat → List LodgingRevision
  recorded : Nat → RecordedUnder

namespace LodgingLedger

variable (s : LodgingLedger)

def currentRevision (orderId : Nat) : Option LodgingRevision := (s.revisions orderId).getLast?

/-- A collection is in the currency of its order, any other fact in that of the fact it is about. -/
def currencyOf (f : CollectionFact) : Option CurrencyCode :=
  match f.factType with
  | .collection => (s.currentRevision f.orderId).map LodgingRevision.currency
  | .reversal => f.reversesFactId.map fun id => (s.recorded id).currency
  | _ => f.referencesFactId.map fun id => (s.recorded id).currency

def record (f : CollectionFact) : Except Thrown LodgingLedger := do
  let revision ← expect .failure (s.currentRevision f.orderId)
  let currency ← expect .failure (s.currencyOf f)
  require (f.amountMinor ≤ postgresIntegerMaximum) .failure
  return { s with recorded := Function.update s.recorded f.factId ⟨currency, revision.id⟩ }

/-- A command appends at most two facts. -/
def run (desk : PaymentDesk) (stamp : FundsStamp) (command : FundsCommand) : Except Thrown LodgingLedger := do
  let funds ← s.funds.run desk stamp command
  let written := funds.facts.take (funds.facts.length - s.funds.facts.length)
  let recorded ← written.reverse.foldlM record s
  return { recorded with funds }

def changeOrder (orderId : Nat) (row : FundsOrder) (revision : Option LodgingRevision) : LodgingLedger :=
  { s with
    funds := { s.funds with orders := Function.update s.funds.orders orderId (some row) }
    revisions := Function.update s.revisions orderId (s.revisions orderId ++ revision.toList) }

def lodgingFact (f : CollectionFact) : LodgingFact :=
  { f with
    currency := (s.recorded f.factId).currency
    pricingRevisionId := some (s.recorded f.factId).revisionId }

def orderFacts (orderId : Nat) : List LodgingFact :=
  ((s.funds.facts.filter fun f => f.orderId = orderId).map s.lodgingFact).reverse

end LodgingLedger

inductive LodgingEvent where
  | command (desk : PaymentDesk) (stamp : FundsStamp) (command : FundsCommand)
  | orderChanged (orderId : Nat) (row : FundsOrder) (revision : Option LodgingRevision)

def LodgingLedger.apply (s : LodgingLedger) : LodgingEvent → Except Thrown LodgingLedger
  | .command desk stamp command => s.run desk stamp command
  | .orderChanged orderId row revision => .ok (s.changeOrder orderId row revision)

def lodgingSystem : System LodgingLedger LodgingEvent where
  init s := s.funds.facts = [] ∧ s.funds.retainedFunds = [] ∧ s.funds.entries = []
  step s e t := s.apply e = .ok t

end GreenPms
