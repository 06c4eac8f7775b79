import GreenPms.Payments.Allocations

/-! # Reading bills from the payment service

A bill that is read is written under its merchant, kind and reference, and then linked to the one
payment that was booked over it. The link is made by reference and amount, whatever has become of
the payment since.
-/

namespace GreenPms

open Checked

structure WecomBill where
  sourceId : Nat
  merchantId : Nat
  kind : PaymentKind
  reference : String
  originalTradeNo : String
  transactionId : Option String
  amountMinor : Option Int
  occurredAt : Nat
  state : BillState
  deriving DecidableEq

def WecomBill.referenceKey (b : WecomBill) : Nat × Nat × PaymentKind × String :=
  (b.sourceId, b.merchantId, b.kind, b.reference)

inductive MatchOrigin where
  | confirmed | historicalLink
  deriving DecidableEq, Repr

inductive MatchTarget where
  | lodging (factId : Nat)
  | membership (factId : Nat)
  deriving DecidableEq, Repr

structure ExternalPaymentMatch where
  billId : Nat
  target : MatchTarget
  origin : MatchOrigin
  deriving DecidableEq, Repr

/-- A direct collection for a membership; `reversed` says that it is no longer in force. -/
structure MembershipPayment where
  factId : Nat
  reference : Option String
  amountMinor : Int
  reversed : Bool
  deriving DecidableEq, Repr

structure PaymentSettings where
  enabled : Nat → Bool
  matchingSince : Nat → Nat
  allocationEnabled : Bool
  reconcilable : Nat → Bool
  transferred : Nat → Bool

structure PaymentTables where
  bills : List ExternalPaymentBill
  bill_keys : (bills.map ExternalPaymentBill.id).Nodup
  reference_keys : (bills.map ExternalPaymentBill.referenceKey).Nodup
  ledger : AllocationTables
  billMatches : List ExternalPaymentMatch
  memberPayments : List MembershipPayment

namespace PaymentTables

variable (s : PaymentTables)

def bill? (id : Nat) : Option ExternalPaymentBill := s.bills.find? fun b => b.id = id

def matched (billId : Nat) : Bool := s.billMatches.any fun m => m.billId = billId

def targetMatched (target : MatchTarget) : Bool := s.billMatches.any fun m => m.target = target

def memberMatched (billId : Nat) : Bool :=
  s.billMatches.any fun m => m.billId = billId && m.target matches .membership _

def directory (settings : PaymentSettings) : PaymentDirectory where
  bills := s.bills
  bill_keys := s.bill_keys
  reference_keys := s.reference_keys
  enabled := settings.enabled
  matchingSince := settings.matchingSince
  allocationEnabled := settings.allocationEnabled
  memberClaimed := s.memberMatched
  memberReference reference := s.memberPayments.any fun p => p.reference = some reference && !p.reversed
  reconcilable := settings.reconcilable
  transferred := settings.transferred

/-! ## Writing a bill -/

structure BillColumns where
  transactionId : Option String
  amountMinor : Option Int
  occurredAt : Nat
  state : BillState
  needsReview : Bool

end PaymentTables

def ExternalPaymentBill.withColumns (b : ExternalPaymentBill) (c : PaymentTables.BillColumns) : ExternalPaymentBill :=
  { b with
    transactionId := c.transactionId
    amountMinor := c.amountMinor
    occurredAt := c.occurredAt
    state := c.state
    needsReview := c.needsReview }

/-- `ON CONFLICT DO UPDATE`: a changed amount or trade number needs review. -/
def WecomBill.columns (bill : WecomBill) (old : ExternalPaymentBill) : PaymentTables.BillColumns where
  transactionId := bill.transactionId
  amountMinor := bill.amountMinor
  occurredAt := bill.occurredAt
  state := bill.state
  needsReview := old.needsReview || (old.amountMinor.isSome && old.amountMinor ≠ bill.amountMinor) ||
    old.originalTradeNo ≠ bill.originalTradeNo

def WecomBill.row (bill : WecomBill) (id : Nat) : ExternalPaymentBill where
  id := id
  sourceId := bill.sourceId
  merchantId := bill.merchantId
  kind := bill.kind
  reference := bill.reference
  transactionId := bill.transactionId
  originalTradeNo := bill.originalTradeNo
  amountMinor := bill.amountMinor
  occurredAt := bill.occurredAt
  state := bill.state
  needsReview := false

namespace PaymentTables

variable (s : PaymentTables)

def updated (id : Nat) (c : ExternalPaymentBill → BillColumns) (b : ExternalPaymentBill) : ExternalPaymentBill :=
  if b.id = id then b.withColumns (c b) else b

theorem map_updated {κ : Type} {key : ExternalPaymentBill → κ} (hKey : ∀ b c, key (b.withColumns c) = key b)
    (id : Nat) (c : ExternalPaymentBill → BillColumns) (bills : List ExternalPaymentBill) :
    (bills.map (updated id c)).map key = bills.map key := by
  rw [List.map_map]
  refine List.map_congr_left fun b _ => ?_
  rw [Function.comp_apply, updated]
  split
  · exact hKey b (c b)
  · rfl

def updateBill (id : Nat) (c : ExternalPaymentBill → BillColumns) : PaymentTables :=
  { s with
    bills := s.bills.map (updated id c)
    bill_keys := by
      rw [map_updated fun _ _ => rfl]
      exact s.bill_keys
    reference_keys := by
      rw [map_updated fun _ _ => rfl]
      exact s.reference_keys }

def insertBill (b : ExternalPaymentBill) : Except Thrown PaymentTables :=
  if h : ∀ x ∈ s.bills, x.id ≠ b.id ∧ x.referenceKey ≠ b.referenceKey then
    .ok { s with
      bills := b :: s.bills
      bill_keys := by
        refine List.nodup_cons.mpr ⟨fun hMem => ?_, s.bill_keys⟩
        obtain ⟨x, hx, hId⟩ := List.mem_map.mp hMem
        exact (h x hx).1 hId
      reference_keys := by
        refine List.nodup_cons.mpr ⟨fun hMem => ?_, s.reference_keys⟩
        obtain ⟨x, hx, hKey⟩ := List.mem_map.mp hMem
        exact (h x hx).2 hKey }
  else .error .failure

def reviewed (b : ExternalPaymentBill) : BillColumns :=
  ⟨b.transactionId, b.amountMinor, b.occurredAt, b.state, true⟩

def markReview (id : Nat) : PaymentTables := s.updateBill id reviewed

/-! ## Matching a bill with a booked payment -/

def factTypeOf : PaymentKind → CollectionFactType
  | .collection => .collection
  | .refund => .refund

def originalReference (f : CollectionFact) : Option String := f.referencesFactId.bind s.ledger.factReference

/-- A booked payment in the kind and amount of the bill, and with its references. -/
def names (bill : ExternalPaymentBill) (amount : Int) (f : CollectionFact) : Bool :=
  f.method = .wecom && f.factType = factTypeOf bill.kind && f.amountMinor = amount &&
    match bill.kind with
    | .collection => s.ledger.factReference f.factId = some bill.reference
    | .refund => bill.transactionId.isSome && s.originalReference f = bill.transactionId &&
        (s.ledger.factReference f.factId = some bill.reference || s.ledger.factReference f.factId = none)

def memberNames (bill : ExternalPaymentBill) (amount : Int) (p : MembershipPayment) : Bool :=
  bill.kind = .collection && p.reference = some bill.reference && p.amountMinor = amount

/-- Reversed payments are candidates as well, and payments of another bill. -/
def candidates (bill : ExternalPaymentBill) (amount : Int) : List MatchTarget :=
  (s.ledger.funds.facts.filter (s.names bill amount)).map (.lodging ·.factId) ++
    (s.memberPayments.filter (memberNames bill amount)).map (.membership ·.factId)

def unnumbered (bill : ExternalPaymentBill) (amount : Int) (f : CollectionFact) : Bool :=
  f.factType = .refund && f.method = .wecom && f.amountMinor = amount && s.ledger.factReference f.factId = none &&
    bill.transactionId.isSome && s.originalReference f = bill.transactionId

/-- A refund of the same payment and amount was booked without its number. -/
def unreferencedRefund (bill : ExternalPaymentBill) (amount : Int) : Bool :=
  bill.kind = .refund && s.ledger.funds.facts.any (s.unnumbered bill amount)

/-- `qintopia_validate_external_payment_match` -/
def validateMatch (m : ExternalPaymentMatch) : Except Thrown Unit := do
  let bill ← expect .failure (s.bill? m.billId)
  let amount ← expect .failure bill.amountMinor
  require (bill.state = .success ∧ bill.needsReview = false) .failure
  match m.target with
  | .lodging factId => do
      let fact ← expect .failure (findFact s.ledger.funds.facts factId)
      require (s.names bill amount fact = true) .failure
      require (bill.kind = .refund → m.origin = .confirmed → s.ledger.factReference factId ≠ none) .failure
  | .membership factId =>
      require (s.memberPayments.any (fun p => p.factId = factId && memberNames bill amount p) = true) .failure

/-- The allocation of a fact names its bill where the fact does not. -/
def attributed (factId billId : Nat) (f : CollectionFact) : CollectionFact :=
  if f.factId = factId ∧ f.billId = none then { f with billId := some billId } else f

/-- `qintopia_mirror_external_payment_allocation`: a fact without an allocation gets one. -/
def mirrorAllocation (legacyId : Nat) (m : ExternalPaymentMatch) : Except Thrown PaymentTables :=
  match m.target with
  | .membership _ => .ok s
  | .lodging factId =>
      if s.ledger.allocations.any fun a => a.collectionFactId = factId then .ok s
      else do
        let fact ← expect .failure (findFact s.ledger.funds.facts factId)
        let bound ← s.ledger.bindAllocation ⟨legacyId, m.billId, factId, fact.amountMinor⟩
        let funds := { bound.funds with facts := bound.funds.facts.map (attributed factId m.billId) }
        return { s with ledger := { bound with funds } }

/-- The part of `qintopia_assert_allocation_graph` that is about bills. -/
def allocationGraph : Prop := ∀ b ∈ s.bills,
  (b.amountMinor.all fun amount => s.ledger.allocatedMinor b.id ≤ amount) = true ∧
    ((s.ledger.allocations.any fun a => a.billId = b.id) && s.memberMatched b.id) = false

instance : Decidable s.allocationGraph := inferInstanceAs (Decidable (∀ b ∈ s.bills, _ ∧ _))

def insertMatch (legacyId : Nat) (m : ExternalPaymentMatch) : Except Thrown PaymentTables := do
  s.validateMatch m
  require (∀ x ∈ s.billMatches, x.billId ≠ m.billId ∧ x.target ≠ m.target) .failure
  let mirrored ← { s with billMatches := m :: s.billMatches }.mirrorAllocation legacyId m
  require mirrored.allocationGraph .failure
  return mirrored

def verifiedAmount (bill : ExternalPaymentBill) : Option Int :=
  if bill.state = .success then bill.amountMinor else none

/-- `qintopia_link_historical_external_payment`, with the number that it returns. -/
def linkHistoricalExternalPayment (legacyId billKey : Nat) : Except Thrown (Nat × PaymentTables) := do
  let bill ← expect .failure (s.bill? billKey)
  if s.matched billKey then return (1, s)
  else match verifiedAmount bill with
    | none => return (0, s)
    | some amount =>
        if s.unreferencedRefund bill amount then return (2, s.markReview billKey)
        else match s.candidates bill amount with
          | [] => return (0, s)
          | [target] =>
              if s.targetMatched target then return (2, s.markReview billKey)
              else return (1, ← s.insertMatch legacyId ⟨billKey, target, .historicalLink⟩)
          | targets => return (targets.length, s.markReview billKey)

def stored? (bill : WecomBill) : Option ExternalPaymentBill :=
  s.bills.find? fun b => b.referenceKey = bill.referenceKey

/-- A standalone refund placeholder does not overwrite what is known. -/
def upsertBill (bill : WecomBill) (newId : Nat) : Except Thrown (Nat × PaymentTables) :=
  match s.stored? bill with
  | none => do return (newId, ← s.insertBill (bill.row newId))
  | some old => .ok (old.id, if bill.amountMinor.isSome then s.updateBill old.id bill.columns else s)

/-- The new identities of a reading: of the bill, and of an allocation that mirrors its match. -/
structure BillStamp where
  billId : Nat
  legacyId : Nat

/-- `persistBill`, with the bill that is to be announced. -/
def persistBill (stamp : BillStamp) (bill : WecomBill) (announce : Bool) :
    Except Thrown (Option Nat × PaymentTables) := do
  let (id, written) ← s.upsertBill bill stamp.billId
  let (_, linked) ← written.linkHistoricalExternalPayment stamp.legacyId id
  let discovered := announce && (s.stored? bill).all (fun old => old.state ≠ .success) && bill.state = .success
  return (if discovered then some id else none, linked)

/-! ## Payments over bills -/

def withLedger (ledger : AllocationTables) : PaymentTables := { s with ledger }

/-- `RECORD_COLLECTION` with a bill. -/
def recordCollection (settings : PaymentSettings) (factId allocationId : Nat) (effect : PaymentEffect) :
    Except Thrown PaymentTables := do
  let ledger ← s.ledger.recordCollection (s.directory settings) factId allocationId effect
  return s.withLedger ledger

/-- `RECORD_REFUND` with a bill. -/
def recordRefund (settings : PaymentSettings) (factId allocationId : Nat) (effect : PaymentEffect)
    (referencesFactId : Nat) : Except Thrown PaymentTables := do
  let ledger ← s.ledger.recordRefund (s.directory settings) factId allocationId effect referencesFactId
  return s.withLedger ledger

/-- `REVERSE_FACT` with the release of the allocation. -/
def reverseReleasing (settings : PaymentSettings) (factId orderId reversesFactId : Nat) :
    Except Thrown PaymentTables := do
  let ledger ← s.ledger.reverseReleasing (s.directory settings) factId orderId reversesFactId
  return s.withLedger ledger

/-- `externalPaymentBasis` of a payment without a bill: the one bill in its name, over its whole amount. -/
def wholeBill (settings : PaymentSettings) (kind : PaymentKind) (reference : String) (amountMinor : Int) :
    Except Thrown ExternalPaymentBill :=
  match s.bills.filter fun b => settings.enabled b.sourceId && b.kind = kind && b.reference = reference with
  | [] => .error (fundsInvalid "请选择已同步的企业微信收退款流水")
  | [bill] => do
      require (s.matched bill.id = false ∧ (s.ledger.allocations.any fun a => a.billId = bill.id) = false)
        (fundsConflict "这笔收退款已匹配，请选择其他流水")
      require (bill.state = .success ∧ bill.needsReview = false ∧ bill.amountMinor = some amountMinor)
        (fundsInvalid "流水金额或状态不符合本次登记，请重新核对")
      require (settings.matchingSince bill.sourceId ≤ bill.occurredAt) (fundsInvalid "这笔流水属于历史不纳入范围")
      return bill
  | _ => .error (fundsInvalid "同号流水不唯一，请先核对商户")

/-- `bindExternalPayments` of a payment that takes a whole bill. -/
def bindWhole (factId legacyId billId : Nat) (reference : String) (funds : FundsTables) : Except Thrown PaymentTables :=
  (s.withLedger (s.ledger.withFields funds factId ⟨some reference, none⟩)).insertMatch legacyId
    ⟨billId, .lodging factId, .confirmed⟩

/-- `RECORD_COLLECTION` without a bill, while the property has a source. -/
def recordWholeCollection (settings : PaymentSettings) (factId legacyId orderId : Nat) (amountMinor : Int)
    (reference : String) : Except Thrown PaymentTables := do
  let funds ← s.ledger.funds.recordCollection (s.ledger.desk (s.directory settings))
    (AllocationTables.fundsStamp factId) orderId amountMinor .wecom none
  let bill ← s.wholeBill settings .collection reference amountMinor
  s.bindWhole factId legacyId bill.id reference funds

/-- `RECORD_REFUND` without a bill, while the property has a source. -/
def recordWholeRefund (settings : PaymentSettings) (factId legacyId orderId : Nat) (amountMinor : Int)
    (reference : String) (referencesFactId : Nat) : Except Thrown PaymentTables := do
  let funds ← s.ledger.funds.recordRefund (s.ledger.desk (s.directory settings))
    (AllocationTables.fundsStamp factId) orderId amountMinor referencesFactId .wecom reference none
  let bill ← s.wholeBill settings .refund reference amountMinor
  require (bill.transactionId.isSome ∧ s.ledger.factReference referencesFactId = bill.transactionId)
    (fundsInvalid "退款流水与所选订单原收款不对应")
  s.bindWhole factId legacyId bill.id reference funds

end PaymentTables

open TransitionSystem

inductive PaymentStep where
  | read (stamp : PaymentTables.BillStamp) (bill : WecomBill) (announce : Bool)
  | collect (factId allocationId : Nat) (effect : PaymentEffect)
  | refund (factId allocationId : Nat) (effect : PaymentEffect) (referencesFactId : Nat)
  | collectWhole (factId legacyId orderId : Nat) (amountMinor : Int) (reference : String)
  | refundWhole (factId legacyId orderId : Nat) (amountMinor : Int) (reference : String) (referencesFactId : Nat)
  | reverse (factId orderId reversesFactId : Nat)

def PaymentTables.apply (settings : PaymentSettings) (s : PaymentTables) : PaymentStep → Except Thrown PaymentTables
  | .read stamp bill announce => Prod.snd <$> s.persistBill stamp bill announce
  | .collect factId allocationId effect => s.recordCollection settings factId allocationId effect
  | .refund factId allocationId effect referencesFactId =>
      s.recordRefund settings factId allocationId effect referencesFactId
  | .collectWhole factId legacyId orderId amountMinor reference =>
      s.recordWholeCollection settings factId legacyId orderId amountMinor reference
  | .refundWhole factId legacyId orderId amountMinor reference referencesFactId =>
      s.recordWholeRefund settings factId legacyId orderId amountMinor reference referencesFactId
  | .reverse factId orderId reversesFactId => s.reverseReleasing settings factId orderId reversesFactId

/-- Before the first bill is read, payments may have been booked by hand. -/
structure PaymentTables.Unread (s : PaymentTables) : Prop where
  bills : s.bills = []
  billMatches : s.billMatches = []
  allocations : s.ledger.allocations = []
  referenced : ∀ f ∈ s.ledger.funds.facts, ∀ r, f.referencesFactId = some r →
    ∃ g ∈ s.ledger.funds.facts, g.factId = r

def paymentSystem (settings : PaymentSettings) : System PaymentTables PaymentStep where
  init := PaymentTables.Unread
  step s e t := s.apply settings e = .ok t

end GreenPms
