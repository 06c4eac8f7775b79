import GreenPms.Foundation.Text
import GreenPms.Order.Amendments
import GreenPms.Pricing.CashLines

/-! # Pricing decisions

How a policy price becomes the contract amount of an order: free and member stays keep it, a direct
booking may depart from it for a reason, and an external channel names its own amount.
-/

namespace GreenPms

open Checked

inductive BookingChannelCode where
  | youmudao | ctrip | meituan | wecom
  deriving DecidableEq, Repr

inductive PricingBasis where
  | policy | channelContract | manualAdjustment | memberEntitlement | free
  deriving DecidableEq, Repr

structure PricingReason where
  code : String
  note : String
  deriving DecidableEq, Repr

structure PricingDecision where
  pricingBasis : PricingBasis
  policyBaseAmountMinor : Int
  currentContractAmountMinor : Int
  differenceFromPolicyMinor : Int
  manualAdjustmentMinor : Int
  differenceExceedsThreshold : Bool
  reason : PricingReason
  deriving DecidableEq, Repr

structure PricingRequest where
  targetCurrentContractAmountMinor : Option Int
  channelPriceDifferenceReason : Option String
  manualPriceAdjustmentReason : Option String
  deriving DecidableEq, Repr

structure OrderIdentity where
  stayType : StayType
  bookingChannelCode : Option BookingChannelCode
  memberId : Option Nat
  memberContractId : Option Nat
  deriving DecidableEq, Repr

def OrderIdentity.memberStay (identity : OrderIdentity) : Bool :=
  identity.memberId.isSome || identity.memberContractId.isSome

def postgresWholeYuanMaximumMinor : Int := 2147483600

def nonNegativePostgresAmount (value : Int) (field : String) : Except DomainError Int := do
  require (0 ≤ value ∧ value ≤ postgresIntegerMaximum)
    (invalidInput (field ++ " must be a non-negative PostgreSQL integer amount"))
  return value

def nonNegativeWholeYuanPostgresAmount (value : Int) (field : String) : Except DomainError Int := do
  let amount ← nonNegativePostgresAmount value field
  require (amount ≤ postgresWholeYuanMaximumMinor ∧ amount % 100 = 0)
    (invalidInput (field ++ " must be a non-negative whole-yuan PostgreSQL integer amount"))
  return amount

def unpaidDirectStay : DomainError := invalidInput "普通非会员 WECOM 订单金额必须大于0；合付款请按真实金额分配"

/-- The amount of an ordinary stay is exact to the cent; the amount of a member, who has no channel,
is in whole yuan. -/
def validateOrderTargetAmount (channel : Option BookingChannelCode) (value : Int) : Except DomainError Int :=
  match channel with
  | none => nonNegativeWholeYuanPostgresAmount value "targetCurrentContractAmountMinor"
  | some code => do
      let amount ← nonNegativePostgresAmount value "targetCurrentContractAmountMinor"
      require (amount ≤ postgresWholeYuanMaximumMinor)
        (invalidInput "targetCurrentContractAmountMinor exceeds supported amount range")
      require (code = .wecom → amount ≠ 0) unpaidDirectStay
      return amount

def channelPriceDifferenceExceedsThreshold (policyBaseAmountMinor targetAmountMinor : Int) :
    Except DomainError Bool := do
  let policyBase ← nonNegativePostgresAmount policyBaseAmountMinor "policyBaseAmountMinor"
  let target ← nonNegativePostgresAmount targetAmountMinor "targetCurrentContractAmountMinor"
  return policyBase * 15 < (target - policyBase).natAbs * 100

def optionalPricingReason (value : Option String) (field : String) : Except DomainError String := do
  let normalized := trimText (value.getD "")
  require (unitCount normalized ≤ 1000) (invalidInput (field ++ " must not exceed 1000 characters"))
  return normalized

def wecomDecision (base contract : Int) (exceeds : Bool) (channelReason manualReason : String) :
    Except DomainError PricingDecision := do
  let difference := contract - base
  require (contract ≠ 0) unpaidDirectStay
  require (channelReason = "") (invalidInput "channelPriceDifferenceReason is not allowed for WECOM orders")
  require (difference ≠ 0 → manualReason ≠ "")
    (invalidInput "manualPriceAdjustmentReason is required when a WECOM order differs from policy price")
  require (difference = 0 → manualReason = "")
    (invalidInput "manualPriceAdjustmentReason is only allowed when a WECOM order differs from policy price")
  return {
    pricingBasis := if difference = 0 then .policy else .manualAdjustment
    policyBaseAmountMinor := base
    currentContractAmountMinor := contract
    differenceFromPolicyMinor := difference
    manualAdjustmentMinor := difference
    differenceExceedsThreshold := exceeds
    reason := ⟨if difference = 0 then "CREATE_ORDER_POLICY_PRICE" else "CREATE_ORDER_MANUAL_PRICE", manualReason⟩ }

def channelDecision (base contract : Int) (exceeds : Bool) (channelReason manualReason : String) :
    Except DomainError PricingDecision := do
  require (manualReason = "")
    (invalidInput "manualPriceAdjustmentReason is not allowed for external channel contract prices")
  require (exceeds = true → channelReason ≠ "")
    (invalidInput "channelPriceDifferenceReason is required when the channel price difference exceeds 15%")
  return {
    pricingBasis := .channelContract
    policyBaseAmountMinor := base
    currentContractAmountMinor := contract
    differenceFromPolicyMinor := contract - base
    manualAdjustmentMinor := 0
    differenceExceedsThreshold := exceeds
    reason := ⟨"CREATE_ORDER_CHANNEL_CONTRACT", channelReason⟩ }

def policyDecision (base : Int) (free : Bool) : PricingDecision where
  pricingBasis := if free then .free else .memberEntitlement
  policyBaseAmountMinor := base
  currentContractAmountMinor := base
  differenceFromPolicyMinor := 0
  manualAdjustmentMinor := 0
  differenceExceedsThreshold := false
  reason := ⟨if free then "CREATE_ORDER_FREE" else "CREATE_ORDER_MEMBER", ""⟩

def paidDecision (channel : BookingChannelCode) (base : Int) (request : PricingRequest)
    (channelReason manualReason : String) : Except DomainError PricingDecision := do
  require (channel ≠ .wecom → request.targetCurrentContractAmountMinor ≠ none)
    (invalidInput "targetCurrentContractAmountMinor is required for paid orders")
  let contract ← match request.targetCurrentContractAmountMinor with
    | none => .ok base
    | some target => validateOrderTargetAmount (some channel) target
  let exceeds ← channelPriceDifferenceExceedsThreshold base contract
  if channel = .wecom then wecomDecision base contract exceeds channelReason manualReason
  else channelDecision base contract exceeds channelReason manualReason

def createOrderPricingDecision (identity : OrderIdentity) (policyBase : Int) (request : PricingRequest) :
    Except DomainError PricingDecision := do
  let base ← nonNegativePostgresAmount policyBase "policyBaseAmountMinor"
  let channelReason ← optionalPricingReason request.channelPriceDifferenceReason "channelPriceDifferenceReason"
  let manualReason ← optionalPricingReason request.manualPriceAdjustmentReason "manualPriceAdjustmentReason"
  if identity.stayType = .free ∨ identity.memberStay = true then do
    require (request.targetCurrentContractAmountMinor = none)
      (invalidInput "targetCurrentContractAmountMinor must not be submitted for FREE or member stays")
    require (channelReason = "" ∧ manualReason = "")
      (invalidInput "pricing reasons must not be submitted for FREE or member stays")
    return policyDecision base (identity.stayType = .free)
  else do
    let channel ← expect (invalidInput "bookingChannelCode is required for paid orders") identity.bookingChannelCode
    paidDecision channel base request channelReason manualReason

def decisionSuffix : PricingBasis → String
  | .channelContract => "CHANNEL_CONTRACT"
  | .manualAdjustment => "MANUAL_PRICE"
  | .memberEntitlement => "MEMBER"
  | .policy => "POLICY"
  | .free => "FREE"

def stayChangePricingDecision (command : CommandType) (identity : OrderIdentity) (policyBase : Int)
    (request : PricingRequest) : Except DomainError PricingDecision := do
  let decision ← createOrderPricingDecision identity policyBase request
  return { decision with
    reason := { decision.reason with code := command.text ++ "_" ++ decisionSuffix decision.pricingBasis } }

def externalChannelCodes : List BookingChannelCode := [.youmudao, .ctrip, .meituan]

def canRepriceOrder (status : OrderStatus) (channel : Option BookingChannelCode) : Bool :=
  status = .reserved || status = .checkedIn ||
    (status = .checkedOut && channel.any externalChannelCodes.contains)

/-! ## The revision that a decision is stored as -/

structure PricingSnapshot where
  coverageSet : List CoveredNight
  cashLines : List CashLine
  policyBaseAmountMinor : Int
  pricingBasis : PricingBasis
  currentContractAmountMinor : Int
  manualAdjustmentMinor : Int
  currency : CurrencyCode
  reason : Option PricingReason
  deriving DecidableEq, Repr

def categoricalBasis (identity : OrderIdentity) : Option PricingBasis :=
  if identity.stayType = .free then some .free
  else if identity.memberStay = true then some .memberEntitlement
  else if identity.bookingChannelCode.any externalChannelCodes.contains = true then some .channelContract
  else none

/-- A price without a decision is classified by its order and its amounts. -/
def pricingSnapshot (identity : OrderIdentity) (pricing : PricingResult) (decision : Option PricingDecision) :
    PricingSnapshot :=
  let contract := pricing.currentContractAmount.minorUnits
  let cashRemainder := pricing.cashRemainder.minorUnits
  let basis := match decision with
    | some decision => decision.pricingBasis
    | none => (categoricalBasis identity).getD (if contract = cashRemainder then .policy else .manualAdjustment)
  { coverageSet := pricing.coverageSet
    cashLines := pricing.cashLines
    policyBaseAmountMinor := (decision.map PricingDecision.policyBaseAmountMinor).getD cashRemainder
    pricingBasis := basis
    currentContractAmountMinor := contract
    manualAdjustmentMinor :=
      if basis = .channelContract then 0
      else (decision.map PricingDecision.manualAdjustmentMinor).getD (contract - cashRemainder)
    currency := pricing.currentContractAmount.currency
    reason := decision.map PricingDecision.reason }

end GreenPms
