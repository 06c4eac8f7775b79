import GreenPms.Inventory.Agreement
import GreenPms.Stay.Coverage

/-! # The chain of pricing revisions

Whichever command writes it, the revision of a guest adds up to its contract amount and carries the
lines of its base, that of a channel is the amount of the channel, and that of a member or of a free
stay is the price of the policy unless a member has been repriced.
-/

namespace GreenPms

open Checked TransitionSystem EntitlementTables

def OrderIdentity.external (identity : OrderIdentity) : Bool :=
  identity.bookingChannelCode.any externalChannelCodes.contains

def OrderIdentity.rights (identity : OrderIdentity) : Bool := identity.stayType = .free || identity.memberStay

def OrderIdentity.direct (identity : OrderIdentity) : Bool :=
  identity.bookingChannelCode = some .wecom && !identity.rights

structure DirectPricing (timeline : List StayTimelineItem) (pricing : PricingSnapshot) : Prop where
  uncovered : pricing.coverageSet = []
  contract : pricing.currentContractAmountMinor = pricing.policyBaseAmountMinor + pricing.manualAdjustmentMinor
  basis : pricing.pricingBasis = if pricing.manualAdjustmentMinor = 0 then .policy else .manualAdjustment
  lines : ordinaryStayCashLineTotalMinor pricing.cashLines pricing.currency timeline = some pricing.policyBaseAmountMinor

/-- A revision as its order asks for; the amount of a member may have been set by hand. -/
structure ConsistentPricing (repriced : Bool) (identity : OrderIdentity) (timeline : List StayTimelineItem)
    (pricing : PricingSnapshot) : Prop where
  direct : identity.direct = true → DirectPricing timeline pricing
  channel : identity.external = true → pricing.pricingBasis = .channelContract ∧ pricing.manualAdjustmentMinor = 0
  rights : identity.rights = true →
    pricing.currentContractAmountMinor = pricing.policyBaseAmountMinor + pricing.manualAdjustmentMinor ∧
      (repriced = false ∨ identity.stayType = .free → pricing.manualAdjustmentMinor = 0)
  range : 0 ≤ pricing.currentContractAmountMinor ∧ pricing.currentContractAmountMinor ≤ postgresIntegerMaximum

/-! ## Decisions -/

structure DecisionOk (identity : OrderIdentity) (base : Int) (decision : PricingDecision) : Prop where
  policyBase : decision.policyBaseAmountMinor = base
  range : 0 ≤ decision.currentContractAmountMinor ∧ decision.currentContractAmountMinor ≤ postgresIntegerMaximum
  rights : identity.rights = true → decision.currentContractAmountMinor = base ∧ decision.manualAdjustmentMinor = 0 ∧
    decision.pricingBasis ≠ .channelContract
  direct : identity.direct = true → decision.currentContractAmountMinor = base + decision.manualAdjustmentMinor ∧
    decision.pricingBasis = if decision.manualAdjustmentMinor = 0 then .policy else .manualAdjustment
  channel : identity.external = true → identity.rights = false → decision.pricingBasis = .channelContract

variable {identity : OrderIdentity} {base : Int} {request : PricingRequest} {decision : PricingDecision}

theorem nonNegativePostgresAmount_eq_ok {value amount : Int} {field : String}
    (h : nonNegativePostgresAmount value field = .ok amount) :
    amount = value ∧ 0 ≤ value ∧ value ≤ postgresIntegerMaximum := by
  simp only [nonNegativePostgresAmount, bind_eq_ok, require_eq_ok, pure_eq_ok] at h
  obtain ⟨_, hRange, rfl⟩ := h
  exact ⟨rfl, hRange⟩

theorem validateOrderTargetAmount_eq_ok {channel : Option BookingChannelCode} {value amount : Int}
    (h : validateOrderTargetAmount channel value = .ok amount) :
    amount = value ∧ 0 ≤ value ∧ value ≤ postgresIntegerMaximum := by
  cases channel with
  | none =>
    simp only [validateOrderTargetAmount, nonNegativeWholeYuanPostgresAmount, bind_eq_ok, pure_eq_ok] at h
    obtain ⟨whole, hWhole, _, -, rfl⟩ := h
    exact nonNegativePostgresAmount_eq_ok hWhole
  | some code =>
    simp only [validateOrderTargetAmount, bind_eq_ok, pure_eq_ok] at h
    obtain ⟨paid, hPaid, _, -, _, -, rfl⟩ := h
    exact nonNegativePostgresAmount_eq_ok hPaid

theorem wecomDecision_eq_ok {contract : Int} {exceeds : Bool} {channelReason manualReason : String}
    (h : wecomDecision base contract exceeds channelReason manualReason = .ok decision) :
    decision.policyBaseAmountMinor = base ∧ decision.currentContractAmountMinor = contract ∧
      decision.manualAdjustmentMinor = contract - base ∧
      decision.pricingBasis = if decision.manualAdjustmentMinor = 0 then .policy else .manualAdjustment := by
  simp only [wecomDecision, bind_eq_ok, pure_eq_ok] at h
  obtain ⟨_, -, _, -, _, -, _, -, rfl⟩ := h
  exact ⟨rfl, rfl, rfl, rfl⟩

theorem channelDecision_eq_ok {contract : Int} {exceeds : Bool} {channelReason manualReason : String}
    (h : channelDecision base contract exceeds channelReason manualReason = .ok decision) :
    decision.policyBaseAmountMinor = base ∧ decision.currentContractAmountMinor = contract ∧
      decision.pricingBasis = .channelContract := by
  simp only [channelDecision, bind_eq_ok, pure_eq_ok] at h
  obtain ⟨_, -, _, -, rfl⟩ := h
  exact ⟨rfl, rfl, rfl⟩

theorem paidDecision_ok {channel : BookingChannelCode} {channelReason manualReason : String}
    (hBase : 0 ≤ base ∧ base ≤ postgresIntegerMaximum) (hChannel : identity.bookingChannelCode = some channel)
    (hPaid : identity.rights = false)
    (h : paidDecision channel base request channelReason manualReason = .ok decision) :
    DecisionOk identity base decision := by
  simp only [paidDecision, bind_eq_ok] at h
  obtain ⟨_, -, h⟩ := h
  obtain ⟨contract, hRange, exceeds, h⟩ : ∃ contract, (0 ≤ contract ∧ contract ≤ postgresIntegerMaximum) ∧
      ∃ exceeds, (if channel = .wecom then wecomDecision base contract exceeds channelReason manualReason
        else channelDecision base contract exceeds channelReason manualReason) = .ok decision := by
    split at h
    · simp only [bind_eq_ok] at h
      obtain ⟨_, ⟨⟩, exceeds, -, hDecision⟩ := h
      exact ⟨base, hBase, exceeds, hDecision⟩
    · simp only [bind_eq_ok] at h
      obtain ⟨contract, hTarget, exceeds, -, hDecision⟩ := h
      obtain ⟨rfl, hRange⟩ := validateOrderTargetAmount_eq_ok hTarget
      exact ⟨contract, hRange, exceeds, hDecision⟩
  split at h
  case isTrue hDirect =>
    obtain ⟨hPolicy, hAmount, hAdjustment, hBasis⟩ := wecomDecision_eq_ok h
    refine ⟨hPolicy, hAmount ▸ hRange, fun hRights => ?_, fun _ => ⟨by omega, hBasis⟩, fun hExternal => ?_⟩
    · rw [hPaid] at hRights
      cases hRights
    · rw [OrderIdentity.external, hChannel, hDirect] at hExternal
      cases hExternal
  case isFalse hOther =>
    obtain ⟨hPolicy, hAmount, hBasis⟩ := channelDecision_eq_ok h
    refine ⟨hPolicy, hAmount ▸ hRange, fun hRights => ?_, fun hDirect => ?_, fun _ _ => hBasis⟩
    · rw [hPaid] at hRights
      cases hRights
    · simp [OrderIdentity.direct, hChannel, hOther] at hDirect

theorem createOrderPricingDecision_ok (h : createOrderPricingDecision identity base request = .ok decision) :
    DecisionOk identity base decision := by
  simp only [createOrderPricingDecision, bind_eq_ok] at h
  obtain ⟨amount, hAmount, channelReason, -, manualReason, -, h⟩ := h
  obtain ⟨rfl, hBase⟩ := nonNegativePostgresAmount_eq_ok hAmount
  split at h
  case isTrue hRights =>
    simp only [bind_eq_ok, pure_eq_ok] at h
    obtain ⟨_, -, _, -, rfl⟩ := h
    have hIs : identity.rights = true := by simpa [OrderIdentity.rights] using hRights
    refine ⟨rfl, hBase, fun _ => ⟨rfl, rfl, ?_⟩, fun hDirect => ?_, fun _ hPaid => ?_⟩
    · rw [policyDecision]
      split <;> simp
    · simp [OrderIdentity.direct, hIs] at hDirect
    · rw [hIs] at hPaid
      cases hPaid
  case isFalse hPaid =>
    simp only [bind_eq_ok, expect_eq_ok] at h
    obtain ⟨channel, hChannel, hDecision⟩ := h
    exact paidDecision_ok hBase hChannel (by simpa [OrderIdentity.rights] using hPaid) hDecision

theorem stayChangePricingDecision_ok {command : CommandType}
    (h : stayChangePricingDecision command identity base request = .ok decision) : DecisionOk identity base decision := by
  simp only [stayChangePricingDecision, bind_eq_ok, pure_eq_ok] at h
  obtain ⟨decided, hDecided, rfl⟩ := h
  obtain ⟨hBase, hRange, hRights, hDirect, hChannel⟩ := createOrderPricingDecision_ok hDecided
  exact ⟨hBase, hRange, hRights, hDirect, hChannel⟩

/-! ## Snapshots -/

variable {pricing : PricingResult} {timeline : List StayTimelineItem}

theorem OrderIdentity.direct_iff : identity.direct = true ↔
    identity.bookingChannelCode = some .wecom ∧ identity.rights = false := by
  simp [OrderIdentity.direct]

theorem OrderIdentity.guest_of_direct (h : identity.direct = true) : identity.memberStay = false := by
  have hPaid := (OrderIdentity.direct_iff.mp h).2
  simp only [OrderIdentity.rights, Bool.or_eq_false_iff] at hPaid
  exact hPaid.2

theorem PlainPrice.checked (h : PlainPrice pricing timeline)
    (hMax : pricing.currentContractAmount.minorUnits ≤ postgresIntegerMaximum) :
    ordinaryStayCashLineTotalMinor pricing.cashLines pricing.currentContractAmount.currency timeline =
      some pricing.currentContractAmount.minorUnits := by
  rw [h.unadjusted] at hMax ⊢
  exact h.lines hMax

theorem DecisionOk.consistent (h : DecisionOk identity pricing.currentContractAmount.minorUnits decision)
    (hPlain : identity.direct = true → PlainPrice pricing timeline)
    (hExternal : identity.external = true → identity.rights = false)
    (hRange : ((DecidedPricing.of pricing decision).snapshot identity).InRange) :
    ConsistentPricing false identity timeline ((DecidedPricing.of pricing decision).snapshot identity) := by
  have hBase : pricing.currentContractAmount.minorUnits ≤ postgresIntegerMaximum := by
    rw [← h.policyBase]
    exact (hRange _ List.mem_cons_self).2
  have hAdjustment : decision.pricingBasis ≠ .channelContract →
      ((DecidedPricing.of pricing decision).snapshot identity).manualAdjustmentMinor = decision.manualAdjustmentMinor :=
    fun hBasis => if_neg hBasis
  constructor
  case direct =>
    intro hDirect
    obtain ⟨hContract, hBasis⟩ := h.direct hDirect
    have hOwn : decision.pricingBasis ≠ .channelContract := by
      rw [hBasis]
      split <;> simp
    constructor
    case uncovered => exact (hPlain hDirect).uncovered
    case contract =>
      rw [hAdjustment hOwn]
      exact hContract.trans (congrArg (· + decision.manualAdjustmentMinor) h.policyBase.symm)
    case basis =>
      rw [hAdjustment hOwn]
      exact hBasis
    case lines => exact ((hPlain hDirect).checked hBase).trans (congrArg some h.policyBase.symm)
  case channel =>
    intro hIs
    have hBasis := h.channel hIs (hExternal hIs)
    exact ⟨hBasis, if_pos hBasis⟩
  case rights =>
    intro hRights
    obtain ⟨hContract, hNone, hBasis⟩ := h.rights hRights
    rw [hAdjustment hBasis, hNone]
    refine ⟨?_, fun _ => rfl⟩
    rw [Int.add_zero]
    exact hContract.trans h.policyBase.symm
  case range => exact h.range

def PricingResult.repriced (pricing : PricingResult) (amount : Int) : PricingResult :=
  { pricing with currentContractAmount := ⟨pricing.currentContractAmount.currency, amount⟩ }

theorem categoricalBasis_direct (h : identity.direct = true) : categoricalBasis identity = none := by
  obtain ⟨hChannel, hPaid⟩ := OrderIdentity.direct_iff.mp h
  simp only [OrderIdentity.rights, Bool.or_eq_false_iff, decide_eq_false_iff_not] at hPaid
  simp [categoricalBasis, hPaid.1, hPaid.2, hChannel, externalChannelCodes]

theorem categoricalBasis_rights (h : identity.rights = true) :
    ∃ basis, categoricalBasis identity = some basis ∧ basis ≠ .channelContract := by
  simp only [OrderIdentity.rights, Bool.or_eq_true, decide_eq_true_eq] at h
  unfold categoricalBasis
  split
  case isTrue => exact ⟨.free, rfl, by simp⟩
  case isFalse hPaid => exact ⟨.memberEntitlement, if_pos (h.resolve_left hPaid), by simp⟩

theorem categoricalBasis_external (h : identity.external = true) (hPaid : identity.rights = false) :
    categoricalBasis identity = some .channelContract := by
  simp only [OrderIdentity.rights, Bool.or_eq_false_iff, decide_eq_false_iff_not] at hPaid
  rw [categoricalBasis, if_neg hPaid.1, if_neg (by simp [hPaid.2])]
  exact if_pos h

theorem repriced_consistent {amount : Int} (hUnadjusted : Unadjusted pricing)
    (hPlain : identity.direct = true → PlainPrice pricing timeline)
    (hExternal : identity.external = true → identity.rights = false)
    (hFree : identity.stayType = .free → amount = 0 ∧ pricing.cashRemainder.minorUnits = 0)
    (hAmount : 0 ≤ amount ∧ amount ≤ postgresIntegerMaximum)
    (hRange : (pricingSnapshot identity (pricing.repriced amount) none).InRange) :
    ConsistentPricing true identity timeline (pricingSnapshot identity (pricing.repriced amount) none) := by
  have hBase : pricing.currentContractAmount.minorUnits ≤ postgresIntegerMaximum := by
    rw [hUnadjusted.contract]
    exact (hRange _ List.mem_cons_self).2
  have hSnapshot : ∀ basis, (pricingSnapshot identity (pricing.repriced amount) none).pricingBasis = basis →
      basis ≠ .channelContract → (pricingSnapshot identity (pricing.repriced amount) none).manualAdjustmentMinor =
        amount - pricing.cashRemainder.minorUnits := by
    rintro basis rfl hOther
    exact if_neg hOther
  constructor
  case direct =>
    intro hDirect
    have hBasis : (pricingSnapshot identity (pricing.repriced amount) none).pricingBasis =
        if amount = pricing.cashRemainder.minorUnits then .policy else .manualAdjustment := by
      simp only [pricingSnapshot, categoricalBasis_direct hDirect, Option.getD_none]
      rfl
    have hAdjustment := hSnapshot _ hBasis (by split <;> simp)
    constructor
    case uncovered => exact (hPlain hDirect).uncovered
    case contract =>
      rw [hAdjustment]
      exact (add_sub_cancel pricing.cashRemainder.minorUnits amount).symm
    case basis =>
      rw [hAdjustment, hBasis]
      exact if_congr Int.sub_eq_zero.symm rfl rfl
    case lines =>
      refine ((hPlain hDirect).checked hBase).trans (congrArg some ?_)
      rw [hUnadjusted.contract]
      rfl
  case channel =>
    intro hIs
    have hBasis : (pricingSnapshot identity (pricing.repriced amount) none).pricingBasis = .channelContract := by
      simp only [pricingSnapshot, categoricalBasis_external hIs (hExternal hIs), Option.getD_some]
    exact ⟨hBasis, if_pos hBasis⟩
  case rights =>
    intro hRights
    obtain ⟨basis, hCategory, hOther⟩ := categoricalBasis_rights hRights
    have hBasis : (pricingSnapshot identity (pricing.repriced amount) none).pricingBasis = basis := by
      simp only [pricingSnapshot, hCategory, Option.getD_some]
    rw [hSnapshot _ hBasis hOther]
    refine ⟨(add_sub_cancel pricing.cashRemainder.minorUnits amount).symm, ?_⟩
    rintro (⟨⟨⟩⟩ | hIs)
    obtain ⟨rfl, hZero⟩ := hFree hIs
    rw [hZero]
    rfl
  case range => exact hAmount

/-! ## Prices of guests -/

theorem nightItems_dates (unitId arrivalDate departureDate : Nat) :
    (nightItems unitId arrivalDate departureDate).map StayTimelineItem.serviceDate =
      serviceDates arrivalDate departureDate := by
  simp [nightItems, Function.comp_def]

theorem nightlyPricing_checked {input : PricingInput} {unit : PricedUnit} (hManual : input.manualAdjustmentMinor = 0)
    (hCandidates : input.coverageCandidates = []) (h : nightlyPricing input unit = .ok pricing) :
    PlainPrice pricing (nightItems unit.inventoryUnitId input.arrivalDate input.departureDate) := by
  have hPrice := nightlyPricing_price hManual h
  obtain ⟨hNone, rate, -, hRate, hLines⟩ := nightlyPricing_plain hManual hCandidates h
  have hOpen : input.arrivalDate < input.departureDate := by
    simp only [nightlyPricing, bind_eq_ok, enumerateServiceDates_eq_ok] at h
    obtain ⟨_, ⟨hOpen, -⟩, -⟩ := h
    exact hOpen
  have hTotal : 0 ≤ pricing.cashRemainder.minorUnits := hPrice.total ▸ lineTotalMinor_nonneg hPrice.nonneg
  refine ⟨hNone, hTotal, hPrice.unadjusted, fun hMax => ?_⟩
  rw [hPrice.total, hLines] at hMax ⊢
  rw [hPrice.currency]
  refine nightLines_checked hRate (fun hEmpty => ?_) ?_ hMax
  · have hDates := nightItems_dates unit.inventoryUnitId input.arrivalDate input.departureDate
    rw [hEmpty, serviceDates_cons hOpen] at hDates
    cases hDates
  · rw [nightItems_dates]
    exact serviceDates_nodup ..

theorem calculatePricing_plain {input : PricingInput} {unit : PricedUnit} (hPolicy : input.policy.Published)
    (hManual : input.manualAdjustmentMinor = 0) (hMember : input.memberCoverage = false)
    (hCandidates : input.coverageCandidates = []) (h : calculatePricing input unit = .ok pricing) :
    PlainPrice pricing (nightItems unit.inventoryUnitId input.arrivalDate input.departureDate) := by
  by_cases hKind : input.policy.calculationKind = .durationBandTotal
  · simp only [calculatePricing, bind_eq_ok, if_pos hKind, enumerateServiceDates_eq_ok] at h
    obtain ⟨_, -, _, ⟨-, -, rfl⟩, hPrice⟩ := h
    rw [← unitTimeline_stay]
    exact calculateDurationTimelinePricing_plain hPolicy hManual hMember hCandidates hPrice
  · exact nightlyPricing_checked hManual hCandidates (calculatePricing_nightly input hKind h).2

variable {cat : UnitCatalog} {hotel hotel' : Hotel} {orderId commandId : Nat}

/-- The anchors that a property has published are those of its room rates. -/
def Hotel.PublishedPolicies (hotel : Hotel) : Prop :=
  ∀ policyVersionId, ∀ published ∈ hotel.policies policyVersionId, published.policy.Published

theorem loadPricingPolicy_published (hPolicies : hotel.PublishedPolicies) {policyVersionId : Nat} {locked : Bool}
    {policy : PricingPolicy} (h : hotel.loadPricingPolicy policyVersionId locked = .ok policy) : policy.Published := by
  simp only [Hotel.loadPricingPolicy, bind_eq_ok, expect_eq_ok] at h
  obtain ⟨published, hFound, h⟩ := h
  have hPublished := hPolicies policyVersionId published hFound
  split at h
  all_goals
    rw [pure_eq_ok] at h
    subst h
    exact hPublished

theorem priceStayTimeline_plain (hSound : hotel.Sound) (hPolicies : hotel.PublishedPolicies) {order : StayOrder}
    {request : StayPricingRequest} (hOrder : hotel.orders request.orderId = some order)
    (hIdentity : request.identity = order.identity) (hGuest : order.memberStay = false)
    (h : hotel.priceStayTimeline cat request = .ok pricing) : PlainPrice pricing request.stay.stayTimeline := by
  obtain ⟨timeline, first, candidates, policy, hPolicy, hPriced⟩ := Hotel.priceStayTimeline_eq_ok h
  refine hPriced.plain (loadPricingPolicy_published hPolicies hPolicy) ?_ (hSound.guest hOrder hGuest)
  rw [hIdentity]
  exact hGuest

theorem priceSingleUnit_plain (hPolicies : hotel.PublishedPolicies) {quote : Quote} (hGuest : quote.memberStay = false)
    (h : hotel.priceSingleUnit cat quote = .ok pricing) : PlainPrice pricing quote.stay.stayTimeline := by
  have hRights : quote.memberId = none ∧ quote.memberContractId = none := by
    simpa [Quote.memberStay, Quote.identity, OrderIdentity.memberStay] using hGuest
  simp only [Hotel.priceSingleUnit, Hotel.loadInventoryUnit, Hotel.allocateCoverage, Quote.identity, hRights.1, hRights.2,
    allocateCoverageCandidates, bind_eq_ok, require_eq_ok, expect_eq_ok, pure_eq_ok, mapError_eq_ok] at h
  obtain ⟨_, -, unit, ⟨details, -, rfl⟩, dates, -, candidates, hCandidates, policy, hPolicy, hPrice⟩ := h
  obtain rfl : [] = candidates := by injection hCandidates
  exact calculatePricing_plain (loadPricingPolicy_published hPolicies hPolicy) rfl hGuest rfl hPrice

/-! ## Changes of a stay -/

/-- A price that is decided on as it is for the order, and checked for the arrangement if it is a guest's. -/
structure StayDecided (order : StayOrder) (timeline : List StayTimelineItem) (decided : DecidedPricing) : Prop where
  decision : ∃ pricing decision, decided = .of pricing decision ∧
    DecisionOk order.identity pricing.currentContractAmount.minorUnits decision ∧
    (order.memberStay = false → PlainPrice pricing timeline)

theorem StayDecided.consistent {order : StayOrder} {decided : DecidedPricing} (h : StayDecided order timeline decided)
    (hExternal : order.identity.external = true → order.identity.rights = false)
    (hRange : (decided.snapshot order.identity).InRange) :
    ConsistentPricing false order.identity timeline (decided.snapshot order.identity) := by
  obtain ⟨pricing, decision, rfl, hDecision, hPlain⟩ := h.decision
  exact hDecision.consistent (fun hDirect => hPlain (OrderIdentity.guest_of_direct hDirect)) hExternal hRange

theorem decideStayChange_decided {command : CommandType} {order : StayOrder} {decided : DecidedPricing}
    (h : decideStayChange command order pricing request = .ok decided)
    (hPlain : order.memberStay = false → PlainPrice pricing timeline) : StayDecided order timeline decided := by
  simp only [decideStayChange, bind_eq_ok, mapError_eq_ok, pure_eq_ok] at h
  obtain ⟨decision, hDecision, rfl⟩ := h
  exact ⟨pricing, decision, rfl, stayChangePricingDecision_ok hDecision, hPlain⟩

/-- What an order keeps through every command: an external channel is a guest's, and the arrangement in
another room is a member's. -/
structure StayOrder.Proper (order : StayOrder) : Prop where
  external : order.identity.external = true → order.identity.rights = false
  temporary : order.temporaryOtherRoom.isSome = true → order.memberStay = true

theorem StayOrder.Proper.unarranged {order : StayOrder} (h : order.Proper) (hGuest : order.memberStay = false) :
    order.temporaryOtherRoom = none := by
  cases hArrangement : order.temporaryOtherRoom with
  | none => rfl
  | some arrangement =>
    rw [h.temporary (by rw [hArrangement]; rfl)] at hGuest
    cases hGuest

namespace Hotel

theorem buildDateChange_decided (hSound : hotel.Sound) (hPolicies : hotel.PublishedPolicies) {reschedule : Bool}
    {order : StayOrder} {request : DateChangeRequest} {effect : DateChangeEffect} (hOrder : hotel.orders orderId = some order)
    (hProper : order.Proper) (h : hotel.buildDateChange cat reschedule orderId order request = .ok effect) :
    StayDecided order effect.after.stayTimeline effect.decided := by
  simp only [buildDateChange, bind_eq_ok, pure_eq_ok] at h
  obtain ⟨_, -, _, -, dates, -, timeline, -, _, -, _, -, pricing, hPricing, _, -, decided, hDecided, rfl⟩ := h
  refine decideStayChange_decided hDecided fun hGuest => ?_
  rw [dateChangePricing, hProper.unarranged hGuest] at hPricing
  exact priceStayTimeline_plain hSound hPolicies hOrder rfl hGuest hPricing

theorem buildShorten_decided (hSound : hotel.Sound) (hPolicies : hotel.PublishedPolicies) {order : StayOrder}
    {request : ShortenRequest} {effect : ShortenEffect} (hOrder : hotel.orders orderId = some order)
    (h : hotel.buildShorten cat orderId order request = .ok effect) :
    StayDecided order effect.after.stayTimeline effect.decided := by
  simp only [buildShorten, bind_eq_ok, pure_eq_ok] at h
  obtain ⟨_, -, _, -, dates, -, _, -, _, -, pricing, hPricing, _, -, decided, hDecided, _, -, rfl⟩ := h
  exact decideStayChange_decided hDecided fun hGuest =>
    priceStayTimeline_plain hSound hPolicies hOrder rfl hGuest hPricing

theorem buildMove_decided (hSound : hotel.Sound) (hPolicies : hotel.PublishedPolicies) {order : StayOrder}
    {view : ClaimView} {request : MoveRequest} {effect : MoveEffect} (hOrder : hotel.orders orderId = some order)
    (h : hotel.buildMove cat view orderId order request = .ok effect) :
    StayDecided order effect.after.stayTimeline effect.decided := by
  simp only [buildMove, bind_eq_ok, pure_eq_ok] at h
  obtain ⟨_, -, _, -, unit, -, _, -, _, -, _, -, current, -, _, -, _, -, _, -, pricing, hPricing, decided, hDecided, _, -,
    _, -, rfl⟩ := h
  exact decideStayChange_decided hDecided fun hGuest =>
    priceStayTimeline_plain hSound hPolicies hOrder rfl hGuest hPricing

theorem buildReprice_consistent (hSound : hotel.Sound) (hPolicies : hotel.PublishedPolicies) {order : StayOrder}
    {target : Int} {pricing : PricingResult} (hOrder : hotel.orders orderId = some order) (hProper : order.Proper)
    (h : hotel.buildReprice cat orderId order target = .ok pricing)
    (hRange : (pricingSnapshot order.identity pricing none).InRange) :
    ConsistentPricing true order.identity order.stay.stayTimeline (pricingSnapshot order.identity pricing none) := by
  simp only [buildReprice, repriceTarget, bind_eq_ok, require_eq_ok, mapError_eq_ok, pure_eq_ok] at h
  obtain ⟨_, -, _, -, _, -, amount, hTarget, _, hFree, policyPricing, hPricing, rfl⟩ := h
  obtain ⟨rfl, hAmount⟩ := validateOrderTargetAmount_eq_ok hTarget
  obtain ⟨timeline, first, candidates, policy, -, hPriced⟩ := priceStayTimeline_eq_ok hPricing
  refine repriced_consistent hPriced.unadjusted (fun hDirect => ?_) hProper.external (fun hIs => ?_) hAmount hRange
  · exact priceStayTimeline_plain hSound hPolicies hOrder rfl (OrderIdentity.guest_of_direct hDirect) hPricing
  · exact ⟨hFree hIs, hPriced.free_zero hIs⟩

theorem request_channel {request : CreateOrderRequest} {channel : Option BookingChannelCode}
    (h : request.channel = .ok channel) (hRights : request.quote.stayType = .free ∨ request.quote.memberStay = true) :
    channel = none := by
  simp only [CreateOrderRequest.channel, if_pos hRights.symm, bind_eq_ok, pure_eq_ok] at h
  obtain ⟨_, -, _, -, rfl⟩ := h
  rfl

theorem buildCreateOrder_eq_ok {request : CreateOrderRequest} {effect : CreateOrderEffect}
    (h : hotel.buildCreateOrder cat request = .ok effect) : ∃ channel pricing decision,
      request.channel = .ok channel ∧ hotel.priceQuote cat request.quote = .ok pricing ∧
      createOrderPricingDecision (request.quote.identity channel) pricing.currentContractAmount.minorUnits
        request.pricing = .ok decision ∧
      effect.identity = request.quote.identity channel ∧ effect.decided = .of pricing decision := by
  simp only [buildCreateOrder, bind_eq_ok, mapError_eq_ok, pure_eq_ok] at h
  obtain ⟨_, -, channel, hChannel, unit, -, _, -, pricing, hPricing, decision, hDecision, _, -, rfl⟩ := h
  exact ⟨channel, pricing, decision, hChannel, hPricing, hDecision, rfl, rfl⟩

theorem priceQuote_temporary {quote : Quote} (h : hotel.priceQuote cat quote = .ok pricing)
    (hSome : quote.temporaryOtherRoom.isSome = true) : quote.memberStay = true := by
  obtain ⟨arrangement, hArrangement⟩ := Option.isSome_iff_exists.mp hSome
  simp only [priceQuote, hArrangement, priceTemporaryOtherRoomQuote, bind_eq_ok, expect_eq_ok] at h
  obtain ⟨memberId, hMember, -⟩ := h
  simp [Quote.memberStay, Quote.identity, OrderIdentity.memberStay, hMember]

theorem buildCreateOrder_proper {request : CreateOrderRequest} {effect : CreateOrderEffect}
    (h : hotel.buildCreateOrder cat request = .ok effect) : (newOrder request effect.identity).Proper := by
  obtain ⟨channel, pricing, decision, hChannel, hPricing, -, hIdentity, -⟩ := buildCreateOrder_eq_ok h
  rw [hIdentity]
  refine ⟨fun hExternal => ?_, priceQuote_temporary hPricing⟩
  cases hRights : (request.quote.identity channel).rights with
  | false => exact hRights
  | true =>
    simp only [OrderIdentity.rights, Bool.or_eq_true, decide_eq_true_eq] at hRights
    obtain rfl := request_channel hChannel hRights
    cases hExternal

theorem buildCreateOrder_decided (hPolicies : hotel.PublishedPolicies) {request : CreateOrderRequest}
    {effect : CreateOrderEffect} (h : hotel.buildCreateOrder cat request = .ok effect) :
    StayDecided (newOrder request effect.identity) request.quote.stay.stayTimeline effect.decided := by
  have hProper := buildCreateOrder_proper h
  obtain ⟨channel, pricing, decision, -, hPricing, hDecision, hIdentity, hDecided⟩ := buildCreateOrder_eq_ok h
  refine ⟨pricing, decision, hDecided, hIdentity ▸ createOrderPricingDecision_ok hDecision, fun hGuest => ?_⟩
  have hNone : request.quote.temporaryOtherRoom = none := hProper.unarranged hGuest
  have hQuote : request.quote.memberStay = false := by
    rw [hIdentity] at hGuest
    exact hGuest
  rw [priceQuote, hNone] at hPricing
  exact priceSingleUnit_plain hPolicies hQuote hPricing

/-! ## Every run -/

def Proper (hotel : Hotel) : Prop := ∀ orderId, ∀ order ∈ hotel.orders orderId, order.Proper

theorem Proper.setOrder (h : hotel.Proper) {order : StayOrder} {t : EntitlementTables} (hOrder : order.Proper) :
    ({ hotel with entitlement := t }.setOrder orderId order).Proper := by
  intro id other hOther
  rw [Option.mem_def, setOrder_orders] at hOther
  split at hOther
  · exact Option.some.inj hOther ▸ hOrder
  · exact h id other hOther

theorem Proper.replace (h : hotel.Proper) {order order' : StayOrder} (hOrder : hotel.orders orderId = some order)
    (hOrders : hotel'.orders = Function.update hotel.orders orderId (some order'))
    (hIdentity : order'.identity = order.identity) (hRoom : order'.temporaryOtherRoom = order.temporaryOtherRoom) :
    hotel'.Proper := by
  obtain ⟨hExternal, hTemporary⟩ := h orderId order hOrder
  intro id other hOther
  rw [Option.mem_def, hOrders, Function.update_apply] at hOther
  split at hOther
  · obtain rfl := Option.some.inj hOther
    refine ⟨?_, ?_⟩
    · rw [hIdentity]
      exact hExternal
    · rw [hRoom, StayOrder.memberStay, hIdentity]
      exact hTemporary
  · exact h id other hOther

theorem fulfilled_identity (commandId : Nat) (status : OrderStatus) (order : StayOrder) :
    (fulfilled commandId status order).identity = order.identity ∧
      (fulfilled commandId status order).temporaryOtherRoom = order.temporaryOtherRoom ∧
        (fulfilled commandId status order).revisions = order.revisions := by
  cases status <;> exact ⟨rfl, rfl, rfl⟩

theorem shortened_identity (commandId : Nat) (earlyCheckOut : Bool) (order : StayOrder) :
    (shortened commandId earlyCheckOut order).identity = order.identity ∧
      (shortened commandId earlyCheckOut order).temporaryOtherRoom = order.temporaryOtherRoom ∧
        (shortened commandId earlyCheckOut order).revisions = order.revisions := by
  cases earlyCheckOut <;> exact ⟨rfl, rfl, rfl⟩

theorem insertZeroRevision_identity {order revised : StayOrder} (h : order.insertZeroRevision = .ok revised) :
    revised.identity = order.identity ∧ revised.temporaryOtherRoom = order.temporaryOtherRoom := by
  simp only [StayOrder.insertZeroRevision, bind_eq_ok, insertRevision_eq_ok] at h
  obtain ⟨_, -, -, rfl⟩ := h
  exact ⟨rfl, rfl⟩

theorem buildConversion_wecom {order : StayOrder} {request : ConversionRequest} {effect : ConversionEffect}
    (h : hotel.buildConversion cat order request = .ok effect) : order.identity.bookingChannelCode = some .wecom := by
  simp only [buildConversion, assertConvertible, bind_eq_ok, require_eq_ok] at h
  obtain ⟨_, -, _, ⟨_, -, _, -, _, -, _, -, hWecom⟩, -⟩ := h
  exact hWecom

theorem execute_proper (hProper : hotel.Proper) {command : HotelCommand}
    (h : hotel.execute cat commandId command = .ok hotel') : hotel'.Proper := by
  cases command with
  | createOrder orderId request =>
    obtain ⟨effect, held, hCreated⟩ := createOrder_eq_ok h
    obtain ⟨hExternal, hTemporary⟩ := buildCreateOrder_proper hCreated.built
    obtain ⟨hIdentity, hRoom, -⟩ := fulfilled_identity commandId effect.status
      (((newOrder request effect.identity).amend .createOrder commandId none none).withRevision request.quote.stay
        (effect.decided.snapshot effect.identity))
    rw [hCreated.result]
    refine hProper.setOrder ⟨?_, ?_⟩
    · rw [hIdentity]
      exact hExternal
    · rw [hRoom, StayOrder.memberStay, hIdentity]
      exact hTemporary
  | rescheduleStay orderId request =>
    obtain ⟨order, effect, reconciled, hChanged⟩ := changeDates_eq_ok h
    exact hProper.replace hChanged.loaded (congrArg Hotel.orders hChanged.result) rfl rfl
  | extendStay orderId request =>
    obtain ⟨order, effect, reconciled, hChanged⟩ := changeDates_eq_ok h
    exact hProper.replace hChanged.loaded (congrArg Hotel.orders hChanged.result) rfl rfl
  | shortenStay orderId request =>
    obtain ⟨order, effect, hShortened⟩ := shortenStay_eq_ok h
    obtain ⟨hIdentity, hRoom, -⟩ := shortened_identity commandId effect.earlyCheckOut
      { (order.amend .shortenStay commandId (some effect.shortening) none).withRevision effect.after
        (effect.decided.snapshot order.identity) with stay := effect.after }
    exact hProper.replace hShortened.loaded (congrArg Hotel.orders hShortened.result) hIdentity hRoom
  | moveUnit orderId blocked request =>
    obtain ⟨order, effect, hMoved⟩ := moveUnit_eq_ok h
    exact hProper.replace hMoved.loaded (congrArg Hotel.orders hMoved.result) rfl rfl
  | repriceOrder orderId target =>
    obtain ⟨order, pricing, reconciled, -, hPriced⟩ := repriceOrder_eq_ok h
    exact hProper.replace hPriced.loaded (congrArg Hotel.orders hPriced.result) rfl rfl
  | refreshMemberCoverage orderId =>
    obtain ⟨order, pricing, reconciled, -, hPriced⟩ := refreshMemberCoverage_eq_ok h
    exact hProper.replace hPriced.loaded (congrArg Hotel.orders hPriced.result) rfl rfl
  | checkIn orderId =>
    simp only [execute, checkIn, bind_eq_ok, loadOrder_eq_ok, pure_eq_ok] at h
    obtain ⟨order, hOrder, _, -, _, -, _, -, entitlement, -, rfl⟩ := h
    exact hProper.replace hOrder rfl rfl rfl
  | checkOut orderId =>
    simp only [execute, checkOut, bind_eq_ok, loadOrder_eq_ok, pure_eq_ok] at h
    obtain ⟨order, hOrder, _, -, _, -, _, -, rfl⟩ := h
    exact hProper.replace hOrder rfl rfl rfl
  | completeStay orderId =>
    simp only [execute, completeStay, bind_eq_ok, loadOrder_eq_ok, pure_eq_ok] at h
    obtain ⟨order, hOrder, _, -, _, -, _, -, _, -, entitlement, -, rfl⟩ := h
    exact hProper.replace hOrder rfl rfl rfl
  | cancelOrder orderId | markNoShow orderId evening =>
    simp only [execute, closeReserved, bind_eq_ok, loadOrder_eq_ok, pure_eq_ok] at h
    obtain ⟨order, hOrder, _, -, _, -, revised, hRevised, rfl⟩ := h
    obtain ⟨hIdentity, hRoom⟩ := insertZeroRevision_identity hRevised
    exact hProper.replace hOrder rfl hIdentity hRoom
  | revokeCheckIn orderId =>
    simp only [execute, revokeCheckIn, bind_eq_ok, loadOrder_eq_ok, pure_eq_ok] at h
    obtain ⟨order, hOrder, _, -, _, -, _, -, _, -, revised, hRevised, entitlement, -, rfl⟩ := h
    obtain ⟨hIdentity, hRoom⟩ := insertZeroRevision_identity hRevised
    exact hProper.replace hOrder rfl hIdentity hRoom
  | revokeCheckOut orderId =>
    obtain ⟨order, plan, hRevoked⟩ := revokeCheckOut_eq_ok h
    exact hProper.replace hRevoked.loaded (congrArg Hotel.orders hRevoked.result) rfl rfl
  | amendOnly type orderId =>
    simp only [execute, amendOnly, bind_eq_ok, loadOrder_eq_ok, pure_eq_ok] at h
    obtain ⟨order, hOrder, _, -, rfl⟩ := h
    exact hProper.replace hOrder rfl rfl rfl
  | convertStay orderId request =>
    obtain ⟨order, effect, membership, hConverted⟩ := convertStay_eq_ok h
    obtain ⟨-, hTemporary⟩ := hProper orderId order hConverted.loaded
    have hWecom := buildConversion_wecom hConverted.built
    rw [hConverted.result]
    refine hProper.setOrder ⟨fun hExternal => ?_, fun _ => ?_⟩
    · simp [OrderIdentity.external, converted, hWecom, externalChannelCodes] at hExternal
    · simp [converted, StayOrder.memberStay, OrderIdentity.memberStay]
  | createMember memberId =>
    rw [Proper, (createMember_keeps h).orders]
    exact hProper
  | activateMembershipOrder stamp product memberId validFrom =>
    rw [Proper, (activateMembershipOrder_keeps h).orders]
    exact hProper
  | addEntitlementLot lotId contractId unitKind units expiresOn =>
    rw [Proper, (addEntitlementLot_keeps h).orders]
    exact hProper
  | adjustEntitlement lotId quantityDelta reason =>
    rw [Proper, (adjustEntitlement_keeps h).orders]
    exact hProper
  | expireEntitlement lotId asOf =>
    rw [Proper, (expireEntitlement_keeps h).orders]
    exact hProper

end Hotel

theorem reachable_proper {s : HotelState} (h : Reachable (hotelSystem cat) s) : s.hotel.Proper := by
  apply h.invariant (P := fun s => s.hotel.Proper)
  · intro s hInit orderId order hOrder
    rw [Option.mem_def, hInit.orders orderId] at hOrder
    cases hOrder
  · rintro s event s' - hProper hStep
    cases event with
    | command command =>
      simp only [hotelSystem, HotelState.apply, bind_eq_ok, pure_eq_ok] at hStep
      obtain ⟨hotel, hExecute, rfl⟩ := hStep
      exact Hotel.execute_proper hProper hExecute
    | publishPolicy policyVersionId published =>
      simp only [hotelSystem, HotelState.apply, bind_eq_ok, pure_eq_ok] at hStep
      obtain ⟨_, -, rfl⟩ := hStep
      exact hProper
    | _ =>
      cases hStep
      exact hProper

/-! ## The revision of a command -/

def HotelCommand.prices : HotelCommand → Option Nat
  | .createOrder orderId _ | .rescheduleStay orderId _ | .extendStay orderId _ | .shortenStay orderId _
  | .moveUnit orderId _ _ | .repriceOrder orderId _ => some orderId
  | _ => none

def HotelCommand.reprices : HotelCommand → Bool
  | .repriceOrder _ _ => true
  | _ => false

structure RevisionWritten (repriced : Bool) (hotel : Hotel) (orderId : Nat) (hotel' : Hotel) (order : StayOrder)
    (revision : PricingRevision) : Prop where
  stored : hotel'.orders orderId = some order
  chain : order.revisions = ((hotel.orders orderId).map StayOrder.revisions).getD [] ++ [revision]
  consistent : ConsistentPricing repriced order.identity revision.stay.stayTimeline revision.pricing

theorem RevisionWritten.of {repriced : Bool} {order order' : StayOrder} {revision : PricingRevision}
    (hOrder : hotel.orders orderId = some order)
    (hOrders : hotel'.orders = Function.update hotel.orders orderId (some order'))
    (hChain : order'.revisions = order.revisions ++ [revision])
    (hConsistent : ConsistentPricing repriced order'.identity revision.stay.stayTimeline revision.pricing) :
    RevisionWritten repriced hotel orderId hotel' order' revision where
  stored := by rw [hOrders, Function.update_self]
  chain := by
    rw [hOrder]
    exact hChain
  consistent := hConsistent

namespace Hotel

theorem changeDates_written (hSound : hotel.Sound) (hProper : hotel.Proper) (hPolicies : hotel.PublishedPolicies)
    {reschedule : Bool} {request : DateChangeRequest}
    (h : hotel.changeDates cat reschedule orderId commandId request = .ok hotel') :
    ∃ order revision, RevisionWritten false hotel orderId hotel' order revision := by
  obtain ⟨order, effect, reconciled, hChanged⟩ := changeDates_eq_ok h
  have hOrder := hProper orderId order hChanged.loaded
  have hDecided := buildDateChange_decided hSound hPolicies hChanged.loaded hOrder hChanged.built
  exact ⟨_, _, .of hChanged.loaded (congrArg Hotel.orders hChanged.result) rfl
    (hDecided.consistent hOrder.external hChanged.inRange)⟩

theorem execute_written (hSound : hotel.Sound) (hProper : hotel.Proper) (hPolicies : hotel.PublishedPolicies)
    {command : HotelCommand} (hPrices : command.prices = some orderId)
    (h : hotel.execute cat commandId command = .ok hotel') :
    ∃ order revision, RevisionWritten command.reprices hotel orderId hotel' order revision := by
  cases command with
  | createOrder orderId request =>
    cases hPrices
    obtain ⟨effect, held, hCreated⟩ := createOrder_eq_ok h
    have hDecided := buildCreateOrder_decided hPolicies hCreated.built
    have hConsistent := hDecided.consistent (buildCreateOrder_proper hCreated.built).external hCreated.inRange
    obtain ⟨hIdentity, -, hRevisions⟩ := fulfilled_identity commandId effect.status
      (((newOrder request effect.identity).amend .createOrder commandId none none).withRevision request.quote.stay
        (effect.decided.snapshot effect.identity))
    have hStored := (congrFun (congrArg Hotel.orders hCreated.result) orderId).trans (Function.update_self ..)
    refine ⟨_, ⟨1, 1, request.quote.pricingPolicyVersionId, request.quote.stay,
      effect.decided.snapshot effect.identity⟩, hStored, ?_, ?_⟩
    · rw [hRevisions, hCreated.fresh]
      rfl
    · rw [hIdentity]
      exact hConsistent
  | rescheduleStay orderId request =>
    cases hPrices
    exact changeDates_written hSound hProper hPolicies h
  | extendStay orderId request =>
    cases hPrices
    exact changeDates_written hSound hProper hPolicies h
  | shortenStay orderId request =>
    cases hPrices
    obtain ⟨order, effect, hShortened⟩ := shortenStay_eq_ok h
    have hDecided := buildShorten_decided hSound hPolicies hShortened.loaded hShortened.built
    have hConsistent := hDecided.consistent (hProper orderId order hShortened.loaded).external hShortened.inRange
    obtain ⟨hIdentity, -, hRevisions⟩ := shortened_identity commandId effect.earlyCheckOut
      { (order.amend .shortenStay commandId (some effect.shortening) none).withRevision effect.after
        (effect.decided.snapshot order.identity) with stay := effect.after }
    exact ⟨_, _, .of hShortened.loaded (congrArg Hotel.orders hShortened.result) hRevisions (hIdentity ▸ hConsistent)⟩
  | moveUnit orderId blocked request =>
    cases hPrices
    obtain ⟨order, effect, hMoved⟩ := moveUnit_eq_ok h
    have hDecided := buildMove_decided hSound hPolicies hMoved.loaded hMoved.built
    exact ⟨_, _, .of hMoved.loaded (congrArg Hotel.orders hMoved.result) rfl
      (hDecided.consistent (hProper orderId order hMoved.loaded).external hMoved.inRange)⟩
  | repriceOrder orderId target =>
    cases hPrices
    obtain ⟨order, pricing, reconciled, hBuilt, hPriced⟩ := repriceOrder_eq_ok h
    have hConsistent := buildReprice_consistent hSound hPolicies hPriced.loaded
      (hProper orderId order hPriced.loaded) hBuilt hPriced.inRange
    exact ⟨_, _, .of hPriced.loaded (congrArg Hotel.orders hPriced.result) rfl hConsistent⟩
  | _ => cases hPrices

end Hotel

/-- Every revision that a command writes for an order is consistent, in whatever run. -/
theorem revision_chain_consistent (cat : UnitCatalog) (s s' : HotelState) (command : HotelCommand) (orderId : Nat)
    (hReachable : Reachable (hotelSystem cat) s) (hPolicies : s.hotel.PublishedPolicies)
    (hPrices : command.prices = some orderId) (hStep : s.apply cat (.command command) = .ok s') :
    ∃ order revision, RevisionWritten command.reprices s.hotel orderId s'.hotel order revision := by
  simp only [HotelState.apply, bind_eq_ok, pure_eq_ok] at hStep
  obtain ⟨hotel, hExecute, rfl⟩ := hStep
  exact Hotel.execute_written (reachable_sound hReachable) (reachable_proper hReachable) hPolicies hPrices hExecute

/-! ## A direct booking -/

def sampleHouse : UnitCatalog where
  kind _ := .room
  parentRoomId := id
  beds := []
  mem_beds := PropertyInventory.sampleRooms.mem_beds
  parentRoom_kind := PropertyInventory.sampleRooms.parentRoom_kind

def sampleOpening : HotelState where
  hotel := {
    today := 10
    units := fun _ => some ⟨some 3, some 1, 2⟩
    policies := fun _ => some ⟨sampleMemberPolicy, false⟩
    entitlement := ⟨[1], [], [], List.nodup_nil, [], []⟩
    orders := fun _ => none }
  commandCount := 0

theorem sampleOpening_reachable : Reachable (hotelSystem sampleHouse) sampleOpening :=
  ⟨sampleOpening, [], ⟨fun _ => rfl, rfl, rfl, rfl, rfl⟩, .nil _⟩

theorem sampleOpening_published : sampleOpening.hotel.PublishedPolicies := by
  rintro _ published ⟨⟩ _ anchors ⟨⟩ band
  exact (by decide : 6800 ≤ maxAnchorMinor)

def sampleBooking (memberId memberContractId : Option Nat) (channel : Option BookingChannelCode) : CreateOrderRequest where
  quote := {
    inventoryUnitId := 5
    stayType := .transient
    arrivalDate := 12
    departureDate := 14
    pricingPolicyVersionId := 2
    memberId := memberId
    memberContractId := memberContractId
    temporaryOtherRoom := none }
  bookingChannelCode := channel
  channelOrderReference := none
  pricing := ⟨none, none, none⟩
  occupantCount := 1
  backfill := false

theorem revision_chain_consistent_sample : ∃ s' order revision,
    sampleOpening.apply sampleHouse (.command (.createOrder 1 (sampleBooking none none (some .wecom)))) = .ok s' ∧
      RevisionWritten false sampleOpening.hotel 1 s'.hotel order revision := by
  have hRuns : ((sampleOpening.apply sampleHouse
      (.command (.createOrder 1 (sampleBooking none none (some .wecom))))).toOption.any fun _ => true) = true := by decide
  obtain ⟨s', hStep, -⟩ := any_eq_true.mp hRuns
  obtain ⟨order, revision, hWritten⟩ := revision_chain_consistent sampleHouse sampleOpening s' _ 1
    sampleOpening_reachable sampleOpening_published rfl hStep
  exact ⟨s', order, revision, hStep, hWritten⟩

end GreenPms
