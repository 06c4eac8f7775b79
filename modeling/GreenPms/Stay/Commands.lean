import Mathlib.Data.List.Dedup
import GreenPms.Entitlement.Operations
import GreenPms.Stay.Hotel

/-! # What the commands write

A command on an order replaces that order and writes to the coverage of that order only, and an
order that is no member's has no coverage. A command on memberships leaves orders and coverage.
-/

namespace GreenPms

open Checked TransitionSystem EntitlementTables

variable {cat : UnitCatalog} {hotel hotel' : Hotel} {orderId commandId : Nat}

/-- The rows of a coverage table are consistent with their ledger and belong to members. -/
structure Hotel.Sound (hotel : Hotel) : Prop where
  entitlement : hotel.entitlement.Ok
  rows : ∀ c ∈ hotel.entitlement.coverage, ∃ order, hotel.orders c.orderId = some order ∧ order.memberStay = true

structure Hotel.Revises (hotel : Hotel) (orderId : Nat) (order' : StayOrder) (hotel' : Hotel) : Prop where
  result : hotel' = { hotel with entitlement := hotel'.entitlement }.setOrder orderId order'
  writes : CoverageWrites orderId hotel.entitlement hotel'.entitlement
  member : order'.memberStay = false → hotel'.entitlement = hotel.entitlement
  kept : ∀ order, hotel.orders orderId = some order → order.memberStay = true → order'.memberStay = true

theorem Hotel.setOrder_orders (hotel : Hotel) (orderId : Nat) (order : StayOrder) (id : Nat) :
    (hotel.setOrder orderId order).orders id = if id = orderId then some order else hotel.orders id := by
  simp [Hotel.setOrder, Function.update_apply]

theorem Hotel.Revises.orders {order' : StayOrder} (h : hotel.Revises orderId order' hotel') (id : Nat) :
    hotel'.orders id = if id = orderId then some order' else hotel.orders id := by
  rw [h.result]
  exact Hotel.setOrder_orders ..

theorem Hotel.Revises.sound {order' : StayOrder} (hSound : hotel.Sound) (h : hotel.Revises orderId order' hotel') :
    hotel'.Sound where
  entitlement := h.writes.ok hSound.entitlement
  rows := by
    intro c hc
    rw [h.orders]
    split
    case isTrue hOwn =>
      refine ⟨order', rfl, ?_⟩
      by_contra hGuest
      rw [Bool.not_eq_true] at hGuest
      rw [h.member hGuest] at hc
      obtain ⟨order, hOrder, hMember⟩ := hSound.rows c hc
      rw [hOwn] at hOrder
      rw [h.kept order hOrder hMember] at hGuest
      cases hGuest
    case isFalse hOther => exact hSound.rows c ((h.writes.others hSound.entitlement hOther).mp hc)

/-! ## Orders without coverage -/

theorem Hotel.Sound.guest (h : hotel.Sound) {order : StayOrder} (hOrder : hotel.orders orderId = some order)
    (hGuest : order.memberStay = false) : ∀ c ∈ hotel.entitlement.coverage, c.orderId ≠ orderId := by
  rintro c hc rfl
  obtain ⟨member, hMember, hIs⟩ := h.rows c hc
  rw [hOrder, Option.some.injEq] at hMember
  rw [← hMember, hGuest] at hIs
  cases hIs

theorem Hotel.Sound.unknown (h : hotel.Sound) (hOrder : hotel.orders orderId = none) :
    ∀ c ∈ hotel.entitlement.coverage, c.orderId ≠ orderId := by
  rintro c hc rfl
  obtain ⟨member, hMember, -⟩ := h.rows c hc
  rw [hOrder] at hMember
  cases hMember

section

variable {t u : EntitlementTables}

theorem ofOrder_nil (h : ∀ c ∈ t.coverage, c.orderId ≠ orderId) (p : CoverageItem → Bool) : t.ofOrder orderId p = [] := by
  rw [List.eq_nil_iff_forall_not_mem]
  intro c hc
  obtain ⟨hMem, hOrder, -⟩ := mem_ofOrder.mp hc
  exact h c hMem hOrder

theorem consumeCoverage_nil (h : ∀ c ∈ t.coverage, c.orderId ≠ orderId) {serviceDates : Option (List Nat)}
    {reason : String} (hRun : t.consumeCoverage orderId commandId serviceDates reason = .ok u) : u = t := by
  obtain ⟨-, rfl⟩ := consumeCoverage_eq_ok.mp hRun
  rw [ofOrder_nil h, List.foldl_nil]

end

/-! ## Loading and revising -/

@[simp] theorem Hotel.loadOrder_eq_ok {order : StayOrder} :
    hotel.loadOrder orderId = .ok order ↔ hotel.orders orderId = some order := expect_eq_ok

def StayOrder.withRevision (order : StayOrder) (stay : StayInterval) (pricing : PricingSnapshot) : StayOrder :=
  { order with revisions := order.revisions ++
      [⟨order.revisions.length + 1, order.version, order.pricingPolicyVersionId, stay, pricing⟩] }

def PricingSnapshot.InRange (pricing : PricingSnapshot) : Prop :=
  ∀ amount ∈ [pricing.policyBaseAmountMinor, pricing.currentContractAmountMinor, pricing.manualAdjustmentMinor],
    postgresIntegerMinimum ≤ amount ∧ amount ≤ postgresIntegerMaximum

@[simp] theorem insertRevision_eq_ok {order revised : StayOrder} {stay : StayInterval} {pricing : PricingSnapshot} :
    order.insertRevision stay pricing = .ok revised ↔ pricing.InRange ∧ revised = order.withRevision stay pricing := by
  simp only [StayOrder.insertRevision, bind_eq_ok, require_eq_ok, pure_eq_ok]
  constructor
  · rintro ⟨_, hRange, rfl⟩
    exact ⟨hRange, rfl⟩
  · rintro ⟨hRange, rfl⟩
    exact ⟨(), hRange, rfl⟩

@[simp] theorem withRevision_memberStay (order : StayOrder) (stay : StayInterval) (pricing : PricingSnapshot) :
    (order.withRevision stay pricing).memberStay = order.memberStay := rfl

@[simp] theorem amend_memberStay (order : StayOrder) (type : CommandType) (commandId : Nat)
    (shortening : Option Shortening) (checkoutSequence : Option Nat) :
    (order.amend type commandId shortening checkoutSequence).memberStay = order.memberStay := rfl

namespace Hotel

theorem Revises.of {order order' : StayOrder} {t : EntitlementTables} (hOrder : hotel.orders orderId = some order)
    (hSame : order'.memberStay = order.memberStay) (hWrites : CoverageWrites orderId hotel.entitlement t)
    (hGuest : order.memberStay = false → t = hotel.entitlement) :
    hotel.Revises orderId order' ({ hotel with entitlement := t }.setOrder orderId order') where
  result := rfl
  writes := hWrites
  member hFalse := hGuest (hSame ▸ hFalse)
  kept other hOther hMember := by
    rw [hOrder, Option.some.injEq] at hOther
    rw [hSame, hOther, hMember]

/-! ## CREATE_ORDER -/

structure Created (cat : UnitCatalog) (hotel : Hotel) (orderId commandId : Nat) (request : CreateOrderRequest)
    (effect : CreateOrderEffect) (held : EntitlementTables) (hotel' : Hotel) : Prop where
  built : hotel.buildCreateOrder cat request = .ok effect
  fresh : hotel.orders orderId = none
  inRange : (effect.decided.snapshot effect.identity).InRange
  hold : hotel.holdForOrder orderId commandId (newOrder request effect.identity)
    effect.decided.pricing.coverageSet = .ok held
  consume : consumeBackfill held orderId commandId (newOrder request effect.identity) effect.status =
    .ok hotel'.entitlement
  result : hotel' = { hotel with entitlement := hotel'.entitlement }.setOrder orderId (fulfilled commandId effect.status
    (((newOrder request effect.identity).amend .createOrder commandId none none).withRevision request.quote.stay
      (effect.decided.snapshot effect.identity)))

theorem createOrder_eq_ok {request : CreateOrderRequest}
    (h : hotel.createOrder cat orderId commandId request = .ok hotel') :
    ∃ effect held, hotel.Created cat orderId commandId request effect held hotel' := by
  simp only [createOrder, applyCreateOrder, bind_eq_ok, require_eq_ok, insertRevision_eq_ok, pure_eq_ok] at h
  obtain ⟨effect, hEffect, _, hFresh, _, ⟨hRange, rfl⟩, held, hHeld, entitlement, hConsumed, rfl⟩ := h
  exact ⟨effect, held, hEffect, hFresh, hRange, hHeld, hConsumed, rfl⟩

theorem holdForOrder_writes {order : StayOrder} {coverageSet : List CoveredNight} {t : EntitlementTables}
    (h : hotel.holdForOrder orderId commandId order coverageSet = .ok t) :
    CoverageWrites orderId hotel.entitlement t ∧ (order.memberStay = false → t = hotel.entitlement) := by
  unfold holdForOrder at h
  split at h
  case isTrue hContract =>
    refine ⟨holdCoverage_writes h, fun hGuest => ?_⟩
    simp [StayOrder.memberStay, OrderIdentity.memberStay, hContract] at hGuest
  case isFalse =>
    obtain rfl : hotel.entitlement = t := by injection h
    exact ⟨.refl, fun _ => rfl⟩

theorem consumeBackfill_writes {order : StayOrder} {status : OrderStatus} {t u : EntitlementTables} (hOk : t.Ok)
    (h : consumeBackfill t orderId commandId order status = .ok u) :
    CoverageWrites orderId t u ∧ (order.memberStay = false → u = t) := by
  unfold consumeBackfill at h
  split at h
  case isTrue hContract =>
    refine ⟨consumeCoverage_writes hOk h, fun hGuest => ?_⟩
    simp [StayOrder.memberStay, OrderIdentity.memberStay, hContract.1] at hGuest
  case isFalse =>
    obtain rfl : t = u := by injection h
    exact ⟨.refl, fun _ => rfl⟩

@[simp] theorem fulfilled_memberStay (commandId : Nat) (status : OrderStatus) (order : StayOrder) :
    (fulfilled commandId status order).memberStay = order.memberStay := by
  cases status <;> rfl

theorem Created.revises (hSound : hotel.Sound) {request : CreateOrderRequest} {effect : CreateOrderEffect}
    {held : EntitlementTables} (h : hotel.Created cat orderId commandId request effect held hotel') :
    ∃ order', hotel.Revises orderId order' hotel' := by
  obtain ⟨hHold, hHoldGuest⟩ := holdForOrder_writes h.hold
  obtain ⟨hConsume, hConsumeGuest⟩ := consumeBackfill_writes (CoverageWrites.ok hHold hSound.entitlement) h.consume
  refine ⟨_, h.result, hHold.trans hConsume, fun hGuest => ?_, fun order hOrder => ?_⟩
  · have hNew : (newOrder request effect.identity).memberStay = false := by simpa using hGuest
    rw [hConsumeGuest hNew, hHoldGuest hNew]
  · rw [h.fresh] at hOrder
    cases hOrder

/-! ## Changes of the price -/

theorem reconcileForOrder_eq_ok {order : StayOrder} {coverageSet : List CoveredNight} {t : EntitlementTables}
    (h : hotel.reconcileForOrder orderId commandId order coverageSet = .ok t) :
    (order.memberStay = true ∧ hotel.entitlement.Reconciles (order.owner orderId) coverageSet commandId t) ∨
      (order.memberStay = false ∧ t = hotel.entitlement) := by
  unfold reconcileForOrder at h
  split at h
  case isTrue hMember => exact .inl ⟨hMember, reconcileCoverage_eq_ok h⟩
  case isFalse hGuest =>
    obtain rfl : hotel.entitlement = t := by injection h
    exact .inr ⟨by simpa using hGuest, rfl⟩

theorem reconcileForOrder_writes (hSound : hotel.Sound) {order : StayOrder} {coverageSet : List CoveredNight}
    {t : EntitlementTables} (h : hotel.reconcileForOrder orderId commandId order coverageSet = .ok t) :
    CoverageWrites orderId hotel.entitlement t ∧ (order.memberStay = false → t = hotel.entitlement) := by
  obtain ⟨hMember, hReconciles⟩ | ⟨-, rfl⟩ := reconcileForOrder_eq_ok h
  · exact ⟨hReconciles.writes hSound.entitlement, fun hGuest => absurd hGuest (by simp [hMember])⟩
  · exact ⟨.refl, fun _ => rfl⟩

structure DatesChanged (cat : UnitCatalog) (hotel : Hotel) (reschedule : Bool) (orderId commandId : Nat)
    (request : DateChangeRequest) (order : StayOrder) (effect : DateChangeEffect) (reconciled : EntitlementTables)
    (hotel' : Hotel) : Prop where
  loaded : hotel.orders orderId = some order
  built : hotel.buildDateChange cat reschedule orderId order request = .ok effect
  inRange : (effect.decided.snapshot order.identity).InRange
  reconcile : hotel.reconcileForOrder orderId commandId order effect.decided.pricing.coverageSet = .ok reconciled
  consume : consumeExtension reschedule reconciled orderId commandId order effect.consumedCoverageDates =
    .ok hotel'.entitlement
  result : hotel' = { hotel with entitlement := hotel'.entitlement }.setOrder orderId
    { (order.amend (dateChangeCommand reschedule) commandId none none).withRevision effect.after
      (effect.decided.snapshot order.identity) with stay := effect.after }

theorem changeDates_eq_ok {reschedule : Bool} {request : DateChangeRequest}
    (h : hotel.changeDates cat reschedule orderId commandId request = .ok hotel') :
    ∃ order effect reconciled,
      hotel.DatesChanged cat reschedule orderId commandId request order effect reconciled hotel' := by
  simp only [changeDates, applyDateChange, bind_eq_ok, loadOrder_eq_ok, insertRevision_eq_ok, pure_eq_ok] at h
  obtain ⟨order, hOrder, effect, hEffect, _, ⟨hRange, rfl⟩, reconciled, hReconciled, entitlement, hConsumed, rfl⟩ := h
  exact ⟨order, effect, reconciled, hOrder, hEffect, hRange, hReconciled, hConsumed, rfl⟩

theorem consumeExtension_writes {reschedule : Bool} {order : StayOrder} {dates : List Nat} {t u : EntitlementTables}
    (hOk : t.Ok) (h : consumeExtension reschedule t orderId commandId order dates = .ok u) :
    CoverageWrites orderId t u ∧ (order.memberStay = false → u = t) := by
  unfold consumeExtension at h
  split at h
  case isTrue hMember =>
    exact ⟨consumeCoverage_writes hOk h, fun hGuest => absurd hGuest (by simp [hMember.2])⟩
  case isFalse =>
    obtain rfl : t = u := by injection h
    exact ⟨.refl, fun _ => rfl⟩

theorem DatesChanged.revises (hSound : hotel.Sound) {reschedule : Bool} {request : DateChangeRequest}
    {order : StayOrder} {effect : DateChangeEffect} {reconciled : EntitlementTables}
    (h : hotel.DatesChanged cat reschedule orderId commandId request order effect reconciled hotel') :
    ∃ order', hotel.Revises orderId order' hotel' := by
  obtain ⟨hReconcile, hReconcileGuest⟩ := reconcileForOrder_writes hSound h.reconcile
  obtain ⟨hConsume, hConsumeGuest⟩ :=
    consumeExtension_writes (CoverageWrites.ok hReconcile hSound.entitlement) h.consume
  rw [h.result]
  refine ⟨_, .of h.loaded rfl (hReconcile.trans hConsume) fun hGuest => ?_⟩
  rw [hConsumeGuest hGuest, hReconcileGuest hGuest]

structure Shortened (cat : UnitCatalog) (hotel : Hotel) (orderId commandId : Nat) (request : ShortenRequest)
    (order : StayOrder) (effect : ShortenEffect) (hotel' : Hotel) : Prop where
  loaded : hotel.orders orderId = some order
  built : hotel.buildShorten cat orderId order request = .ok effect
  inRange : (effect.decided.snapshot order.identity).InRange
  restore : hotel.entitlement.restoreFutureConsumedCoverage orderId commandId
    effect.shortening.entitlementSummary.restoredFutureCoverageDates = .ok hotel'.entitlement
  result : hotel' = { hotel with entitlement := hotel'.entitlement }.setOrder orderId
    (shortened commandId effect.earlyCheckOut
      { (order.amend .shortenStay commandId (some effect.shortening) none).withRevision effect.after
        (effect.decided.snapshot order.identity) with stay := effect.after })

theorem shortenStay_eq_ok {request : ShortenRequest}
    (h : hotel.shortenStay cat orderId commandId request = .ok hotel') :
    ∃ order effect, hotel.Shortened cat orderId commandId request order effect hotel' := by
  simp only [shortenStay, applyShorten, bind_eq_ok, loadOrder_eq_ok, insertRevision_eq_ok, pure_eq_ok] at h
  obtain ⟨order, hOrder, effect, hEffect, _, ⟨hRange, rfl⟩, entitlement, hRestored, rfl⟩ := h
  exact ⟨order, effect, hOrder, hEffect, hRange, hRestored, rfl⟩

@[simp] theorem shortened_memberStay (commandId : Nat) (earlyCheckOut : Bool) (order : StayOrder) :
    (shortened commandId earlyCheckOut order).memberStay = order.memberStay := by
  cases earlyCheckOut <;> rfl

theorem restoreFutureConsumedCoverage_nil {t u : EntitlementTables} (h : ∀ c ∈ t.coverage, c.orderId ≠ orderId)
    {serviceDates : List Nat} (hRun : t.restoreFutureConsumedCoverage orderId commandId serviceDates = .ok u) :
    u = t := by
  simp only [restoreFutureConsumedCoverage, bind_eq_ok, require_eq_ok, pure_eq_ok, ofOrder_nil h] at hRun
  obtain ⟨_, -, _, -, rfl⟩ := hRun
  rfl

theorem Shortened.revises (hSound : hotel.Sound) {request : ShortenRequest} {order : StayOrder} {effect : ShortenEffect}
    (h : hotel.Shortened cat orderId commandId request order effect hotel') :
    ∃ order', hotel.Revises orderId order' hotel' := by
  rw [h.result]
  refine ⟨_, .of h.loaded (by simp; rfl) (restoreFutureConsumedCoverage_writes hSound.entitlement h.restore)
    fun hGuest => restoreFutureConsumedCoverage_nil (hSound.guest h.loaded hGuest) h.restore⟩

structure Moved (cat : UnitCatalog) (hotel : Hotel) (blocked : Nat → List Nat → Bool) (orderId commandId : Nat)
    (request : MoveRequest) (order : StayOrder) (effect : MoveEffect) (hotel' : Hotel) : Prop where
  loaded : hotel.orders orderId = some order
  built : hotel.buildMove cat ⟨order.stay.stayTimeline, blocked⟩ orderId order request = .ok effect
  inRange : (effect.decided.snapshot order.identity).InRange
  coverage : hotel.moveCoverage orderId commandId order effect = .ok hotel'.entitlement
  writeCount : hotel'.entitlement.ledger.length =
    hotel.entitlement.ledger.length + effect.entitlementSummary.ledgerWriteCount
  result : hotel' = { hotel with entitlement := hotel'.entitlement }.setOrder orderId
    { (order.amend .moveUnit commandId none none).withRevision effect.after (effect.decided.snapshot order.identity)
      with stay := effect.after }

theorem moveUnit_eq_ok {blocked : Nat → List Nat → Bool} {request : MoveRequest}
    (h : hotel.moveUnit cat blocked orderId commandId request = .ok hotel') :
    ∃ order effect, hotel.Moved cat blocked orderId commandId request order effect hotel' := by
  simp only [moveUnit, applyMove, bind_eq_ok, loadOrder_eq_ok, insertRevision_eq_ok, require_eq_ok, pure_eq_ok] at h
  obtain ⟨order, hOrder, effect, hEffect, _, -, _, -, _, ⟨hRange, rfl⟩, _, -, entitlement, hCoverage, _, hCount, rfl⟩ := h
  exact ⟨order, effect, hOrder, hEffect, hRange, hCoverage, hCount, rfl⟩

theorem moveCoverage_eq_ok {order : StayOrder} {effect : MoveEffect} {t : EntitlementTables}
    (h : hotel.moveCoverage orderId commandId order effect = .ok t) :
    (order.conversion.isSome = true ∧ t = hotel.entitlement) ∨
      (order.conversion = none ∧
        hotel.reconcileForOrder orderId commandId order effect.decided.pricing.coverageSet = .ok t) := by
  unfold moveCoverage at h
  cases hConversion : order.conversion with
  | none =>
    rw [hConversion] at h
    exact .inr ⟨rfl, h⟩
  | some conversion =>
    rw [hConversion] at h
    simp only [bind_eq_ok, require_eq_ok, pure_eq_ok] at h
    obtain ⟨_, -, rfl⟩ := h
    exact .inl ⟨rfl, rfl⟩

theorem Moved.revises (hSound : hotel.Sound) {blocked : Nat → List Nat → Bool} {request : MoveRequest}
    {order : StayOrder} {effect : MoveEffect}
    (h : hotel.Moved cat blocked orderId commandId request order effect hotel') :
    ∃ order', hotel.Revises orderId order' hotel' := by
  have hWrites : CoverageWrites orderId hotel.entitlement hotel'.entitlement ∧
      (order.memberStay = false → hotel'.entitlement = hotel.entitlement) := by
    obtain ⟨-, hSame⟩ | ⟨-, hReconciled⟩ := moveCoverage_eq_ok h.coverage
    · rw [hSame]
      exact ⟨.refl, fun _ => rfl⟩
    · exact reconcileForOrder_writes hSound hReconciled
  rw [h.result]
  exact ⟨_, .of h.loaded rfl hWrites.1 hWrites.2⟩

structure Priced (hotel : Hotel) (command : CommandType) (orderId commandId : Nat) (order : StayOrder)
    (pricing : PricingResult) (reconciled : EntitlementTables) (hotel' : Hotel) : Prop where
  loaded : hotel.orders orderId = some order
  inRange : (pricingSnapshot order.identity pricing none).InRange
  reconcile : hotel.reconcileForOrder orderId commandId order pricing.coverageSet = .ok reconciled
  consume : consumeInHouse reconciled orderId commandId order = .ok hotel'.entitlement
  result : hotel' = { hotel with entitlement := hotel'.entitlement }.setOrder orderId
    ((order.amend command commandId none none).withRevision order.stay (pricingSnapshot order.identity pricing none))

theorem repriceOrder_eq_ok {target : Int} (h : hotel.repriceOrder cat orderId commandId target = .ok hotel') :
    ∃ order pricing reconciled, hotel.buildReprice cat orderId order target = .ok pricing ∧
      hotel.Priced .repriceOrder orderId commandId order pricing reconciled hotel' := by
  simp only [repriceOrder, applyPricing, bind_eq_ok, loadOrder_eq_ok, insertRevision_eq_ok, pure_eq_ok] at h
  obtain ⟨order, hOrder, pricing, hPricing, _, ⟨hRange, rfl⟩, reconciled, hReconciled, entitlement, hConsumed, rfl⟩ := h
  exact ⟨order, pricing, reconciled, hPricing, hOrder, hRange, hReconciled, hConsumed, rfl⟩

theorem refreshMemberCoverage_eq_ok (h : hotel.refreshMemberCoverage cat orderId commandId = .ok hotel') :
    ∃ order pricing reconciled, hotel.buildRefresh cat orderId order = .ok pricing ∧
      hotel.Priced .refreshMemberCoverage orderId commandId order pricing reconciled hotel' := by
  simp only [refreshMemberCoverage, applyPricing, bind_eq_ok, loadOrder_eq_ok, insertRevision_eq_ok, pure_eq_ok] at h
  obtain ⟨order, hOrder, pricing, hPricing, _, ⟨hRange, rfl⟩, reconciled, hReconciled, entitlement, hConsumed, rfl⟩ := h
  exact ⟨order, pricing, reconciled, hPricing, hOrder, hRange, hReconciled, hConsumed, rfl⟩

theorem consumeInHouse_writes {order : StayOrder} {t u : EntitlementTables} (hOk : t.Ok)
    (h : consumeInHouse t orderId commandId order = .ok u) :
    CoverageWrites orderId t u ∧ (order.memberStay = false → u = t) := by
  unfold consumeInHouse at h
  split at h
  case isTrue hMember =>
    exact ⟨consumeCoverage_writes hOk h, fun hGuest => absurd hGuest (by simp [hMember.1])⟩
  case isFalse =>
    obtain rfl : t = u := by injection h
    exact ⟨.refl, fun _ => rfl⟩

theorem Priced.revises (hSound : hotel.Sound) {command : CommandType} {order : StayOrder} {pricing : PricingResult}
    {reconciled : EntitlementTables}
    (h : hotel.Priced command orderId commandId order pricing reconciled hotel') :
    ∃ order', hotel.Revises orderId order' hotel' := by
  obtain ⟨hReconcile, hReconcileGuest⟩ := reconcileForOrder_writes hSound h.reconcile
  obtain ⟨hConsume, hConsumeGuest⟩ := consumeInHouse_writes (CoverageWrites.ok hReconcile hSound.entitlement) h.consume
  rw [h.result]
  refine ⟨_, .of h.loaded rfl (hReconcile.trans hConsume) fun hGuest => ?_⟩
  rw [hConsumeGuest hGuest, hReconcileGuest hGuest]

/-! ## Fulfilment -/

theorem checkIn_revises (hSound : hotel.Sound) (h : hotel.checkIn orderId commandId = .ok hotel') :
    ∃ order', hotel.Revises orderId order' hotel' := by
  simp only [checkIn, bind_eq_ok, loadOrder_eq_ok, require_eq_ok, pure_eq_ok] at h
  obtain ⟨order, hOrder, _, -, _, -, _, -, entitlement, hConsumed, rfl⟩ := h
  exact ⟨_, .of hOrder rfl (consumeCoverage_writes hSound.entitlement hConsumed)
    fun hGuest => consumeCoverage_nil (hSound.guest hOrder hGuest) hConsumed⟩

theorem setOrder_revises {order order' : StayOrder} (hOrder : hotel.orders orderId = some order)
    (hSame : order'.memberStay = order.memberStay) : hotel.Revises orderId order' (hotel.setOrder orderId order') :=
  .of hOrder hSame .refl fun _ => rfl

theorem checkOut_revises (h : hotel.checkOut orderId commandId = .ok hotel') :
    ∃ order', hotel.Revises orderId order' hotel' := by
  simp only [checkOut, bind_eq_ok, loadOrder_eq_ok, require_eq_ok, pure_eq_ok] at h
  obtain ⟨order, hOrder, _, -, _, -, _, -, rfl⟩ := h
  exact ⟨_, setOrder_revises hOrder rfl⟩

theorem completeStay_revises (hSound : hotel.Sound) (h : hotel.completeStay orderId commandId = .ok hotel') :
    ∃ order', hotel.Revises orderId order' hotel' := by
  simp only [completeStay, bind_eq_ok, loadOrder_eq_ok, require_eq_ok, pure_eq_ok] at h
  obtain ⟨order, hOrder, _, -, _, -, _, -, _, -, entitlement, hConsumed, rfl⟩ := h
  exact ⟨_, .of hOrder rfl (consumeCoverage_writes hSound.entitlement hConsumed)
    fun hGuest => consumeCoverage_nil (hSound.guest hOrder hGuest) hConsumed⟩

theorem insertZeroRevision_memberStay {order revised : StayOrder} (h : order.insertZeroRevision = .ok revised) :
    revised.memberStay = order.memberStay := by
  simp only [StayOrder.insertZeroRevision, bind_eq_ok, insertRevision_eq_ok] at h
  obtain ⟨_, -, -, rfl⟩ := h
  rfl

theorem closeReserved_revises (hSound : hotel.Sound) {noShow evening : Bool}
    (h : hotel.closeReserved noShow evening orderId commandId = .ok hotel') :
    ∃ order', hotel.Revises orderId order' hotel' := by
  simp only [closeReserved, bind_eq_ok, loadOrder_eq_ok, require_eq_ok, pure_eq_ok] at h
  obtain ⟨order, hOrder, _, -, _, -, revised, hRevised, rfl⟩ := h
  refine ⟨_, .of hOrder (insertZeroRevision_memberStay hRevised :) (releaseCoverage_writes hSound.entitlement ..)
    fun hGuest => ?_⟩
  rw [releaseCoverage, ofOrder_nil (hSound.guest hOrder hGuest), List.foldl_nil]

theorem revokeCheckIn_revises (hSound : hotel.Sound) (h : hotel.revokeCheckIn orderId commandId = .ok hotel') :
    ∃ order', hotel.Revises orderId order' hotel' := by
  simp only [revokeCheckIn, bind_eq_ok, loadOrder_eq_ok, require_eq_ok, pure_eq_ok] at h
  obtain ⟨order, hOrder, _, -, _, -, _, -, _, -, revised, hRevised, entitlement, hRestored, rfl⟩ := h
  refine ⟨_, .of hOrder (insertZeroRevision_memberStay hRevised :)
    (restoreConsumedCoverage_writes hSound.entitlement hRestored) fun hGuest => ?_⟩
  simp only [restoreConsumedCoverage, bind_eq_ok, require_eq_ok, pure_eq_ok,
    ofOrder_nil (hSound.guest hOrder hGuest)] at hRestored
  obtain ⟨_, -, rfl⟩ := hRestored
  rfl

theorem amendOnly_revises {type : CommandType} (h : hotel.amendOnly type orderId commandId = .ok hotel') :
    ∃ order', hotel.Revises orderId order' hotel' := by
  simp only [amendOnly, bind_eq_ok, loadOrder_eq_ok, require_eq_ok, pure_eq_ok] at h
  obtain ⟨order, hOrder, _, -, rfl⟩ := h
  exact ⟨_, setOrder_revises hOrder rfl⟩

/-! ## REVOKE_CHECK_OUT -/

structure Revoked (hotel : Hotel) (orderId commandId : Nat) (order : StayOrder) (plan : CheckoutReversalPlan)
    (hotel' : Hotel) : Prop where
  loaded : hotel.orders orderId = some order
  planned : hotel.loadCheckoutReversalPlan orderId order = .ok plan
  reconsumable : ∀ lotId ∈ plan.reconsumeCoverage.map CoveredNight.entitlementLotId,
    hotel.assertReconsumable order plan.reconsumeCoverage lotId = .ok ()
  reconsume : hotel.reconsume orderId commandId order plan = .ok hotel'.entitlement
  result : hotel' = { hotel with entitlement := hotel'.entitlement }.setOrder orderId
    { order.amend .revokeCheckOut commandId none (some plan.checkout.sequence) with
      status := .checkedIn
      stay := { plan.arrangement with arrivalDate := order.stay.arrivalDate }
      revisions := order.revisions ++ [{ plan.sourceRevision with
        revisionNo := order.revisions.length + 1, amendmentSequence := order.version + 1 }] }

theorem revokeCheckOut_eq_ok (h : hotel.revokeCheckOut orderId commandId = .ok hotel') :
    ∃ order plan, hotel.Revoked orderId commandId order plan hotel' := by
  simp only [revokeCheckOut, bind_eq_ok, loadOrder_eq_ok, pure_eq_ok] at h
  obtain ⟨order, hOrder, plan, hPlan, ⟨⟩, hReconsumable, entitlement, hReconsume, rfl⟩ := h
  refine ⟨order, plan, hOrder, hPlan, fun lotId hLot => ?_, hReconsume, rfl⟩
  exact checkAll_eq_ok.mp hReconsumable lotId (List.mem_dedup.mpr hLot)

theorem reconsume_eq_ok {order : StayOrder} {plan : CheckoutReversalPlan} {t : EntitlementTables}
    (h : hotel.reconsume orderId commandId order plan = .ok t) :
    (plan.reconsumeCoverage = [] ∧ t = hotel.entitlement) ∨
      (plan.reconsumeCoverage ≠ [] ∧ ∃ reconciled,
        hotel.entitlement.Reconciles (order.owner orderId) plan.coverageSet commandId reconciled ∧
        reconciled.consumeCoverage orderId commandId (some (plan.reconsumeCoverage.map CoveredNight.serviceDate))
          "REVOKE_CHECK_OUT_ENTITLEMENT_CONSUMED" = .ok t) := by
  unfold reconsume at h
  split at h
  case isTrue hNone =>
    obtain rfl : hotel.entitlement = t := by injection h
    exact .inl ⟨hNone, rfl⟩
  case isFalse hSome =>
    simp only [bind_eq_ok] at h
    obtain ⟨reconciled, hReconciled, hConsumed⟩ := h
    exact .inr ⟨hSome, reconciled, reconcileCoverage_eq_ok hReconciled, hConsumed⟩

theorem loadCheckoutReversalPlan_coverage {order : StayOrder} {plan : CheckoutReversalPlan}
    (h : hotel.loadCheckoutReversalPlan orderId order = .ok plan) :
    plan.coverageSet = (hotel.sourceCoverage orderId (sourceCommands order plan.checkout)).map CoverageItem.night ∧
      plan.reconsumeCoverage = plan.coverageSet.filter fun night =>
        !(hotel.entitlement.activeCoverage orderId).any fun c => c.serviceDate = night.serviceDate := by
  simp only [loadCheckoutReversalPlan, bind_eq_ok, require_eq_ok, expect_eq_ok, pure_eq_ok] at h
  obtain ⟨_, -, checkout, -, _, -, ⟨arrangement, revision⟩, -, _, -, _, -, _, -, rfl⟩ := h
  exact ⟨rfl, rfl⟩

theorem Revoked.revises (hSound : hotel.Sound) {order : StayOrder} {plan : CheckoutReversalPlan}
    (h : hotel.Revoked orderId commandId order plan hotel') : ∃ order', hotel.Revises orderId order' hotel' := by
  have hWrites : CoverageWrites orderId hotel.entitlement hotel'.entitlement := by
    obtain ⟨-, hSame⟩ | ⟨-, reconciled, hReconciles, hConsumed⟩ := reconsume_eq_ok h.reconsume
    · rw [hSame]
      exact .refl
    · have hReconcile := hReconciles.writes hSound.entitlement
      exact hReconcile.trans (consumeCoverage_writes (CoverageWrites.ok hReconcile hSound.entitlement) hConsumed)
  rw [h.result]
  refine ⟨_, .of h.loaded rfl hWrites fun hGuest => ?_⟩
  obtain ⟨-, hSame⟩ | ⟨hSome, -⟩ := reconsume_eq_ok h.reconsume
  · exact hSame
  · obtain ⟨hSet, hReconsume⟩ := loadCheckoutReversalPlan_coverage h.planned
    refine absurd ?_ hSome
    rw [hReconsume, hSet, sourceCoverage, ofOrder_nil (hSound.guest h.loaded hGuest)]
    rfl

end Hotel

end GreenPms
