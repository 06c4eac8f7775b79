import GreenPms.Stay.Funding
import GreenPms.Stay.RevisionChain

/-! # Balances of lots over runs

What each command does to the lots: nothing is drawn from a lot that has expired, and an open lot is
never overdrawn, except that a stay may be rescheduled with a held night in another unit.
-/

namespace GreenPms

open Checked TransitionSystem EntitlementTables

variable {cat : UnitCatalog} {hotel hotel' : Hotel} {orderId commandId : Nat}

namespace EntitlementTables

variable {t u : EntitlementTables}

theorem record_balance (t : EntitlementTables) (f : LedgerFact) (lot : EntitlementLot) :
    (t.record f).availableBalance lot =
      t.availableBalance lot + if f.lotId = lot.id then f.quantityDelta else 0 := by
  have hRestored : (t.record f).restored lot.id =
      t.restored lot.id + if f.lotId = lot.id && f.entryType = .restore then 1 else 0 := List.countP_cons
  rw [availableBalance_eq, availableBalance_eq, standing_record, hRestored, settlement]
  by_cases hLot : f.lotId = lot.id <;> by_cases hType : f.entryType = .restore <;> simp [hLot, hType] <;> omega

theorem findLot_mem {lotId : Nat} {lot : EntitlementLot} (h : t.findLot lotId = some lot) :
    lot ∈ t.lots ∧ lot.id = lotId :=
  ⟨List.mem_of_find?_eq_some h, of_decide_eq_true (List.find?_some h :)⟩

/-- Nothing is entered yet for a lot of no entry. -/
theorem unwritten_balance (lot : EntitlementLot) (h : ∀ f ∈ t.ledger, f.lotId ≠ lot.id) :
    t.availableBalance lot = lot.totalUnits ∧ t.expired lot.id = false := by
  have hDelta : t.ledgerDelta lot.id = 0 := Totals.total_eq_zero fun f hf hIn => absurd (of_decide_eq_true hIn) (h f hf)
  refine ⟨by rw [availableBalance, hDelta]; omega, List.any_eq_false.mpr fun f hf hIn => h f hf ?_⟩
  simpa using (Bool.and_eq_true_iff.mp hIn).1

theorem Settles.record (t : EntitlementTables) {f : LedgerFact} (hOpen : t.expired f.lotId = false) :
    t.Settles (t.record f) where
  later := (Extends.refl t).record f
  standing lotId hExpired := by
    rw [standing_record, if_neg, Int.add_zero]
    rintro rfl
    rw [hOpen] at hExpired
    cases hExpired
  taken := record_takes t fun _ => .inr fun hExpired => absurd (hOpen.symm.trans hExpired) Bool.false_ne_true

theorem Solvent.record (h : t.Solvent) {f : LedgerFact} {lot : EntitlementLot} (hLot : lot ∈ t.lots)
    (hId : f.lotId = lot.id) (hEnough : 0 ≤ t.availableBalance lot + f.quantityDelta) : (t.record f).Solvent := by
  intro other hOther
  rw [record_balance, hId]
  split
  case isTrue hSame => rwa [← List.inj_on_of_nodup_map t.lots_keyed hLot hOther hSame]
  case isFalse =>
    have hBefore := h other hOther
    omega

/-- Only lots and ledger are read. -/
theorem availableBalance_congr {lot : EntitlementLot} (hLedger : u.ledger = t.ledger) :
    u.availableBalance lot = t.availableBalance lot := by
  rw [availableBalance, ledgerDelta, hLedger]
  rfl

theorem Solvent.insert (h : t.Solvent) {lot : EntitlementLot} (hLots : u.lots = lot :: t.lots)
    (hLedger : u.ledger = t.ledger) (hUnwritten : ∀ f ∈ t.ledger, f.lotId ≠ lot.id) : u.Solvent := by
  rw [Solvent, hLots]
  refine List.forall_mem_cons.mpr ⟨?_, fun other hOther => ?_⟩
  · rw [availableBalance_congr hLedger, (unwritten_balance _ hUnwritten).1]
    omega
  · rw [availableBalance_congr hLedger]
    exact h other hOther

theorem Settles.insert {lot : EntitlementLot} (hLots : u.lots = lot :: t.lots) (hCoverage : u.coverage = t.coverage)
    (hLedger : u.ledger = t.ledger) : t.Settles u where
  later := ⟨fun other hOther => hLots ▸ List.mem_cons_of_mem _ hOther, [], hLedger⟩
  standing lotId _ := by
    rw [EntitlementTables.standing, ledgerDelta, EntitlementTables.restored, hLedger]
    rfl
  taken := .same hCoverage hLedger

end EntitlementTables

namespace Hotel

/-! ## What a command does to the lots -/

/-- No expired lot is drawn from and, where the plan of the command allows it, no lot is overdrawn. -/
structure Settled (fair : Prop) (hotel hotel' : Hotel) : Prop where
  settles : hotel.entitlement.Settles hotel'.entitlement
  solvent : fair → hotel.entitlement.Solvent → hotel'.entitlement.Solvent

theorem Settled.of_writes {fair : Prop} (hWrites : CoverageWrites orderId hotel.entitlement hotel'.entitlement)
    (hSettles : hotel.entitlement.Settles hotel'.entitlement)
    (hAffords : fair → hotel.entitlement.Affords hotel'.entitlement) : hotel.Settled fair hotel' :=
  ⟨hSettles, fun hFair hSolvent => hSolvent.afford hWrites.rights.lots hSettles (hAffords hFair)⟩

theorem Settled.still {fair : Prop} (hWrites : CoverageWrites orderId hotel.entitlement hotel'.entitlement)
    (hStill : hotel.entitlement.Still hotel'.entitlement) : hotel.Settled fair hotel' :=
  .of_writes hWrites (.of_still hWrites.extends hStill) fun _ => .of_le fun lotId => (hStill.standing lotId).ge

theorem Settled.same {fair : Prop} (h : hotel'.entitlement = hotel.entitlement) : hotel.Settled fair hotel' := by
  refine ⟨?_, fun _ => ?_⟩
  · rw [h]
    exact .refl _
  · rw [h]
    exact id

/-! ## Commands with a plan -/

theorem reconcileForOrder_settled (hSound : hotel.Sound) {order : StayOrder} {coverageSet : List CoveredNight}
    {reallocatable : List CoverageCandidate} {t : EntitlementTables}
    (hPlan : hotel.entitlement.PlanFunded orderId reallocatable coverageSet)
    (h : hotel.reconcileForOrder orderId commandId order coverageSet = .ok t) :
    hotel.entitlement.Settles t ∧
      ((∀ lotId, heldFrom reallocatable lotId ≤ hotel.entitlement.freed orderId coverageSet lotId) →
        hotel.entitlement.Affords t) := by
  obtain ⟨-, hReconciles⟩ | ⟨-, rfl⟩ := reconcileForOrder_eq_ok h
  · exact ⟨hReconciles.settles hSound.entitlement hPlan, hReconciles.affords hSound.entitlement hPlan⟩
  · exact ⟨.refl _, fun _ => .refl _⟩

theorem Settled.planned {fair : Prop} {coverageSet : List CoveredNight} {reallocatable : List CoverageCandidate}
    {order : StayOrder} {reconciled : EntitlementTables} (hSound : hotel.Sound)
    (hPlan : hotel.entitlement.PlanFunded orderId reallocatable coverageSet)
    (hFair : fair → ∀ lotId, heldFrom reallocatable lotId ≤ hotel.entitlement.freed orderId coverageSet lotId)
    (hReconcile : hotel.reconcileForOrder orderId commandId order coverageSet = .ok reconciled)
    (hWrites : CoverageWrites orderId reconciled hotel'.entitlement)
    (hStill : reconciled.Still hotel'.entitlement) : hotel.Settled fair hotel' := by
  obtain ⟨hSettles, hAffords⟩ := reconcileForOrder_settled hSound hPlan hReconcile
  exact .of_writes ((reconcileForOrder_writes hSound hReconcile).1.trans hWrites) (hSettles.still hWrites.extends hStill)
    fun hIs => (hAffords (hFair hIs)).still hStill

theorem heldFrom_nil (lotId : Nat) : heldFrom [] lotId = 0 := rfl

theorem consumeInHouse_still {order : StayOrder} {t u : EntitlementTables}
    (h : consumeInHouse t orderId commandId order = .ok u) : t.Still u := by
  unfold consumeInHouse at h
  split at h
  · exact consumeCoverage_still h
  · obtain rfl : t = u := by injection h
    exact .refl t

theorem consumeExtension_still {reschedule : Bool} {order : StayOrder} {dates : List Nat} {t u : EntitlementTables}
    (h : consumeExtension reschedule t orderId commandId order dates = .ok u) : t.Still u := by
  unfold consumeExtension at h
  split at h
  · exact consumeCoverage_still h
  · obtain rfl : t = u := by injection h
    exact .refl t

theorem consumeBackfill_still {order : StayOrder} {status : OrderStatus} {t u : EntitlementTables}
    (h : consumeBackfill t orderId commandId order status = .ok u) : t.Still u := by
  unfold consumeBackfill at h
  split at h
  · exact consumeCoverage_still h
  · obtain rfl : t = u := by injection h
    exact .refl t

theorem Created.settled (hSound : hotel.Sound) {request : CreateOrderRequest} {effect : CreateOrderEffect}
    {held : EntitlementTables} (h : hotel.Created cat orderId commandId request effect held hotel') (fair : Prop) :
    hotel.Settled fair hotel' := by
  obtain ⟨channel, pricing, decision, -, hPricing, -, -, hDecided⟩ := buildCreateOrder_eq_ok h.built
  have hNew := hSound.unknown h.fresh
  have hPlan : hotel.entitlement.PlanFunded orderId [] effect.decided.pricing.coverageSet := by
    rw [hDecided]
    exact priceQuote_funded hPricing hNew
  have hHeld : hotel.entitlement.Settles held ∧ hotel.entitlement.Affords held := by
    have hHold := h.hold
    unfold holdForOrder at hHold
    split at hHold
    · exact holdCoverage_settles hPlan hNew hHold
    · obtain rfl : hotel.entitlement = held := by injection hHold
      exact ⟨.refl _, .refl _⟩
  have hWritten := (holdForOrder_writes h.hold).1
  have hConsumed := (consumeBackfill_writes (CoverageWrites.ok hWritten hSound.entitlement) h.consume).1
  have hStill := consumeBackfill_still h.consume
  exact .of_writes (hWritten.trans hConsumed) (hHeld.1.still hConsumed.extends hStill) fun _ => hHeld.2.still hStill

/-- Every held night that stays in the plan of new dates keeps its unit. -/
def keepsHeldUnits (hotel : Hotel) (orderId : Nat) (request : DateChangeRequest) : Bool :=
  (hotel.orders orderId).all fun order =>
    match planStayDateChangeTimeline order.stay.stayTimeline order.stay.arrivalDate order.stay.departureDate
        request.newArrivalDate request.newDepartureDate with
    | .error _ => true
    | .ok timeline => (hotel.entitlement.activeCoverage orderId).all fun c =>
        c.status ≠ .held || !(request.newArrivalDate ≤ c.serviceDate && c.serviceDate < request.newDepartureDate) ||
          timeline.contains ⟨c.serviceDate, c.inventoryUnitId⟩

theorem buildDateChange_eq_ok {reschedule : Bool} {order : StayOrder} {request : DateChangeRequest}
    {effect : DateChangeEffect} (h : hotel.buildDateChange cat reschedule orderId order request = .ok effect) :
    ∃ timeline pricing decision,
      planStayDateChangeTimeline order.stay.stayTimeline order.stay.arrivalDate order.stay.departureDate
        request.newArrivalDate request.newDepartureDate = .ok timeline ∧
      effect.after = ⟨request.newArrivalDate, request.newDepartureDate, timeline⟩ ∧
      hotel.dateChangePricing cat reschedule orderId order effect.after = .ok pricing ∧
      effect.decided = .of pricing decision := by
  simp only [buildDateChange, decideStayChange, bind_eq_ok, mapError_eq_ok, pure_eq_ok] at h
  obtain ⟨_, -, _, -, dates, -, timeline, hTimeline, _, -, _, -, pricing, hPricing, _, -, _, ⟨decision, -, rfl⟩, rfl⟩ := h
  exact ⟨timeline, pricing, decision, hTimeline, rfl, hPricing, rfl⟩

theorem temporarySubset_funded (hSound : hotel.Sound) {arrangement : TemporaryOtherRoomArrangement}
    {timeline : List StayTimelineItem} {newDates : List Nat} {currency : CurrencyCode} {pricing : PricingResult}
    (h : temporaryOtherRoomSubsetPricing arrangement (hotel.entitlement.activeCoverage orderId) timeline newDates
      currency = .ok pricing) : hotel.entitlement.PlanFunded orderId [] pricing.coverageSet := by
  simp only [temporaryOtherRoomSubsetPricing, bind_eq_ok, pure_eq_ok] at h
  obtain ⟨_, -, rfl⟩ := h
  refine ⟨?_, hotel.entitlement.activeCoverageCandidates orderId,
    .own (fun _ hc => hc) activeCoverageCandidates_status, fun night hNight => ?_⟩
  · rw [List.map_map]
    exact (hSound.entitlement.activeCoverage_dates orderId).sublist (List.filter_sublist.map _)
  · obtain ⟨c, hc, rfl⟩ := List.mem_map.mp hNight
    exact ⟨c.candidate, List.mem_map_of_mem (List.mem_of_mem_filter hc), rfl, rfl⟩

theorem heldFrom_reallocatable {rows : List CoverageItem} {after : StayInterval} {coverageSet : List CoveredNight}
    (hRows : rows = hotel.entitlement.activeCoverage orderId)
    (hInside : ∀ date ∈ coverageSet.map CoveredNight.serviceDate, after.arrivalDate ≤ date ∧ date < after.departureDate)
    (hKept : ∀ c ∈ rows, c.status = .held → after.arrivalDate ≤ c.serviceDate → c.serviceDate < after.departureDate →
      ⟨c.serviceDate, c.inventoryUnitId⟩ ∈ after.stayTimeline) (lotId : Nat) :
    heldFrom (reallocatable rows after.stayTimeline) lotId ≤ hotel.entitlement.freed orderId coverageSet lotId := by
  subst hRows
  rw [heldFrom, reallocatable, List.countP_map, List.countP_filter]
  refine List.countP_mono_left fun c hc hIn => ?_
  simp only [Function.comp_apply, CoverageItem.candidate, Bool.and_eq_true, decide_eq_true_eq, Option.some.injEq,
    Bool.not_eq_true', List.contains_eq_mem, decide_eq_false_iff_not] at hIn ⊢
  obtain ⟨⟨hHeld, hLot⟩, -, hMoved⟩ := hIn
  refine ⟨⟨hHeld, of_decide_eq_true hLot⟩, fun hDate => hMoved ?_⟩
  obtain ⟨hFrom, hTo⟩ := hInside c.serviceDate hDate
  exact hKept c hc hHeld hFrom hTo

theorem DatesChanged.settled (hSound : hotel.Sound) {reschedule : Bool} {request : DateChangeRequest}
    {order : StayOrder} {effect : DateChangeEffect} {reconciled : EntitlementTables}
    (h : hotel.DatesChanged cat reschedule orderId commandId request order effect reconciled hotel') :
    hotel.Settled (reschedule = true → hotel.keepsHeldUnits orderId request = true) hotel' := by
  obtain ⟨timeline, pricing, decision, hTimeline, hAfter, hPricing, hDecided⟩ := buildDateChange_eq_ok h.built
  have hReconcile := h.reconcile
  have hConsumed := (consumeExtension_writes
    (CoverageWrites.ok (reconcileForOrder_writes hSound hReconcile).1 hSound.entitlement) h.consume).1
  have hStill := consumeExtension_still h.consume
  rw [hDecided] at hReconcile
  unfold dateChangePricing at hPricing
  split at hPricing
  · simp only [bind_eq_ok] at hPricing
    obtain ⟨revision, -, hSubset⟩ := hPricing
    exact .planned hSound (temporarySubset_funded hSound hSubset) (fun _ lotId => Nat.zero_le _) hReconcile hConsumed
      hStill
  · obtain ⟨hPlan, hInside⟩ := priceStayTimeline_funded hPricing
    refine .planned hSound hPlan (fun hFair lotId => ?_) hReconcile hConsumed hStill
    cases reschedule with
    | false => exact Nat.zero_le _
    | true =>
      have hKeeps := hFair rfl
      simp only [keepsHeldUnits, h.loaded, hTimeline, Option.all_some, List.all_eq_true, Bool.or_eq_true,
        Bool.not_eq_true', Bool.and_eq_false_iff, decide_eq_true_eq, decide_eq_false_iff_not, List.contains_iff_mem]
        at hKeeps
      refine heldFrom_reallocatable rfl hInside (fun c hc hHeld hFrom hTo => ?_) lotId
      rw [hAfter] at hFrom hTo ⊢
      obtain (hOther | hOut | hOut) | hIn := hKeeps c hc
      · exact absurd hHeld hOther
      · exact absurd hFrom hOut
      · exact absurd hTo hOut
      · exact hIn

theorem stayPricing_funded {order : StayOrder} {stay : StayInterval} {pricing : PricingResult}
    (h : hotel.stayPricing cat orderId order stay = .ok pricing) :
    hotel.entitlement.PlanFunded orderId [] pricing.coverageSet :=
  (priceStayTimeline_funded h).1

theorem buildMove_eq_ok {view : ClaimView} {order : StayOrder} {request : MoveRequest} {effect : MoveEffect}
    (h : hotel.buildMove cat view orderId order request = .ok effect) : ∃ stay pricing decision,
      hotel.stayPricing cat orderId order stay = .ok pricing ∧ effect.decided = .of pricing decision := by
  simp only [buildMove, decideStayChange, bind_eq_ok, mapError_eq_ok, pure_eq_ok] at h
  obtain ⟨_, -, _, -, unit, -, _, -, _, -, _, -, current, -, _, -, _, -, _, -, pricing, hPricing, _, ⟨decision, -, rfl⟩, _,
    -, _, -, rfl⟩ := h
  exact ⟨_, pricing, decision, hPricing, rfl⟩

theorem Moved.settled (hSound : hotel.Sound) {blocked : Nat → List Nat → Bool} {request : MoveRequest}
    {order : StayOrder} {effect : MoveEffect}
    (h : hotel.Moved cat blocked orderId commandId request order effect hotel') (fair : Prop) :
    hotel.Settled fair hotel' := by
  obtain ⟨stay, pricing, decision, hPricing, hDecided⟩ := buildMove_eq_ok h.built
  obtain ⟨-, hSame⟩ | ⟨-, hReconcile⟩ := moveCoverage_eq_ok h.coverage
  · exact .same hSame
  · rw [hDecided] at hReconcile
    exact .planned hSound (stayPricing_funded hPricing) (fun _ lotId => Nat.zero_le _) hReconcile .refl (.refl _)

theorem Priced.settled (hSound : hotel.Sound) {command : CommandType} {order : StayOrder} {pricing : PricingResult}
    {reconciled : EntitlementTables} (h : hotel.Priced command orderId commandId order pricing reconciled hotel')
    (hPlan : hotel.entitlement.PlanFunded orderId [] pricing.coverageSet) (fair : Prop) :
    hotel.Settled fair hotel' := by
  have hReconciled := (reconcileForOrder_writes hSound h.reconcile).1
  exact .planned hSound hPlan (fun _ lotId => Nat.zero_le _) h.reconcile
    (consumeInHouse_writes (CoverageWrites.ok hReconciled hSound.entitlement) h.consume).1
    (consumeInHouse_still h.consume)

theorem buildReprice_funded {order : StayOrder} {target : Int} {pricing : PricingResult}
    (h : hotel.buildReprice cat orderId order target = .ok pricing) :
    hotel.entitlement.PlanFunded orderId [] pricing.coverageSet := by
  simp only [buildReprice, bind_eq_ok, pure_eq_ok] at h
  obtain ⟨_, -, _, -, _, -, amount, -, _, -, policyPricing, hPricing, rfl⟩ := h
  have hPlan := stayPricing_funded hPricing
  exact ⟨hPlan.dates, hPlan.funded⟩

theorem buildRefresh_funded {order : StayOrder} {pricing : PricingResult}
    (h : hotel.buildRefresh cat orderId order = .ok pricing) :
    hotel.entitlement.PlanFunded orderId [] pricing.coverageSet := by
  simp only [buildRefresh, bind_eq_ok] at h
  obtain ⟨_, -, _, -, _, -, _, -, hPricing⟩ := h
  exact stayPricing_funded hPricing

/-! ## REVOKE_CHECK_OUT -/

theorem assertReconsumable_eq_ok {order : StayOrder} {desired : List CoveredNight} {lotId : Nat}
    (h : hotel.assertReconsumable order desired lotId = .ok ()) : hotel.entitlement.expired lotId = false ∧
      (desired.countP fun night => night.entitlementLotId = lotId : Int) ≤ hotel.entitlement.lotBalance lotId := by
  simp only [assertReconsumable, bind_eq_ok, require_eq_ok, expect_eq_ok] at h
  obtain ⟨lot, hLot, contract, -, _, ⟨-, -, -, hOpen, -⟩, balance, hBalance, hEnough⟩ := h
  obtain ⟨rfl, -⟩ := boundedBalance_eq_ok hBalance
  obtain ⟨hMem, rfl⟩ := findLot_mem hLot
  refine ⟨unexpired_expired hOpen, ?_⟩
  rw [lotBalance_eq hMem, List.countP_eq_length_filter]
  exact hEnough

structure ReversalPlanned (hotel : Hotel) (orderId : Nat) (plan : CheckoutReversalPlan) : Prop where
  dates : (plan.coverageSet.map CoveredNight.serviceDate).Nodup
  active : ∀ c ∈ hotel.entitlement.activeCoverage orderId,
    c.status = .consumed ∧ (desiredOn plan.coverageSet c.serviceDate).any c.sameNight = true
  reconsume : plan.reconsumeCoverage = plan.coverageSet.filter fun night =>
    !(hotel.entitlement.activeCoverage orderId).any fun c => c.serviceDate = night.serviceDate

theorem loadCheckoutReversalPlan_eq_ok {order : StayOrder} {plan : CheckoutReversalPlan}
    (h : hotel.loadCheckoutReversalPlan orderId order = .ok plan) : hotel.ReversalPlanned orderId plan := by
  simp only [loadCheckoutReversalPlan, bind_eq_ok, require_eq_ok, expect_eq_ok, pure_eq_ok] at h
  obtain ⟨_, -, checkout, -, _, -, ⟨arrangement, revision⟩, -, _, -, _, hDates, _, hActive, rfl⟩ := h
  exact ⟨hDates.1, hActive, rfl⟩

/-- A night that the order still has is from the lot that it was consumed from. -/
theorem ReversalPlanned.same_lot {plan : CheckoutReversalPlan} (h : hotel.ReversalPlanned orderId plan)
    {c : CoverageItem} {night : CoveredNight} (hc : c ∈ hotel.entitlement.activeCoverage orderId)
    (hNight : night ∈ plan.coverageSet) (hDate : c.serviceDate = night.serviceDate) :
    c.lotId = night.entitlementLotId := by
  obtain ⟨desired, hDesired, hSame⟩ := Option.any_eq_true _ _ |>.mp (h.active c hc).2
  have hMem := List.mem_of_find?_eq_some hDesired
  have hOn : desired.serviceDate = c.serviceDate := of_decide_eq_true (List.find?_some hDesired :)
  obtain rfl := List.inj_on_of_nodup_map h.dates hMem hNight (hOn.trans hDate)
  simp only [CoverageItem.sameNight, Bool.and_eq_true, decide_eq_true_eq] at hSame
  exact hSame.2

def reconsumed (night : CoveredNight) : CoverageCandidate :=
  ⟨night.serviceDate, night.entitlementLotId, none, none, none⟩

theorem ReversalPlanned.funded {order : StayOrder} {plan : CheckoutReversalPlan}
    (h : hotel.ReversalPlanned orderId plan)
    (hReconsumable : ∀ lotId ∈ plan.reconsumeCoverage.map CoveredNight.entitlementLotId,
      hotel.assertReconsumable order plan.reconsumeCoverage lotId = .ok ()) :
    hotel.entitlement.PlanFunded orderId [] plan.coverageSet := by
  have hLots : ∀ night ∈ plan.reconsumeCoverage, hotel.entitlement.expired night.entitlementLotId = false ∧
      (plan.reconsumeCoverage.countP fun other => other.entitlementLotId = night.entitlementLotId : Int) ≤
        hotel.entitlement.lotBalance night.entitlementLotId :=
    fun night hNight => assertReconsumable_eq_ok (hReconsumable _ (List.mem_map_of_mem hNight))
  have hDrawn : hotel.entitlement.Funded (hotel.entitlement.activeCoverageCandidates orderId) []
      (plan.reconsumeCoverage.map reconsumed) := by
    refine ⟨fun c hc hSome => ?_, fun c hc _ => ?_, fun lotId => ?_⟩
    · obtain ⟨night, -, rfl⟩ := List.mem_map.mp hc
      exact absurd rfl hSome
    · obtain ⟨night, hNight, rfl⟩ := List.mem_map.mp hc
      exact (hLots night hNight).1
    · have hCount : drawnOf (plan.reconsumeCoverage.map reconsumed) lotId =
          plan.reconsumeCoverage.countP fun night => night.entitlementLotId = lotId := by
        rw [drawnOf, List.countP_map]
        refine List.countP_congr fun night _ => ?_
        rw [Function.comp_apply, Bool.and_eq_true]
        exact ⟨fun hIn => hIn.2, fun hIn => ⟨rfl, hIn⟩⟩
      rw [hCount, heldFrom_nil]
      by_cases hSome : ∃ night ∈ plan.reconsumeCoverage, night.entitlementLotId = lotId
      · obtain ⟨night, hNight, rfl⟩ := hSome
        have hEnough := (hLots night hNight).2
        omega
      · have hNone : (plan.reconsumeCoverage.countP fun night => decide (night.entitlementLotId = lotId)) = 0 :=
          List.countP_eq_zero.mpr fun night hNight hIn => hSome ⟨night, hNight, of_decide_eq_true hIn⟩
        rw [hNone]
        exact le_max_left ..
  refine ⟨h.dates, _, hDrawn.append (fun _ hc => hc) activeCoverageCandidates_status, fun night hNight => ?_⟩
  by_cases hOwn : ∃ c ∈ hotel.entitlement.activeCoverage orderId, c.serviceDate = night.serviceDate
  · obtain ⟨c, hc, hDate⟩ := hOwn
    exact ⟨c.candidate, List.mem_append_left _ (List.mem_map_of_mem hc), hDate, h.same_lot hc hNight hDate⟩
  · refine ⟨reconsumed night, List.mem_append_right _ (List.mem_map_of_mem ?_), rfl, rfl⟩
    rw [h.reconsume, List.mem_filter, Bool.not_eq_true', List.any_eq_false]
    exact ⟨hNight, fun c hc hDate => hOwn ⟨c, hc, of_decide_eq_true hDate⟩⟩

theorem Revoked.settled (hSound : hotel.Sound) {order : StayOrder} {plan : CheckoutReversalPlan}
    (h : hotel.Revoked orderId commandId order plan hotel') (fair : Prop) : hotel.Settled fair hotel' := by
  have hPlan : hotel.entitlement.PlanFunded (order.owner orderId).orderId [] plan.coverageSet :=
    (loadCheckoutReversalPlan_eq_ok h.planned).funded h.reconsumable
  obtain ⟨-, hSame⟩ | ⟨-, reconciled, hReconciles, hConsumed⟩ := reconsume_eq_ok h.reconsume
  · exact .same hSame
  · have hReconcile := hReconciles.writes hSound.entitlement
    have hWrites := consumeCoverage_writes (CoverageWrites.ok hReconcile hSound.entitlement) hConsumed
    have hStill := consumeCoverage_still hConsumed
    exact .of_writes (hReconcile.trans hWrites)
      ((hReconciles.settles hSound.entitlement hPlan).still hWrites.extends hStill)
      fun _ => (hReconciles.affords hSound.entitlement hPlan fun lotId => Nat.zero_le _).still hStill

/-! ## Conversion -/

theorem convertNight_standing (inHouse : Bool) (orderId commandId : Nat) (conversion : MembershipConversion) (t : EntitlementTables)
    (item : StayTimelineItem) (lotId : Nat) : (convertNight inHouse orderId commandId conversion t item).standing lotId =
      t.standing lotId + if conversion.entitlementLotId = lotId then -1 else 0 := by
  unfold convertNight
  split
  · exact standing_record t ((t.newItem orderId conversion.contractId (convertedNight conversion item) .consumed).fact
      .conversionConsume (-1) conversionReason commandId) lotId
  · exact standing_record ..

theorem convertNight_takes {P : Nat → Option Nat → Option Nat → Prop} (inHouse : Bool) (orderId commandId : Nat)
    (conversion : MembershipConversion) (t : EntitlementTables) (item : StayTimelineItem)
    (hNight : P conversion.entitlementLotId (some orderId) (some item.serviceDate)) :
    t.Takes P (convertNight inHouse orderId commandId conversion t item) := by
  unfold convertNight
  split
  · exact insert_takes rfl rfl rfl hNight
  · exact record_takes t fun _ => .inr hNight

theorem buildConversion_lot {order : StayOrder} {request : ConversionRequest} {effect : ConversionEffect}
    (h : hotel.buildConversion cat order request = .ok effect) :
    effect.conversion.entitlementLotId = request.stamp.lotId ∧
      order.stay.stayTimeline.length ≤ request.product.entitlementUnits := by
  simp only [buildConversion, bind_eq_ok, require_eq_ok, expect_eq_ok, pure_eq_ok] at h
  obtain ⟨_, -, _, -, _, -, _, -, _, hUnits, timeline, -, _, -, revision, -, rfl⟩ := h
  rw [StayOrder.dates, List.length_map] at hUnits
  exact ⟨rfl, hUnits⟩

theorem Converted.settled (hSound : hotel.Sound) {request : ConversionRequest} {order : StayOrder}
    {effect : ConversionEffect} {membership : EntitlementTables}
    (h : hotel.Converted cat orderId commandId request order effect membership hotel') (fair : Prop) :
    hotel.Settled fair hotel' := by
  obtain ⟨hLot, hUnits⟩ := buildConversion_lot h.built
  have hInserted := h.inserted
  obtain ⟨hMembership, hRevises⟩ := h.revises hSound
  have hStanding : ∀ lotId, hotel'.entitlement.standing lotId = membership.standing lotId -
      if request.stamp.lotId = lotId then (order.stay.stayTimeline.length : Int) else 0 := by
    intro lotId
    have hLoop := foldl_standing (p := fun _ : StayTimelineItem => decide (request.stamp.lotId = lotId)) (n := -1)
      (fun u item => (convertNight_standing (order.status = .checkedIn) orderId commandId
        effect.conversion u item lotId).trans (by simp [hLot])) order.stay.stayTimeline membership
    rw [h.entitlement, hLoop]
    by_cases hSame : request.stamp.lotId = lotId
    · simp only [hSame, decide_true, List.countP_true, if_true]
      omega
    · have hNone : (order.stay.stayTimeline.countP fun _ => decide (request.stamp.lotId = lotId)) = 0 :=
        List.countP_eq_zero.mpr fun _ _ hIn => hSame (of_decide_eq_true hIn)
      rw [hNone, if_neg hSame]
      omega
  have hLots : hotel'.entitlement.lots = membershipLot request.stamp request.product request.memberId ::
      hotel.entitlement.lots := hRevises.writes.rights.lots.trans hInserted.lots
  have hUnwritten : ∀ f ∈ membership.ledger, f.lotId ≠ request.stamp.lotId := by
    rw [hInserted.ledger]
    exact hInserted.unwritten
  have hNew := unwritten_balance (membershipLot request.stamp request.product request.memberId) hUnwritten
  have hOpened : hotel.entitlement.Settles membership := .insert hInserted.lots hInserted.coverage hInserted.ledger
  have hTaken : membership.Takes membership.Kept hotel'.entitlement := by
    rw [h.entitlement]
    refine foldl_takes (fun u item _ => convertNight_takes _ orderId commandId effect.conversion u item ?_) membership
    intro hExpired
    rw [hLot] at hExpired
    exact absurd (hNew.2.symm.trans hExpired) Bool.false_ne_true
  refine ⟨hOpened.trans ⟨hRevises.writes.extends, fun lotId hExpired => ?_, hTaken⟩, fun _ hSolvent lot hIn => ?_⟩
  · have hOther : request.stamp.lotId ≠ lotId := by
      rintro rfl
      exact Bool.false_ne_true (hNew.2.symm.trans hExpired)
    rw [hStanding, if_neg hOther, Int.sub_zero]
  · have hRestored := hRevises.writes.extends.restored lot.id
    have hBefore := membership.availableBalance_eq lot
    rw [availableBalance_eq, hStanding]
    rw [hLots] at hIn
    obtain rfl | hOld := List.mem_cons.mp hIn
    · rw [hNew.1] at hBefore
      rw [if_pos (show request.stamp.lotId = (membershipLot request.stamp request.product request.memberId).id from rfl)]
      have hTotal : (membershipLot request.stamp request.product request.memberId).totalUnits =
        request.product.entitlementUnits := rfl
      rw [hTotal] at hBefore ⊢
      change membership.restored _ ≤ hotel'.entitlement.restored _ at hRestored
      omega
    · rw [if_neg (hInserted.fresh lot hOld).symm]
      have hEnough := hSolvent lot hOld
      rw [← availableBalance_congr (t := hotel.entitlement) (u := membership) hInserted.ledger] at hEnough
      change membership.restored _ ≤ hotel'.entitlement.restored _ at hRestored
      omega

/-! ## Every command -/

theorem checkIn_settled (hSound : hotel.Sound) (h : hotel.checkIn orderId commandId = .ok hotel') (fair : Prop) :
    hotel.Settled fair hotel' := by
  simp only [checkIn, bind_eq_ok, loadOrder_eq_ok, require_eq_ok, pure_eq_ok] at h
  obtain ⟨order, hOrder, _, -, _, -, _, -, entitlement, hConsumed, rfl⟩ := h
  exact .still (consumeCoverage_writes hSound.entitlement hConsumed) (consumeCoverage_still hConsumed)

theorem completeStay_settled (hSound : hotel.Sound) (h : hotel.completeStay orderId commandId = .ok hotel')
    (fair : Prop) : hotel.Settled fair hotel' := by
  simp only [completeStay, bind_eq_ok, loadOrder_eq_ok, require_eq_ok, pure_eq_ok] at h
  obtain ⟨order, hOrder, _, -, _, -, _, -, _, -, entitlement, hConsumed, rfl⟩ := h
  exact .still (consumeCoverage_writes hSound.entitlement hConsumed) (consumeCoverage_still hConsumed)

theorem closeReserved_settled (hSound : hotel.Sound) {noShow evening : Bool}
    (h : hotel.closeReserved noShow evening orderId commandId = .ok hotel') (fair : Prop) :
    hotel.Settled fair hotel' := by
  simp only [closeReserved, bind_eq_ok, loadOrder_eq_ok, require_eq_ok, pure_eq_ok] at h
  obtain ⟨order, hOrder, _, -, _, -, revised, hRevised, rfl⟩ := h
  have hWrites := releaseCoverage_writes hSound.entitlement orderId commandId ⟨none, none, []⟩
  exact .of_writes hWrites
    ⟨hWrites.extends, fun lotId hExpired => (releaseCoverage_standing _ orderId commandId lotId).2 hExpired,
      releaseCoverage_takes _ orderId commandId _⟩
    fun _ => .of_le fun lotId => (releaseCoverage_standing _ orderId commandId lotId).1

theorem revokeCheckIn_settled (hSound : hotel.Sound) (h : hotel.revokeCheckIn orderId commandId = .ok hotel')
    (fair : Prop) : hotel.Settled fair hotel' := by
  simp only [revokeCheckIn, bind_eq_ok, loadOrder_eq_ok, require_eq_ok, pure_eq_ok] at h
  obtain ⟨order, hOrder, _, -, _, -, _, -, _, -, revised, hRevised, entitlement, hRestored, rfl⟩ := h
  exact .still (restoreConsumedCoverage_writes hSound.entitlement hRestored)
    (restoreConsumedCoverage_still hRestored)

theorem activateMembershipOrder_settled {stamp : MembershipStamp} {product : MembershipProduct} {memberId validFrom : Nat}
    (h : hotel.activateMembershipOrder stamp product memberId validFrom = .ok hotel') (fair : Prop) :
    hotel.Settled fair hotel' := by
  obtain ⟨entitlement, hInserted, rfl⟩ := activateMembershipOrder_eq_ok h
  exact ⟨.insert hInserted.lots hInserted.coverage hInserted.ledger,
    fun _ hSolvent => hSolvent.insert hInserted.lots hInserted.ledger hInserted.unwritten⟩

theorem addEntitlementLot_settled {lotId contractId : Nat} {unitKind : EntitlementUnitKind} {units expiresOn : Nat}
    (h : hotel.addEntitlementLot commandId lotId contractId unitKind units expiresOn = .ok hotel') (fair : Prop) :
    hotel.Settled fair hotel' := by
  obtain ⟨entitlement, hInserted, rfl⟩ := addEntitlementLot_eq_ok h
  have hUnwritten : ∀ f ∈ entitlement.ledger, f.lotId ≠ lotId := by
    rw [hInserted.ledger]
    exact hInserted.unwritten
  have hNew := unwritten_balance ⟨lotId, contractId, unitKind, 0, expiresOn, true, none⟩ hUnwritten
  refine ⟨(Settles.insert hInserted.lots hInserted.coverage hInserted.ledger).trans (.record _ hNew.2), fun _ hSolvent => ?_⟩
  have hInsertedSolvent := hSolvent.insert hInserted.lots hInserted.ledger hInserted.unwritten
  refine hInsertedSolvent.record (hInserted.lots ▸ List.mem_cons_self) rfl ?_
  rw [hNew.1]
  exact Int.add_nonneg (Int.natCast_nonneg _) (Int.natCast_nonneg _)

theorem adjustEntitlement_settled {lotId : Nat} {quantityDelta : Int} {reason : String}
    (h : hotel.adjustEntitlement commandId lotId quantityDelta reason = .ok hotel') (fair : Prop) :
    hotel.Settled fair hotel' := by
  obtain ⟨lot, hAdjusted⟩ := adjustEntitlement_eq_ok h
  obtain ⟨hLot, rfl⟩ := findLot_mem hAdjusted.found
  rw [hAdjusted.result]
  exact ⟨.record _ hAdjusted.unexpired, fun _ hSolvent => hSolvent.record hLot rfl hAdjusted.nonneg⟩

theorem expireEntitlement_settled {lotId asOf : Nat} (h : hotel.expireEntitlement commandId lotId asOf = .ok hotel')
    (fair : Prop) : hotel.Settled fair hotel' := by
  obtain ⟨lot, hExpired⟩ := expireEntitlement_eq_ok h
  obtain ⟨hLot, rfl⟩ := findLot_mem hExpired.found
  rw [hExpired.result]
  refine ⟨.record _ hExpired.unexpired, fun _ hSolvent => hSolvent.record hLot rfl ?_⟩
  rw [show (lotFact lot.id .expire (-hotel.entitlement.availableBalance lot) "ENTITLEMENT_EXPIRED" commandId).quantityDelta =
    -hotel.entitlement.availableBalance lot from rfl]
  omega

/-- A stay is rescheduled so that each held night that it keeps stays in its unit. -/
def keepsUnits (hotel : Hotel) : HotelCommand → Bool
  | .rescheduleStay orderId request => hotel.keepsHeldUnits orderId request
  | _ => true

theorem Settled.mono {fair wide : Prop} (h : hotel.Settled fair hotel') (hFair : wide → fair) :
    hotel.Settled wide hotel' :=
  ⟨h.settles, fun hIs => h.solvent (hFair hIs)⟩

theorem execute_settled (hSound : hotel.Sound) {command : HotelCommand}
    (h : hotel.execute cat commandId command = .ok hotel') :
    hotel.Settled (hotel.keepsUnits command = true) hotel' := by
  cases command with
  | createOrder orderId request =>
    obtain ⟨effect, held, hCreated⟩ := createOrder_eq_ok h
    exact hCreated.settled hSound _
  | rescheduleStay orderId request =>
    obtain ⟨order, effect, reconciled, hChanged⟩ := changeDates_eq_ok h
    exact (hChanged.settled hSound).mono fun hKeeps _ => hKeeps
  | extendStay orderId request =>
    obtain ⟨order, effect, reconciled, hChanged⟩ := changeDates_eq_ok h
    exact (hChanged.settled hSound).mono fun _ hIs => absurd hIs Bool.false_ne_true
  | shortenStay orderId request =>
    obtain ⟨order, effect, hShortened⟩ := shortenStay_eq_ok h
    exact .still (restoreFutureConsumedCoverage_writes hSound.entitlement hShortened.restore)
      (restoreFutureConsumedCoverage_still hShortened.restore)
  | moveUnit orderId blocked request =>
    obtain ⟨order, effect, hMoved⟩ := moveUnit_eq_ok h
    exact hMoved.settled hSound _
  | repriceOrder orderId target =>
    obtain ⟨order, pricing, reconciled, hBuilt, hPriced⟩ := repriceOrder_eq_ok h
    exact hPriced.settled hSound (buildReprice_funded hBuilt) _
  | refreshMemberCoverage orderId =>
    obtain ⟨order, pricing, reconciled, hBuilt, hPriced⟩ := refreshMemberCoverage_eq_ok h
    exact hPriced.settled hSound (buildRefresh_funded hBuilt) _
  | checkIn orderId => exact checkIn_settled hSound h _
  | checkOut orderId =>
    obtain ⟨order', hRevises⟩ := checkOut_revises h
    simp only [execute, checkOut, bind_eq_ok, pure_eq_ok] at h
    obtain ⟨order, -, _, -, _, -, _, -, rfl⟩ := h
    exact .same rfl
  | completeStay orderId => exact completeStay_settled hSound h _
  | cancelOrder orderId => exact closeReserved_settled hSound h _
  | markNoShow orderId evening => exact closeReserved_settled hSound h _
  | revokeCheckIn orderId => exact revokeCheckIn_settled hSound h _
  | revokeCheckOut orderId =>
    obtain ⟨order, plan, hRevoked⟩ := revokeCheckOut_eq_ok h
    exact hRevoked.settled hSound _
  | amendOnly type orderId =>
    simp only [execute, amendOnly, bind_eq_ok, pure_eq_ok] at h
    obtain ⟨order, -, _, -, rfl⟩ := h
    exact .same rfl
  | convertStay orderId request =>
    obtain ⟨order, effect, membership, hConverted⟩ := convertStay_eq_ok h
    exact hConverted.settled hSound _
  | createMember memberId =>
    simp only [execute, createMember, bind_eq_ok, require_eq_ok, pure_eq_ok] at h
    obtain ⟨_, -, rfl⟩ := h
    exact ⟨⟨⟨fun _ hLot => hLot, [], rfl⟩, fun _ _ => rfl, .same rfl rfl⟩, fun _ hSolvent => hSolvent⟩
  | activateMembershipOrder stamp product memberId validFrom => exact activateMembershipOrder_settled h _
  | addEntitlementLot lotId contractId unitKind units expiresOn => exact addEntitlementLot_settled h _
  | adjustEntitlement lotId quantityDelta reason => exact adjustEntitlement_settled h _
  | expireEntitlement lotId asOf => exact expireEntitlement_settled h _

end Hotel

def HotelState.keepsUnits (s : HotelState) : HotelEvent → Bool
  | .command command => s.hotel.keepsUnits command
  | _ => true

theorem HotelState.apply_settled {s s' : HotelState} {event : HotelEvent} (hSound : s.hotel.Sound)
    (h : s.apply cat event = .ok s') : s.hotel.Settled (s.keepsUnits event = true) s'.hotel := by
  cases event with
  | command command =>
    simp only [HotelState.apply, bind_eq_ok, pure_eq_ok] at h
    obtain ⟨hotel, hExecute, rfl⟩ := h
    exact Hotel.execute_settled hSound hExecute
  | publishPolicy policyVersionId published =>
    simp only [HotelState.apply, bind_eq_ok, require_eq_ok, pure_eq_ok] at h
    obtain ⟨_, -, rfl⟩ := h
    exact .same rfl
  | _ =>
    cases h
    exact .same rfl

/-! ## Runs -/

/-- The ledger accounts for every night: each lot has what was put into it less the nights taken, the
entries of an item are its night while it is taken and afterwards nothing, or the night that lapsed with
its release, each item is taken and lapses at most once, and an order has at most one item for a date. -/
structure Hotel.Accounted (hotel : Hotel) : Prop where
  balance : ∀ lot ∈ hotel.entitlement.lots, hotel.entitlement.availableBalance lot =
    lot.totalUnits + hotel.entitlement.entered lot.id .adjust + hotel.entitlement.entered lot.id .expire -
      (hotel.entitlement.coveredNights lot.id + hotel.entitlement.conversionNights lot.id)
  taken : ∀ c ∈ hotel.entitlement.coverage,
    hotel.entitlement.coverageDelta c.id =
      if hotel.entitlement.live c then -1 else -(hotel.entitlement.entries c.id [.expire] : Int)
  lapsed : ∀ c ∈ hotel.entitlement.coverage, hotel.entitlement.entries c.id [.expire] ≤ 1 ∧
    (c.isActive = true → hotel.entitlement.entries c.id [.expire] = 0)
  consumed : ∀ c ∈ hotel.entitlement.coverage, hotel.entitlement.entries c.id consumption ≤ 1 ∧
    hotel.entitlement.entries c.id [.restore] ≤ 1 ∧ (c.status = .held → hotel.entitlement.entries c.id consumption = 0 ∧
      hotel.entitlement.entries c.id [.restore] = 0)
  orders : ∀ c ∈ hotel.entitlement.coverage, ∃ order, hotel.orders c.orderId = some order ∧ order.memberStay = true
  single : ∀ c ∈ hotel.entitlement.coverage, ∀ d ∈ hotel.entitlement.coverage, c.orderId = d.orderId →
    c.serviceDate = d.serviceDate → c.isActive = true → d.isActive = true → c = d

/-- The ledger of a property accounts for every night, whatever commands it has carried out. -/
theorem entitlement_ledger_conserved (cat : UnitCatalog) (s : HotelState) (h : Reachable (hotelSystem cat) s) :
    s.hotel.Accounted := by
  have hSound := reachable_sound h
  refine ⟨fun lot _ => hSound.entitlement.balance_eq lot, fun c hc => ?_, fun c hc => ?_, fun c hc => ?_, hSound.rows,
    hSound.entitlement.single⟩
  · exact (hSound.entitlement.items c hc).delta
  · have hItem := hSound.entitlement.items c hc
    exact ⟨hItem.lapsed, hItem.kept⟩
  · have hItem := hSound.entitlement.items c hc
    exact ⟨hItem.consumed, hItem.restored, hItem.held⟩

def sampleLateBooking (unitId arrivalDate : Nat) : CreateOrderRequest :=
  let booking := sampleBooking (some 1) (some 1) none
  { booking with quote := { booking.quote with
    inventoryUnitId := unitId
    arrivalDate := arrivalDate
    departureDate := 376 } }

/-- A year after joining, a member books the last nights of the membership twice and does not come. -/
def sampleYear : List HotelEvent :=
  .command (.activateMembershipOrder ⟨1, 1, 1, 375⟩ ⟨.roomNight, 4, 3, .room⟩ 1 10) :: (List.replicate 364 .nextDay ++
    [.command (.createOrder 1 (sampleLateBooking 5 374)), .command (.createOrder 2 (sampleLateBooking 6 375)), .nextDay,
      .nextDay])

/-- The bookings are closed once the lot has expired, so that their nights lapse. -/
def sampleAftermath : List HotelEvent := [.command (.cancelOrder 1), .command (.markNoShow 2 false)]

set_option maxRecDepth 4000 in
theorem sampleYear_done : ∃ s expired later,
    sampleYear.foldlM (HotelState.apply sampleHouse) sampleOpening = .ok s ∧
    s.apply sampleHouse (.command (.expireEntitlement 1 376)) = .ok expired ∧
    sampleAftermath.foldlM (HotelState.apply sampleHouse) expired = .ok later ∧
    (later.hotel.entitlement.coverage.map fun c => later.hotel.entitlement.entries c.id [.expire]) = [1, 1, 1] := by
  have hRuns : (do
      let s ← sampleYear.foldlM (HotelState.apply sampleHouse) sampleOpening
      let expired ← s.apply sampleHouse (.command (.expireEntitlement 1 376))
      sampleAftermath.foldlM (HotelState.apply sampleHouse) expired : Except Thrown HotelState).toOption.any
        (fun later => (later.hotel.entitlement.coverage.map fun c => later.hotel.entitlement.entries c.id [.expire]) =
          [1, 1, 1]) = true := by decide
  obtain ⟨later, hRun, hLapsed⟩ := any_eq_true.mp hRuns
  simp only [bind_eq_ok] at hRun
  obtain ⟨s, hBefore, expired, hExpire, hAfter⟩ := hRun
  exact ⟨s, expired, later, hBefore, hExpire, hAfter, of_decide_eq_true hLapsed⟩

theorem sampleYear_reachable {s : HotelState}
    (h : sampleYear.foldlM (HotelState.apply sampleHouse) sampleOpening = .ok s) : Reachable (hotelSystem sampleHouse) s :=
  ⟨sampleOpening, sampleYear, ⟨fun _ => rfl, rfl, rfl, rfl, rfl⟩, .of_foldlM (fun _ _ _ hStep => hStep) h⟩

theorem entitlement_ledger_conserved_sample : ∃ later : HotelState, later.hotel.Accounted ∧
    (later.hotel.entitlement.coverage.map fun c => later.hotel.entitlement.entries c.id [.expire]) = [1, 1, 1] := by
  obtain ⟨s, expired, later, hBefore, hExpire, hAfter, hLapsed⟩ := sampleYear_done
  have hReachable : Reachable (hotelSystem sampleHouse) later :=
    ((sampleYear_reachable hBefore).step hExpire).run (.of_foldlM (fun _ _ _ hStep => hStep) hAfter)
  exact ⟨later, entitlement_ledger_conserved sampleHouse later hReachable, hLapsed⟩

/-- The runs in which every rescheduled stay keeps the units of the held nights that it keeps. -/
def unitKeepingSystem (cat : UnitCatalog) : System HotelState HotelEvent :=
  (hotelSystem cat).restrict fun s event => s.keepsUnits event = true

def HotelState.applyKeeping (cat : UnitCatalog) (s : HotelState) (event : HotelEvent) : Except Thrown HotelState := do
  require (s.keepsUnits event = true) .failure
  s.apply cat event

theorem run_of_applyKeeping {events : List HotelEvent} {s s' : HotelState}
    (h : events.foldlM (HotelState.applyKeeping cat) s = .ok s') : Run (unitKeepingSystem cat) s events s' := by
  refine .of_foldlM (fun a event b hStep => ?_) h
  simp only [HotelState.applyKeeping, bind_eq_ok, require_eq_ok] at hStep
  obtain ⟨_, hKeeps, hApply⟩ := hStep
  exact ⟨hKeeps, hApply⟩

theorem unitKeeping_reachable {s : HotelState} (h : Reachable (unitKeepingSystem cat) s) :
    Reachable (hotelSystem cat) s :=
  h.invariant (fun _ hInit => .of_init hInit) fun _ _ _ _ hBefore hStep => hBefore.step hStep.2

/-- In such runs no lot is ever overdrawn. -/
theorem lots_stay_solvent (cat : UnitCatalog) (s : HotelState) (h : Reachable (unitKeepingSystem cat) s) :
    ∀ lot ∈ s.hotel.entitlement.lots, 0 ≤ s.hotel.entitlement.availableBalance lot := by
  refine h.invariant (P := fun s => s.hotel.entitlement.Solvent) (fun s hInit => ?_) fun s event s' hBefore hSolvent hStep => ?_
  · intro lot hLot
    rw [hInit.lots] at hLot
    cases hLot
  · exact (HotelState.apply_settled (reachable_sound (unitKeeping_reachable hBefore)) hStep.2).solvent hStep.1 hSolvent

/-- A member books two nights, asks for a third, and comes. -/
def sampleStay : List HotelEvent :=
  [.command (.activateMembershipOrder ⟨1, 1, 1, 375⟩ ⟨.roomNight, 3, 3, .room⟩ 1 10),
    .command (.createOrder 1 (sampleBooking (some 1) (some 1) none)),
    .command (.rescheduleStay 1 ⟨12, 15, ⟨none, none, none⟩⟩), .nextDay, .nextDay, .command (.checkIn 1), .nextDay,
    .nextDay, .nextDay]

theorem sampleStay_done : ∃ s, sampleStay.foldlM (HotelState.applyKeeping sampleHouse) sampleOpening = .ok s ∧
    s.hotel.entitlement.coverage.length = 3 := by
  have hRuns : ((sampleStay.foldlM (HotelState.applyKeeping sampleHouse) sampleOpening).toOption.any
      fun s => s.hotel.entitlement.coverage.length = 3) = true := by decide
  obtain ⟨s, hRun, hNights⟩ := any_eq_true.mp hRuns
  exact ⟨s, hRun, of_decide_eq_true hNights⟩

theorem sampleStay_reachable {s : HotelState}
    (h : sampleStay.foldlM (HotelState.applyKeeping sampleHouse) sampleOpening = .ok s) :
    Reachable (unitKeepingSystem sampleHouse) s :=
  ⟨sampleOpening, sampleStay, ⟨fun _ => rfl, rfl, rfl, rfl, rfl⟩, run_of_applyKeeping h⟩

theorem lots_stay_solvent_sample : ∃ s, sampleStay.foldlM (HotelState.applyKeeping sampleHouse) sampleOpening = .ok s ∧
    ∀ lot ∈ s.hotel.entitlement.lots, 0 ≤ s.hotel.entitlement.availableBalance lot := by
  obtain ⟨s, hRun, -⟩ := sampleStay_done
  exact ⟨s, hRun, lots_stay_solvent sampleHouse s (sampleStay_reachable hRun)⟩

/-- What becomes of a lot after it has expired: its balance is the number of nights restored to it, it has
only held nights that an order held then, and by the ledger no other night is taken from it. -/
structure EntitlementTables.RegainsRestored (expired later : EntitlementTables) (lotId : Nat) : Prop where
  balance : later.lotBalance lotId = later.restored lotId - (expired.restored lotId : Int)
  held : ∀ c ∈ later.coverage, c.lotId = lotId → c.status = .held →
    expired.Holds lotId (some c.orderId) (some c.serviceDate)
  ledger : ∃ entries, later.ledger = entries ++ expired.ledger ∧ ∀ f ∈ entries, f.lotId = lotId →
    f.quantityDelta < 0 → f.entryType = .expire ∨ expired.Holds lotId f.orderId f.serviceDate

/-- Of the balance of a lot that has expired only what is restored comes back. -/
theorem EntitlementTables.Settles.regains {t u : EntitlementTables} (h : t.Settles u) {lot : EntitlementLot}
    (hLot : lot ∈ t.lots) (hLapsed : t.expired lot.id = true) (hZero : t.availableBalance lot = 0) :
    t.RegainsRestored u lot.id where
  balance := by
    have hStanding := h.standing lot.id hLapsed
    rw [availableBalance_eq] at hZero
    rw [lotBalance_eq (h.later.lots lot hLot), availableBalance_eq]
    omega
  held c hc hOf hHeld := by
    obtain hOld | hKept := h.taken.held c hc hHeld
    · exact ⟨c, hOld, hHeld, hOf, rfl, rfl⟩
    · rw [hOf] at hKept
      exact hKept hLapsed
  ledger := by
    obtain ⟨entries, hLedger, hTaken⟩ := h.taken.ledger
    refine ⟨entries, hLedger, fun f hf hOf hDelta => (hTaken f hf hDelta).imp_right fun hKept => ?_⟩
    rw [hOf] at hKept
    exact hKept hLapsed

/-- Once a lot has expired no new night is taken from it, and it regains only what is restored. -/
theorem expired_lot_regains_only_restored (cat : UnitCatalog) (s expired later : HotelState) (lotId asOf : Nat)
    (events : List HotelEvent) (hReachable : Reachable (hotelSystem cat) s)
    (hExpire : s.apply cat (.command (.expireEntitlement lotId asOf)) = .ok expired)
    (hRun : Run (hotelSystem cat) expired events later) :
    expired.hotel.entitlement.lotBalance lotId = 0 ∧
      expired.hotel.entitlement.RegainsRestored later.hotel.entitlement lotId := by
  have hSettles : expired.hotel.entitlement.Settles later.hotel.entitlement :=
    hRun.monotone (R := fun a b => a.hotel.entitlement.Settles b.hotel.entitlement) (fun _ => .refl _)
      (fun _ _ _ => .trans) (fun a event b hReach hStep => (HotelState.apply_settled (reachable_sound hReach) hStep).settles)
      (hReachable.step hExpire)
  simp only [HotelState.apply, Hotel.execute, bind_eq_ok, pure_eq_ok] at hExpire
  obtain ⟨hotel, hExecute, rfl⟩ := hExpire
  obtain ⟨lot, hExpired⟩ := Hotel.expireEntitlement_eq_ok hExecute
  obtain ⟨hLot, rfl⟩ := findLot_mem hExpired.found
  have hLedger := congrArg Hotel.entitlement hExpired.result
  have hIn : lot ∈ hotel.entitlement.lots := by
    rw [hLedger]
    exact hLot
  have hZero : hotel.entitlement.availableBalance lot = 0 := by
    rw [hLedger, record_balance]
    exact (congrArg _ (if_pos rfl)).trans (Int.add_right_neg _)
  have hLapsed : hotel.entitlement.expired lot.id = true := by
    rw [hLedger]
    exact List.any_eq_true.mpr ⟨_, List.mem_cons_self, by simp [lotFact]⟩
  exact ⟨(lotBalance_eq hIn).trans hZero, hSettles.regains hIn hLapsed hZero⟩

theorem expired_lot_regains_only_restored_sample : ∃ s expired later,
    sampleYear.foldlM (HotelState.apply sampleHouse) sampleOpening = .ok s ∧
    s.apply sampleHouse (.command (.expireEntitlement 1 376)) = .ok expired ∧
    sampleAftermath.foldlM (HotelState.apply sampleHouse) expired = .ok later ∧
    (later.hotel.entitlement.coverage.map fun c => later.hotel.entitlement.entries c.id [.expire]) = [1, 1, 1] ∧
    expired.hotel.entitlement.lotBalance 1 = 0 ∧
    expired.hotel.entitlement.RegainsRestored later.hotel.entitlement 1 := by
  obtain ⟨s, expired, later, hBefore, hExpire, hAfter, hLapsed⟩ := sampleYear_done
  obtain ⟨hZero, hRegains⟩ := expired_lot_regains_only_restored sampleHouse s expired later 1 376 sampleAftermath
    (sampleYear_reachable hBefore) hExpire (.of_foldlM (fun _ _ _ hStep => hStep) hAfter)
  exact ⟨s, expired, later, hBefore, hExpire, hAfter, hLapsed, hZero, hRegains⟩

end GreenPms
