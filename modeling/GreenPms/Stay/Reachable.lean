import GreenPms.Stay.Commands

/-! # Reachable states of a property

Every command keeps the coverage consistent with its ledger, and coverage a matter of members.
-/

namespace GreenPms

open Checked TransitionSystem EntitlementTables Folds

variable {cat : UnitCatalog} {hotel hotel' : Hotel} {orderId commandId : Nat}

namespace EntitlementTables

variable {t u : EntitlementTables}

/-- Only coverage and ledger are read. -/
theorem Ok.congr (h : t.Ok) (hCoverage : u.coverage = t.coverage) (hLedger : u.ledger = t.ledger) : u.Ok where
  bounded := by
    rw [hCoverage]
    exact h.bounded
  keys := by
    rw [hCoverage]
    exact h.keys
  items := by
    rw [hCoverage]
    exact fun c hc => (h.items c hc).congr hLedger
  facts := by
    rw [hCoverage, hLedger]
    exact h.facts
  covered := by
    rw [hLedger]
    exact h.covered
  lapsed := by
    rw [hLedger]
    exact h.lapsed
  plain := by
    rw [hLedger]
    exact h.plain
  single := by
    rw [hCoverage]
    exact h.single

structure LotInserted (t : EntitlementTables) (lot : EntitlementLot) (u : EntitlementTables) : Prop where
  fresh : ∀ other ∈ t.lots, other.id ≠ lot.id
  unwritten : ∀ f ∈ t.ledger, f.lotId ≠ lot.id
  members : u.members = t.members
  contracts : u.contracts = t.contracts
  lots : u.lots = lot :: t.lots
  coverage : u.coverage = t.coverage
  ledger : u.ledger = t.ledger

theorem insertLot_eq_ok {lot : EntitlementLot} (h : t.insertLot lot = .ok u) : t.LotInserted lot u := by
  unfold insertLot at h
  split at h
  case isTrue hFresh =>
    injection h with hEq
    subst hEq
    exact ⟨fun other hOther hId => hFresh.1 (hId ▸ List.mem_map_of_mem hOther), hFresh.2, rfl, rfl, rfl, rfl, rfl⟩
  case isFalse => cases h

def membershipLot (stamp : MembershipStamp) (product : MembershipProduct) (memberId : Nat) : EntitlementLot where
  id := stamp.lotId
  contractId := stamp.contractId
  unitKind := product.entitlementUnitKind
  totalUnits := product.entitlementUnits
  expiresOn := stamp.validUntil
  active := true
  membershipOrder := some ⟨stamp.membershipOrderId, memberId, product.allowedRoomTypeCode,
    product.allowedInventoryKind, product.entitlementUnitKind⟩

structure MembershipInserted (t : EntitlementTables) (stamp : MembershipStamp) (product : MembershipProduct)
    (memberId validFrom : Nat) (u : EntitlementTables) : Prop where
  newContract : ∀ contract ∈ t.contracts, contract.id ≠ stamp.contractId
  fresh : ∀ other ∈ t.lots, other.id ≠ stamp.lotId
  unwritten : ∀ f ∈ t.ledger, f.lotId ≠ stamp.lotId
  contracts : u.contracts = ⟨stamp.contractId, memberId, true, validFrom, stamp.validUntil⟩ :: t.contracts
  lots : u.lots = membershipLot stamp product memberId :: t.lots
  coverage : u.coverage = t.coverage
  ledger : u.ledger = t.ledger

theorem insertMembership_eq_ok {stamp : MembershipStamp} {product : MembershipProduct} {memberId validFrom : Nat}
    (h : t.insertMembership stamp product memberId validFrom = .ok u) :
    t.MembershipInserted stamp product memberId validFrom u := by
  simp only [insertMembership, insertContract, bind_eq_ok, require_eq_ok, pure_eq_ok] at h
  obtain ⟨contracted, ⟨_, hContract, rfl⟩, hLot⟩ := h
  have hInserted := insertLot_eq_ok hLot
  exact ⟨fun contract hMem hId => hContract (hId ▸ List.mem_map_of_mem hMem), hInserted.fresh, hInserted.unwritten,
    hInserted.contracts, hInserted.lots, hInserted.coverage, hInserted.ledger⟩

end EntitlementTables

/-- Orders and coverage stay, and the ledger gets at most an entry about a lot. -/
structure Hotel.KeepsCoverage (hotel hotel' : Hotel) : Prop where
  orders : hotel'.orders = hotel.orders
  coverage : hotel'.entitlement.coverage = hotel.entitlement.coverage
  ok : hotel.entitlement.Ok → hotel'.entitlement.Ok

theorem Hotel.KeepsCoverage.sound (hSound : hotel.Sound) (h : hotel.KeepsCoverage hotel') : hotel'.Sound where
  entitlement := h.ok hSound.entitlement
  rows := by
    rw [h.coverage, h.orders]
    exact hSound.rows

namespace Hotel

theorem createMember_keeps {memberId : Nat} (h : hotel.createMember memberId = .ok hotel') :
    hotel.KeepsCoverage hotel' := by
  simp only [createMember, bind_eq_ok, require_eq_ok, pure_eq_ok] at h
  obtain ⟨_, -, rfl⟩ := h
  exact ⟨rfl, rfl, fun hOk => hOk.congr rfl rfl⟩

theorem activateMembershipOrder_eq_ok {stamp : MembershipStamp} {product : MembershipProduct} {memberId validFrom : Nat}
    (h : hotel.activateMembershipOrder stamp product memberId validFrom = .ok hotel') :
    ∃ entitlement, hotel.entitlement.MembershipInserted stamp product memberId validFrom entitlement ∧
      hotel' = { hotel with entitlement := entitlement } := by
  simp only [activateMembershipOrder, bind_eq_ok, require_eq_ok, pure_eq_ok] at h
  obtain ⟨_, -, _, -, entitlement, hInsert, rfl⟩ := h
  exact ⟨entitlement, insertMembership_eq_ok hInsert, rfl⟩

theorem activateMembershipOrder_keeps {stamp : MembershipStamp} {product : MembershipProduct} {memberId validFrom : Nat}
    (h : hotel.activateMembershipOrder stamp product memberId validFrom = .ok hotel') :
    hotel.KeepsCoverage hotel' := by
  obtain ⟨entitlement, hInserted, rfl⟩ := activateMembershipOrder_eq_ok h
  exact ⟨rfl, hInserted.coverage, fun hOk => hOk.congr hInserted.coverage hInserted.ledger⟩

theorem addEntitlementLot_eq_ok {lotId contractId : Nat} {unitKind : EntitlementUnitKind} {units expiresOn : Nat}
    (h : hotel.addEntitlementLot commandId lotId contractId unitKind units expiresOn = .ok hotel') :
    ∃ entitlement, hotel.entitlement.LotInserted ⟨lotId, contractId, unitKind, 0, expiresOn, true, none⟩ entitlement ∧
      hotel' = { hotel with
        entitlement := entitlement.record (lotFact lotId .adjust units "MEMBER_ENTITLEMENT_LOT_ADDED" commandId) } := by
  simp only [addEntitlementLot, bind_eq_ok, require_eq_ok, expect_eq_ok, pure_eq_ok] at h
  obtain ⟨_, -, contract, -, _, -, _, -, _, -, entitlement, hInsert, rfl⟩ := h
  exact ⟨entitlement, insertLot_eq_ok hInsert, rfl⟩

theorem addEntitlementLot_keeps {lotId contractId : Nat} {unitKind : EntitlementUnitKind} {units expiresOn : Nat}
    (h : hotel.addEntitlementLot commandId lotId contractId unitKind units expiresOn = .ok hotel') :
    hotel.KeepsCoverage hotel' := by
  obtain ⟨entitlement, hInserted, rfl⟩ := addEntitlementLot_eq_ok h
  refine ⟨rfl, hInserted.coverage, fun hOk => Ok.recordPlain ?_ rfl (.inl rfl)⟩
  exact hOk.congr hInserted.coverage hInserted.ledger

structure Adjusted (hotel : Hotel) (commandId lotId : Nat) (quantityDelta : Int) (reason : String)
    (lot : EntitlementLot) (hotel' : Hotel) : Prop where
  found : hotel.entitlement.findLot lotId = some lot
  unexpired : hotel.entitlement.expired lotId = false
  nonneg : 0 ≤ hotel.entitlement.availableBalance lot + quantityDelta
  result : hotel' = { hotel with
    entitlement := hotel.entitlement.record (lotFact lotId .adjust quantityDelta reason commandId) }

theorem loadActiveLot_eq_ok {t : EntitlementTables} {lotId : Nat} {message : String} {lot : EntitlementLot}
    (h : t.loadActiveLot lotId message = .ok lot) : t.findLot lotId = some lot := by
  simp only [loadActiveLot, bind_eq_ok, require_eq_ok, expect_eq_ok, pure_eq_ok] at h
  obtain ⟨found, hFound, contract, -, _, -, rfl⟩ := h
  exact hFound

theorem boundedBalance_eq_ok {balance bounded : Int} (h : boundedBalance balance = .ok bounded) :
    bounded = balance ∧ 0 ≤ balance := by
  simp only [boundedBalance, bind_eq_ok, require_eq_ok, pure_eq_ok] at h
  obtain ⟨_, hRange, rfl⟩ := h
  exact ⟨rfl, hRange.1⟩

theorem adjustEntitlement_eq_ok {lotId : Nat} {quantityDelta : Int} {reason : String}
    (h : hotel.adjustEntitlement commandId lotId quantityDelta reason = .ok hotel') :
    ∃ lot, hotel.Adjusted commandId lotId quantityDelta reason lot hotel' := by
  simp only [adjustEntitlement, bind_eq_ok, require_eq_ok, pure_eq_ok] at h
  obtain ⟨lot, hLot, _, hOpen, _, -, before, hBefore, _, -, after, hAfter, rfl⟩ := h
  obtain ⟨rfl, -⟩ := boundedBalance_eq_ok hBefore
  exact ⟨lot, loadActiveLot_eq_ok hLot, hOpen, (boundedBalance_eq_ok hAfter).2, rfl⟩

theorem adjustEntitlement_keeps {lotId : Nat} {quantityDelta : Int} {reason : String}
    (h : hotel.adjustEntitlement commandId lotId quantityDelta reason = .ok hotel') : hotel.KeepsCoverage hotel' := by
  obtain ⟨lot, hAdjusted⟩ := adjustEntitlement_eq_ok h
  rw [hAdjusted.result]
  exact ⟨rfl, rfl, fun hOk => hOk.recordPlain rfl (.inl rfl)⟩

structure Expired (hotel : Hotel) (commandId lotId : Nat) (lot : EntitlementLot) (hotel' : Hotel) : Prop where
  found : hotel.entitlement.findLot lotId = some lot
  unexpired : hotel.entitlement.expired lotId = false
  result : hotel' = { hotel with
    entitlement := hotel.entitlement.record
      (lotFact lotId .expire (-hotel.entitlement.availableBalance lot) "ENTITLEMENT_EXPIRED" commandId) }

theorem expireEntitlement_eq_ok {lotId asOf : Nat} (h : hotel.expireEntitlement commandId lotId asOf = .ok hotel') :
    ∃ lot, hotel.Expired commandId lotId lot hotel' := by
  simp only [expireEntitlement, bind_eq_ok, require_eq_ok, pure_eq_ok] at h
  obtain ⟨lot, hLot, _, hOpen, _, -, _, -, remaining, hRemaining, rfl⟩ := h
  obtain ⟨rfl, -⟩ := boundedBalance_eq_ok hRemaining
  exact ⟨lot, loadActiveLot_eq_ok hLot, hOpen, rfl⟩

theorem expireEntitlement_keeps {lotId asOf : Nat} (h : hotel.expireEntitlement commandId lotId asOf = .ok hotel') :
    hotel.KeepsCoverage hotel' := by
  obtain ⟨lot, hExpired⟩ := expireEntitlement_eq_ok h
  rw [hExpired.result]
  exact ⟨rfl, rfl, fun hOk => hOk.recordPlain rfl (.inr (.inl rfl))⟩

/-! ## CONVERT_STAY_COLLECTIONS_TO_MEMBERSHIP -/

def converted (commandId : Nat) (order : StayOrder) (request : ConversionRequest) (effect : ConversionEffect) :
    StayOrder :=
  { (order.amend .convertStayCollectionsToMembership commandId none none).withRevision order.stay effect.pricing with
    identity := { order.identity with
      memberId := some request.memberId, memberContractId := some request.stamp.contractId }
    conversion := some effect.conversion }

structure Converted (cat : UnitCatalog) (hotel : Hotel) (orderId commandId : Nat) (request : ConversionRequest)
    (order : StayOrder) (effect : ConversionEffect) (membership : EntitlementTables) (hotel' : Hotel) : Prop where
  loaded : hotel.orders orderId = some order
  built : hotel.buildConversion cat order request = .ok effect
  dates : order.dates.Nodup
  inserted : hotel.entitlement.MembershipInserted request.stamp request.product request.memberId hotel.today membership
  entitlement : hotel'.entitlement = order.stay.stayTimeline.foldl
    (convertNight (order.status = .checkedIn) orderId commandId effect.conversion) membership
  result : hotel' = { hotel with entitlement := hotel'.entitlement }.setOrder orderId
    (converted commandId order request effect)

theorem convertStay_eq_ok {request : ConversionRequest}
    (h : hotel.convertStay cat orderId commandId request = .ok hotel') :
    ∃ order effect membership, hotel.Converted cat orderId commandId request order effect membership hotel' := by
  simp only [convertStay, applyConversion, bind_eq_ok, loadOrder_eq_ok, require_eq_ok, insertRevision_eq_ok,
    pure_eq_ok] at h
  obtain ⟨order, hOrder, effect, hEffect, _, hDates, membership, hInsert, _, ⟨-, rfl⟩, rfl⟩ := h
  exact ⟨order, effect, membership, hOrder, hEffect, hDates, insertMembership_eq_ok hInsert, rfl, rfl⟩

theorem convertNights_writes {t : EntitlementTables} (inHouse : Bool) {conversion : MembershipConversion}
    {timeline : List StayTimelineItem} (hDates : (timeline.map StayTimelineItem.serviceDate).Nodup)
    (hNone : ∀ c ∈ t.coverage, c.orderId ≠ orderId) :
    CoverageWrites orderId t (timeline.foldl (convertNight inHouse orderId commandId conversion) t) := by
  have hApart : timeline.Pairwise fun a b => a.serviceDate ≠ b.serviceDate := List.pairwise_map.mp hDates
  refine (foldl_keeps (P := CoverageWrites orderId t) (Q := fun u item => u.Free orderId item.serviceDate)
    (fun u item hu hItem => ?_) (fun u a b hOther _ ha hb => ?_) hApart .refl
    fun item _ c hc hOrder => absurd hOrder (hNone c hc)).1
  · unfold convertNight
    split
    · exact hu.tail (CoverageWrite.convert hItem ..)
    · exact hu.tail (.convertPast ..)
  · unfold convertNight
    split
    · intro c hc hOrder hDate
      obtain rfl | hc := List.mem_cons.mp hc
      · exact absurd hDate hOther
      · exact hb c hc hOrder hDate
    · exact hb

theorem buildConversion_guest {order : StayOrder} {request : ConversionRequest} {effect : ConversionEffect}
    (h : hotel.buildConversion cat order request = .ok effect) : order.memberStay = false := by
  simp only [buildConversion, assertConvertible, bind_eq_ok, require_eq_ok] at h
  obtain ⟨_, -, _, ⟨_, -, _, -, _, hGuest, -⟩, -⟩ := h
  exact hGuest.2

theorem Converted.revises (hSound : hotel.Sound) {request : ConversionRequest} {order : StayOrder}
    {effect : ConversionEffect} {membership : EntitlementTables}
    (h : hotel.Converted cat orderId commandId request order effect membership hotel') :
    { hotel with entitlement := membership }.Sound ∧
      { hotel with entitlement := membership }.Revises orderId (converted commandId order request effect) hotel' := by
  have hNone : ∀ c ∈ membership.coverage, c.orderId ≠ orderId := by
    rw [h.inserted.coverage]
    exact hSound.guest h.loaded (buildConversion_guest h.built)
  refine ⟨⟨hSound.entitlement.congr h.inserted.coverage h.inserted.ledger, ?_⟩, h.result, ?_, ?_, ?_⟩
  · rw [show ({ hotel with entitlement := membership } : Hotel).entitlement.coverage = hotel.entitlement.coverage from
      h.inserted.coverage]
    exact hSound.rows
  · rw [h.entitlement]
    exact convertNights_writes _ h.dates hNone
  · exact fun hGuest => absurd hGuest (by simp [converted, StayOrder.memberStay, OrderIdentity.memberStay])
  · exact fun _ _ _ => by simp [converted, StayOrder.memberStay, OrderIdentity.memberStay]

/-! ## Every command -/

theorem execute_sound (hSound : hotel.Sound) {command : HotelCommand}
    (h : hotel.execute cat commandId command = .ok hotel') : hotel'.Sound := by
  have hRevised : ∀ {orderId : Nat}, (∃ order', hotel.Revises orderId order' hotel') → hotel'.Sound := by
    rintro orderId ⟨order', hRevises⟩
    exact hRevises.sound hSound
  cases command with
  | createOrder orderId request =>
    obtain ⟨effect, held, hCreated⟩ := createOrder_eq_ok h
    exact hRevised (hCreated.revises hSound)
  | rescheduleStay orderId request =>
    obtain ⟨order, effect, reconciled, hChanged⟩ := changeDates_eq_ok h
    exact hRevised (hChanged.revises hSound)
  | extendStay orderId request =>
    obtain ⟨order, effect, reconciled, hChanged⟩ := changeDates_eq_ok h
    exact hRevised (hChanged.revises hSound)
  | shortenStay orderId request =>
    obtain ⟨order, effect, hShortened⟩ := shortenStay_eq_ok h
    exact hRevised (hShortened.revises hSound)
  | moveUnit orderId blocked request =>
    obtain ⟨order, effect, hMoved⟩ := moveUnit_eq_ok h
    exact hRevised (hMoved.revises hSound)
  | repriceOrder orderId target =>
    obtain ⟨order, pricing, reconciled, -, hPriced⟩ := repriceOrder_eq_ok h
    exact hRevised (hPriced.revises hSound)
  | refreshMemberCoverage orderId =>
    obtain ⟨order, pricing, reconciled, -, hPriced⟩ := refreshMemberCoverage_eq_ok h
    exact hRevised (hPriced.revises hSound)
  | checkIn orderId => exact hRevised (checkIn_revises hSound h)
  | checkOut orderId => exact hRevised (checkOut_revises h)
  | completeStay orderId => exact hRevised (completeStay_revises hSound h)
  | cancelOrder orderId => exact hRevised (closeReserved_revises hSound h)
  | markNoShow orderId evening => exact hRevised (closeReserved_revises hSound h)
  | revokeCheckIn orderId => exact hRevised (revokeCheckIn_revises hSound h)
  | revokeCheckOut orderId =>
    obtain ⟨order, plan, hRevoked⟩ := revokeCheckOut_eq_ok h
    exact hRevised (hRevoked.revises hSound)
  | amendOnly type orderId => exact hRevised (amendOnly_revises h)
  | convertStay orderId request =>
    obtain ⟨order, effect, membership, hConverted⟩ := convertStay_eq_ok h
    obtain ⟨hMembership, hRevises⟩ := hConverted.revises hSound
    exact hRevises.sound hMembership
  | createMember memberId => exact (createMember_keeps h).sound hSound
  | activateMembershipOrder stamp product memberId validFrom =>
    exact (activateMembershipOrder_keeps h).sound hSound
  | addEntitlementLot lotId contractId unitKind units expiresOn => exact (addEntitlementLot_keeps h).sound hSound
  | adjustEntitlement lotId quantityDelta reason => exact (adjustEntitlement_keeps h).sound hSound
  | expireEntitlement lotId asOf => exact (expireEntitlement_keeps h).sound hSound

theorem Opening.sound (h : hotel.Opening) : hotel.Sound where
  entitlement := {
    bounded := by simp [h.coverage]
    keys := by simp [h.coverage]
    items := by simp [h.coverage]
    facts := by simp [h.ledger]
    covered := by simp [h.ledger]
    lapsed := by simp [h.ledger]
    plain := by simp [h.ledger]
    single := by simp [h.coverage] }
  rows := by simp [h.coverage]

end Hotel

theorem HotelState.apply_sound {s s' : HotelState} {event : HotelEvent} (hSound : s.hotel.Sound)
    (h : s.apply cat event = .ok s') : s'.hotel.Sound := by
  cases event with
  | command command =>
    simp only [HotelState.apply, bind_eq_ok, pure_eq_ok] at h
    obtain ⟨hotel, hExecute, rfl⟩ := h
    exact Hotel.execute_sound hSound hExecute
  | publishPolicy policyVersionId published =>
    simp only [HotelState.apply, bind_eq_ok, require_eq_ok, pure_eq_ok] at h
    obtain ⟨_, -, rfl⟩ := h
    exact ⟨hSound.entitlement, hSound.rows⟩
  | _ =>
    cases h
    exact ⟨hSound.entitlement, hSound.rows⟩

theorem reachable_sound {s : HotelState} (h : Reachable (hotelSystem cat) s) : s.hotel.Sound := by
  apply h.invariant (P := fun s => s.hotel.Sound)
  · exact fun _ hInit => Hotel.Opening.sound hInit
  · rintro a event b - hSound hStep
    exact HotelState.apply_sound hSound hStep

end GreenPms
