import Mathlib.Logic.Relation
import GreenPms.Entitlement.Balance

/-! # Operations as writes

Every operation on the coverage of an order is a sequence of writes to free nights and to items of
that order, so whatever each write keeps, the operations keep. The operations that change balances
say by how much.
-/

namespace GreenPms

open Checked Totals Folds

namespace EntitlementTables

variable {t u : EntitlementTables} {orderId lotId : Nat} {c : CoverageItem}

def Free (t : EntitlementTables) (orderId serviceDate : Nat) : Prop :=
  ∀ c ∈ t.coverage, c.orderId = orderId → c.serviceDate = serviceDate → c.isActive = false

/-- An item of the order with a status, which has not been restored. -/
structure Owns (t : EntitlementTables) (orderId : Nat) (status : CoverageStatus) (c : CoverageItem) : Prop where
  mem : c ∈ t.coverage
  order : c.orderId = orderId
  status : c.status = status
  unrestored : t.entries c.id [.restore] = 0

inductive CoverageWrite (orderId : Nat) (t : EntitlementTables) : EntitlementTables → Prop
  | hold {night : CoveredNight} (hFree : t.Free orderId night.serviceDate) (contractId commandId : Nat) :
      CoverageWrite orderId t (t.hold orderId contractId commandId night)
  | release {c : CoverageItem} (hc : t.Owns orderId .held c) (commandId : Nat) (lapses : CoverageItem → Bool) :
      CoverageWrite orderId t (t.release commandId lapses c)
  | consume {c : CoverageItem} (hc : t.Owns orderId .held c) (commandId : Nat) (reason : String) :
      CoverageWrite orderId t (t.consume commandId reason c)
  | restore {c : CoverageItem} (hc : t.Owns orderId .consumed c) (commandId : Nat) :
      CoverageWrite orderId t (t.restore commandId c)
  | restoreFuture {c : CoverageItem} (hc : t.Owns orderId .consumed c) (commandId : Nat) :
      CoverageWrite orderId t (t.restoreFuture commandId c)
  | convert {night : CoveredNight} (hFree : t.Free orderId night.serviceDate) (contractId commandId : Nat)
      (reason : String) :
      CoverageWrite orderId t (t.insert (t.newItem orderId contractId night .consumed)
        ((t.newItem orderId contractId night .consumed).fact .conversionConsume (-1) reason commandId))
  | convertPast (lotId serviceDate commandId : Nat) (reason : String) :
      CoverageWrite orderId t (t.record
        ⟨lotId, .conversionConsume, -1, some serviceDate, some orderId, none, reason, commandId⟩)

def CoverageWrites (orderId : Nat) : EntitlementTables → EntitlementTables → Prop :=
  Relation.ReflTransGen (CoverageWrite orderId)

/-! ## What a write keeps -/

theorem Ok.recordPlain (h : t.Ok) {f : LedgerFact} (hNone : f.coverageId = none)
    (hType : f.entryType = .adjust ∨ f.entryType = .expire ∨ (f.entryType = .conversionConsume ∧ f.quantityDelta = -1)) :
    (t.record f).Ok where
  bounded := h.bounded
  keys := h.keys
  items c hc := (h.items c hc).record (by simp [hNone])
  facts := by
    intro g hg id hMem
    obtain rfl | hg := List.mem_cons.mp hg
    · rw [hNone] at hMem
      cases hMem
    · exact h.facts g hg id hMem
  covered := List.forall_mem_cons.mpr ⟨fun _ => hNone, h.covered⟩
  lapsed := List.forall_mem_cons.mpr ⟨fun _ hSome => by simp [hNone] at hSome, h.lapsed⟩
  plain := List.forall_mem_cons.mpr ⟨fun _ => hType, h.plain⟩
  single := h.single

theorem CoverageWrite.ok (h : t.Ok) (hWrite : CoverageWrite orderId t u) : u.Ok := by
  cases hWrite with
  | hold hFree contractId commandId => exact h.hold hFree contractId commandId
  | release hc commandId lapses => exact h.release hc.mem hc.status commandId lapses
  | consume hc commandId reason => exact h.consume hc.mem hc.status commandId reason
  | restore hc commandId => exact h.restore hc.mem hc.status hc.unrestored commandId
  | restoreFuture hc commandId => exact h.restoreFuture hc.mem hc.status hc.unrestored commandId
  | convert hFree contractId commandId reason => exact h.insert hFree rfl (.inr ⟨rfl, rfl⟩)
  | convertPast lotId serviceDate commandId reason => exact h.recordPlain rfl (.inr (.inr ⟨rfl, rfl⟩))

structure SameRights (t u : EntitlementTables) : Prop where
  members : u.members = t.members
  contracts : u.contracts = t.contracts
  lots : u.lots = t.lots

theorem SameRights.refl (t : EntitlementTables) : t.SameRights t := ⟨rfl, rfl, rfl⟩

theorem SameRights.trans {v : EntitlementTables} (h : t.SameRights u) (k : u.SameRights v) : t.SameRights v :=
  ⟨k.members.trans h.members, k.contracts.trans h.contracts, k.lots.trans h.lots⟩

theorem release_coverage (t : EntitlementTables) (commandId : Nat) (lapses : CoverageItem → Bool) (c : CoverageItem) :
    (t.release commandId lapses c).coverage = t.coverage.map (CoverageItem.update c.id .released) := by
  unfold release
  split <;> rfl

theorem release_rights (t : EntitlementTables) (commandId : Nat) (lapses : CoverageItem → Bool) (c : CoverageItem) :
    t.SameRights (t.release commandId lapses c) := by
  unfold release
  split <;> exact ⟨rfl, rfl, rfl⟩

theorem CoverageWrite.rights (hWrite : CoverageWrite orderId t u) : t.SameRights u := by
  cases hWrite with
  | release hc commandId lapses => exact release_rights t commandId lapses _
  | _ => exact ⟨rfl, rfl, rfl⟩

theorem mem_update_other {status : CoverageStatus} {d : CoverageItem} (h : t.Ok) (hc : c ∈ t.coverage)
    (hd : d.orderId ≠ c.orderId) :
    d ∈ t.coverage.map (CoverageItem.update c.id status) ↔ d ∈ t.coverage := by
  constructor
  · intro hMem
    obtain ⟨x, hx, rfl⟩ := List.mem_map.mp hMem
    by_cases hId : x.id = c.id
    · obtain rfl := h.eq_of_id hx hc hId
      rw [update_same] at hd
      exact absurd rfl hd
    · rwa [update_other hId]
  · intro hMem
    refine List.mem_map.mpr ⟨d, hMem, update_other fun hId => hd ?_⟩
    rw [h.eq_of_id hMem hc hId]

theorem CoverageWrite.others (h : t.Ok) (hWrite : CoverageWrite orderId t u) {d : CoverageItem}
    (hd : d.orderId ≠ orderId) : d ∈ u.coverage ↔ d ∈ t.coverage := by
  have hNew : ∀ {contractId : Nat} {night : CoveredNight} {status : CoverageStatus},
      d ∈ t.newItem orderId contractId night status :: t.coverage ↔ d ∈ t.coverage := by
    intro contractId night status
    rw [List.mem_cons]
    exact ⟨fun hMem => hMem.resolve_left fun hEq => hd (hEq ▸ rfl), .inr⟩
  cases hWrite with
  | hold hFree contractId commandId => exact hNew
  | release hc commandId lapses =>
    rw [release_coverage]
    exact mem_update_other h hc.mem (by rwa [hc.order])
  | consume hc commandId reason => exact mem_update_other h hc.mem (by rwa [hc.order])
  | restore hc commandId => exact Iff.rfl
  | restoreFuture hc commandId => exact mem_update_other (t := t) h hc.mem (by rwa [hc.order])
  | convert hFree contractId commandId reason => exact hNew
  | convertPast lotId serviceDate commandId reason => exact Iff.rfl

theorem CoverageWrites.ok (hWrites : CoverageWrites orderId t u) (h : t.Ok) : u.Ok := by
  induction hWrites with
  | refl => exact h
  | tail _ hWrite ih => exact hWrite.ok ih

theorem CoverageWrites.rights (hWrites : CoverageWrites orderId t u) : t.SameRights u := by
  induction hWrites with
  | refl => exact .refl t
  | tail _ hWrite ih => exact ih.trans hWrite.rights

theorem CoverageWrites.others (hWrites : CoverageWrites orderId t u) (h : t.Ok) {d : CoverageItem}
    (hd : d.orderId ≠ orderId) : d ∈ u.coverage ↔ d ∈ t.coverage := by
  induction hWrites with
  | refl => exact Iff.rfl
  | tail hWrites hWrite ih => exact (hWrite.others (CoverageWrites.ok hWrites h) hd).trans ih

/-! ## Loops -/

theorem mem_byServiceDate {items : List CoverageItem} : c ∈ byServiceDate items ↔ c ∈ items :=
  List.mem_insertionSort _

theorem mem_ofOrder {p : CoverageItem → Bool} :
    c ∈ t.ofOrder orderId p ↔ c ∈ t.coverage ∧ c.orderId = orderId ∧ p c = true := by
  simp [ofOrder, mem_byServiceDate]

theorem mem_activeCoverage : c ∈ t.activeCoverage orderId ↔
    c ∈ t.coverage ∧ c.orderId = orderId ∧ c.isActive = true := mem_ofOrder

theorem Ok.ofOrder_keys (h : t.Ok) (orderId : Nat) (p : CoverageItem → Bool) :
    ((t.ofOrder orderId p).map CoverageItem.id).Nodup := by
  have hSorted := List.perm_insertionSort (fun a b : CoverageItem => a.serviceDate ≤ b.serviceDate)
    (t.coverage.filter fun c => c.orderId = orderId && p c)
  exact (hSorted.map _).nodup_iff.mpr (h.keys.sublist (List.filter_sublist.map _))

/-- An item whose night an operation settles. -/
def settled (items : List CoverageItem) (status : CoverageStatus) (c : CoverageItem) : CoverageItem :=
  if c.id ∈ items.map CoverageItem.id then { c with status := status } else c

theorem foldl_coverage {write : EntitlementTables → CoverageItem → EntitlementTables} {status : CoverageStatus}
    (hWrite : ∀ u c, (write u c).coverage = u.coverage.map (CoverageItem.update c.id status))
    (items : List CoverageItem) (t : EntitlementTables) :
    (items.foldl write t).coverage = t.coverage.map (settled items status) := by
  induction items generalizing t with
  | nil => exact (List.map_id _).symm
  | cons c rest ih =>
    rw [List.foldl_cons, ih, hWrite, List.map_map]
    refine List.map_congr_left fun d _ => ?_
    simp only [Function.comp_apply, settled, CoverageItem.update, List.map_cons, List.mem_cons]
    by_cases hId : d.id = c.id <;> simp [hId]

theorem foldl_writes {write : EntitlementTables → CoverageItem → EntitlementTables} {status : CoverageStatus}
    (hWrite : ∀ u c, u.Owns orderId status c → CoverageWrite orderId u (write u c))
    (hKeep : ∀ u c d, c.id ≠ d.id → u.Owns orderId status d → (write u c).Owns orderId status d)
    {items : List CoverageItem} (hKeys : (items.map CoverageItem.id).Nodup)
    (hOwns : ∀ c ∈ items, t.Owns orderId status c) : CoverageWrites orderId t (items.foldl write t) := by
  have hApart : items.Pairwise fun c d => c.id ≠ d.id := List.pairwise_map.mp hKeys
  exact (foldl_keeps (P := CoverageWrites orderId t) (fun u c hu hc => hu.tail (hWrite u c hc))
    (fun u c d hOther _ _ hd => hKeep u c d hOther hd) hApart .refl hOwns).1

theorem Owns.record {orderId : Nat} {status : CoverageStatus} (h : t.Owns orderId status c) {f : LedgerFact}
    (hOther : f.coverageId ≠ some c.id ∨ f.entryType ≠ .restore) : (t.record f).Owns orderId status c where
  mem := h.mem
  order := h.order
  status := h.status
  unrestored := by
    rw [entries_record, h.unrestored, if_neg]
    rintro hIn
    simp only [Bool.and_eq_true, decide_eq_true_eq, List.contains_iff_mem, List.mem_singleton] at hIn
    exact hOther.elim (fun hId => hId hIn.1) fun hType => hType hIn.2

theorem Owns.setStatus {orderId id : Nat} {status other : CoverageStatus} (h : t.Owns orderId status c)
    (hOther : c.id ≠ id) : (t.setStatus id other).Owns orderId status c :=
  ⟨mem_setStatus_other h.mem hOther, h.order, h.status, h.unrestored⟩

theorem Owns.release {orderId commandId : Nat} {d : CoverageItem} {lapses : CoverageItem → Bool}
    (h : t.Owns orderId .held d) (hOther : c.id ≠ d.id) : (t.release commandId lapses c).Owns orderId .held d := by
  have hReleased : ((t.setStatus c.id .released).record (c.fact .release 1 "ORDER_COVERAGE_RELEASE" commandId)).Owns
      orderId .held d := (h.setStatus hOther.symm).record (.inr (by simp [CoverageItem.fact]))
  unfold EntitlementTables.release
  split
  · exact hReleased.record (.inr (by simp [CoverageItem.fact]))
  · exact hReleased

theorem releases_writes (commandId : Nat) (lapses : CoverageItem → Bool) {items : List CoverageItem}
    (hKeys : (items.map CoverageItem.id).Nodup) (hOwns : ∀ c ∈ items, t.Owns orderId .held c) :
    CoverageWrites orderId t (items.foldl (fun u c => u.release commandId lapses c) t) :=
  foldl_writes (fun _ _ hc => .release hc commandId lapses) (fun _ _ _ hOther hd => hd.release hOther) hKeys hOwns

theorem consumes_writes (commandId : Nat) (reason : String) {items : List CoverageItem}
    (hKeys : (items.map CoverageItem.id).Nodup) (hOwns : ∀ c ∈ items, t.Owns orderId .held c) :
    CoverageWrites orderId t (items.foldl (fun u c => u.consume commandId reason c) t) :=
  foldl_writes (fun _ _ hc => .consume hc commandId reason)
    (fun _ _ _ hOther hd => (hd.setStatus hOther.symm).record (.inr (by simp [CoverageItem.fact]))) hKeys hOwns

theorem restores_writes (commandId : Nat) {items : List CoverageItem} (hKeys : (items.map CoverageItem.id).Nodup)
    (hOwns : ∀ c ∈ items, t.Owns orderId .consumed c) :
    CoverageWrites orderId t (items.foldl (fun u c => u.restore commandId c) t) :=
  foldl_writes (fun _ _ hc => .restore hc commandId)
    (fun _ _ _ hOther hd => hd.record (.inl (by simpa [CoverageItem.fact] using hOther))) hKeys hOwns

theorem restoreFutures_writes (commandId : Nat) {items : List CoverageItem} (hKeys : (items.map CoverageItem.id).Nodup)
    (hOwns : ∀ c ∈ items, t.Owns orderId .consumed c) :
    CoverageWrites orderId t (items.foldl (fun u c => u.restoreFuture commandId c) t) :=
  foldl_writes (fun _ _ hc => .restoreFuture hc commandId)
    (fun _ _ _ hOther hd => (hd.record (.inl (by simpa [CoverageItem.fact] using hOther))).setStatus hOther.symm)
    hKeys hOwns

/-! ## Operations -/

theorem Ok.owns_held (h : t.Ok) (hc : c ∈ t.coverage) (hOrder : c.orderId = orderId) (hHeld : c.status = .held) :
    t.Owns orderId .held c :=
  ⟨hc, hOrder, hHeld, ((h.items c hc).held hHeld).2⟩

theorem releaseCoverage_writes (h : t.Ok) (orderId commandId : Nat) (options : ReleaseOptions) :
    CoverageWrites orderId t (t.releaseCoverage orderId commandId options) := by
  refine releases_writes commandId _ (h.ofOrder_keys orderId _) fun c hc => ?_
  obtain ⟨hMem, hOrder, hOpen⟩ := mem_ofOrder.mp hc
  simp only [Bool.and_eq_true, decide_eq_true_eq] at hOpen
  exact h.owns_held hMem hOrder hOpen.1.1

theorem consumeCoverage_eq_ok {commandId : Nat} {serviceDates : Option (List Nat)} {reason : String} :
    t.consumeCoverage orderId commandId serviceDates reason = .ok u ↔
      (∀ dates ∈ serviceDates, (t.ofOrder orderId fun c => c.status = .held &&
          serviceDates.all (·.contains c.serviceDate)).map CoverageItem.serviceDate = requestedDates dates) ∧
        u = (t.ofOrder orderId fun c => c.status = .held && serviceDates.all (·.contains c.serviceDate)).foldl
          (fun u c => u.consume commandId reason c) t := by
  simp only [consumeCoverage, bind_eq_ok, require_eq_ok, pure_eq_ok]
  constructor
  · rintro ⟨_, hDates, rfl⟩
    exact ⟨hDates, rfl⟩
  · rintro ⟨hDates, rfl⟩
    exact ⟨(), hDates, rfl⟩

theorem consumeCoverage_writes (h : t.Ok) {commandId : Nat} {serviceDates : Option (List Nat)} {reason : String}
    (hRun : t.consumeCoverage orderId commandId serviceDates reason = .ok u) : CoverageWrites orderId t u := by
  obtain ⟨-, rfl⟩ := consumeCoverage_eq_ok.mp hRun
  refine consumes_writes commandId reason (h.ofOrder_keys orderId _) fun c hc => ?_
  obtain ⟨hMem, hOrder, hHeld⟩ := mem_ofOrder.mp hc
  simp only [Bool.and_eq_true, decide_eq_true_eq] at hHeld
  exact h.owns_held hMem hOrder hHeld.1

theorem restoreConsumedCoverage_writes (h : t.Ok) {commandId : Nat}
    (hRun : t.restoreConsumedCoverage orderId commandId = .ok u) : CoverageWrites orderId t u := by
  simp only [restoreConsumedCoverage, bind_eq_ok, require_eq_ok, pure_eq_ok] at hRun
  obtain ⟨_, hOpen, rfl⟩ := hRun
  refine restores_writes commandId (h.ofOrder_keys orderId _) fun c hc => ?_
  obtain ⟨hMem, hOrder, hConsumed⟩ := mem_ofOrder.mp hc
  exact ⟨hMem, hOrder, of_decide_eq_true hConsumed, (hOpen c hc).2⟩

theorem restoreFutureConsumedCoverage_writes (h : t.Ok) {commandId : Nat} {serviceDates : List Nat}
    (hRun : t.restoreFutureConsumedCoverage orderId commandId serviceDates = .ok u) : CoverageWrites orderId t u := by
  simp only [restoreFutureConsumedCoverage, bind_eq_ok, require_eq_ok, pure_eq_ok] at hRun
  obtain ⟨_, -, _, hOpen, rfl⟩ := hRun
  refine restoreFutures_writes commandId (h.ofOrder_keys orderId _) fun c hc => ?_
  obtain ⟨hMem, hOrder, hIn⟩ := mem_ofOrder.mp hc
  simp only [Bool.and_eq_true, decide_eq_true_eq] at hIn
  exact ⟨hMem, hOrder, hIn.2, (hOpen c hc).2⟩

theorem holdNight_writes {owner : CoverageOwner} {commandId : Nat} {night : CoveredNight}
    (hRun : holdNight owner commandId t night = .ok u) : CoverageWrites owner.orderId t u := by
  simp only [holdNight, bind_eq_ok] at hRun
  obtain ⟨lot, -, hRun⟩ := hRun
  split at hRun
  case h_1 =>
    simp only [bind_eq_ok, pure_eq_ok] at hRun
    obtain ⟨_, -, rfl⟩ := hRun
    exact .refl
  case h_2 hNone =>
    rw [pure_eq_ok] at hRun
    subst hRun
    refine .single (.hold (fun c hc hOrder hDate => ?_) lot.contractId commandId)
    have hIdle := List.find?_eq_none.mp hNone c hc
    simpa [hOrder, hDate] using hIdle

theorem holdCoverage_writes {owner : CoverageOwner} {coverageSet : List CoveredNight} {commandId : Nat}
    (hRun : t.holdCoverage owner coverageSet commandId = .ok u) : CoverageWrites owner.orderId t u :=
  foldlM_keeps (P := CoverageWrites owner.orderId t) (fun _ _ _ hs hStep => hs.trans (holdNight_writes hStep)) .refl
    hRun

/-! ## Reconciliation -/

section

variable {owner : CoverageOwner} {coverageSet : List CoveredNight} {commandId : Nat}

/-- The items whose night the plan does not have as it is are released. -/
def released (t : EntitlementTables) (orderId : Nat) (coverageSet : List CoveredNight) (commandId : Nat) :
    EntitlementTables :=
  (t.unwanted orderId coverageSet).foldl (fun u c => u.release commandId (t.lapses coverageSet) c) t

structure Reconciles (t : EntitlementTables) (owner : CoverageOwner) (coverageSet : List CoveredNight)
    (commandId : Nat) (u : EntitlementTables) : Prop where
  dates : (coverageSet.map CoveredNight.serviceDate).Nodup
  lots : ∀ night ∈ coverageSet, ∃ lot, t.lotOwner owner night.entitlementLotId = .ok lot
  consumed : ∀ c ∈ t.activeCoverage owner.orderId, c.status = .consumed → ∀ night ∈ coverageSet,
    night.serviceDate = c.serviceDate → t.coverageMatches c night = true
  result : u = (t.missing owner.orderId coverageSet).foldl
    (fun u night => u.hold owner.orderId (t.contractOf night.entitlementLotId) commandId night)
    (t.released owner.orderId coverageSet commandId)

theorem planNights_eq_ok {dates planned : List Nat} (h : coverageSet.foldlM (t.planNight owner) dates = .ok planned) :
    (coverageSet.map CoveredNight.serviceDate).Nodup ∧ (∀ night ∈ coverageSet, night.serviceDate ∉ dates) ∧
      ∀ night ∈ coverageSet, ∃ lot, t.lotOwner owner night.entitlementLotId = .ok lot := by
  induction coverageSet generalizing dates with
  | nil => simp
  | cons night rest ih =>
    simp only [List.foldlM_cons, planNight, bind_eq_ok, require_eq_ok, pure_eq_ok] at h
    obtain ⟨_, ⟨_, hFresh, lot, hLot, rfl⟩, hRest⟩ := h
    obtain ⟨hDates, hOthers, hLots⟩ := ih hRest
    refine ⟨List.nodup_cons.mpr ⟨fun hMem => ?_, hDates⟩, List.forall_mem_cons.mpr ⟨hFresh, fun other hOther hMem => ?_⟩,
      List.forall_mem_cons.mpr ⟨⟨lot, hLot⟩, hLots⟩⟩
    · obtain ⟨other, hOther, hDate⟩ := List.mem_map.mp hMem
      exact hOthers other hOther (hDate ▸ List.mem_cons_self)
    · exact hOthers other hOther (List.mem_cons_of_mem _ hMem)

theorem reconcileCoverage_eq_ok :
    t.reconcileCoverage owner coverageSet commandId = .ok u → t.Reconciles owner coverageSet commandId u := by
  intro h
  simp only [reconcileCoverage, bind_eq_ok, require_eq_ok, pure_eq_ok] at h
  obtain ⟨_, hPlanned, _, hConsumed, rfl⟩ := h
  obtain ⟨hDates, -, hLots⟩ := planNights_eq_ok hPlanned
  exact ⟨hDates, hLots, hConsumed, rfl⟩

theorem mem_unwanted : c ∈ t.unwanted orderId coverageSet ↔ c ∈ t.coverage ∧ c.orderId = orderId ∧
    c.status = .held ∧ ∀ night ∈ coverageSet, t.covers c night = false := by
  simp only [unwanted, List.mem_filter, mem_activeCoverage, Bool.and_eq_true, decide_eq_true_eq,
    Bool.not_eq_true', List.any_eq_false, Bool.not_eq_true]
  constructor
  · rintro ⟨⟨hc, hOrder, -⟩, hHeld, hNone⟩
    exact ⟨hc, hOrder, hHeld, hNone⟩
  · rintro ⟨hc, hOrder, hHeld, hNone⟩
    exact ⟨⟨hc, hOrder, by simp [CoverageItem.isActive, hHeld]⟩, hHeld, hNone⟩

theorem mem_missing {night : CoveredNight} : night ∈ t.missing orderId coverageSet ↔ night ∈ coverageSet ∧
    ∀ c ∈ t.activeCoverage orderId, t.covers c night = false := by
  simp [missing]

theorem released_coverage (t : EntitlementTables) (orderId : Nat) (coverageSet : List CoveredNight) (commandId : Nat) :
    (t.released orderId coverageSet commandId).coverage =
      t.coverage.map (settled (t.unwanted orderId coverageSet) .released) :=
  foldl_coverage (fun u c => release_coverage u commandId _ c) ..

theorem Ok.unwanted_keys (h : t.Ok) (orderId : Nat) (coverageSet : List CoveredNight) :
    ((t.unwanted orderId coverageSet).map CoverageItem.id).Nodup :=
  (h.ofOrder_keys orderId CoverageItem.isActive).sublist (List.filter_sublist.map _)

theorem Ok.released_writes (h : t.Ok) (orderId : Nat) (coverageSet : List CoveredNight) (commandId : Nat) :
    CoverageWrites orderId t (t.released orderId coverageSet commandId) := by
  refine releases_writes commandId _ (h.unwanted_keys orderId coverageSet) fun c hc => ?_
  obtain ⟨hMem, hOrder, hHeld, -⟩ := mem_unwanted.mp hc
  exact h.owns_held hMem hOrder hHeld

theorem Reconciles.free (h : t.Reconciles owner coverageSet commandId u) {night : CoveredNight}
    (hNight : night ∈ t.missing owner.orderId coverageSet) :
    (t.released owner.orderId coverageSet commandId).Free owner.orderId night.serviceDate := by
  intro c hc hOrder hDate
  rw [released_coverage] at hc
  obtain ⟨d, hd, rfl⟩ := List.mem_map.mp hc
  obtain ⟨hIn, hNone⟩ := mem_missing.mp hNight
  unfold settled at hOrder hDate ⊢
  split
  case isTrue => rfl
  case isFalse hKept =>
    rw [if_neg hKept] at hOrder hDate
    by_contra hActive
    rw [Bool.not_eq_false] at hActive
    have hUncovered := hNone d (mem_activeCoverage.mpr ⟨hd, hOrder, hActive⟩)
    cases hStatus : d.status with
    | released => simp [CoverageItem.isActive, hStatus] at hActive
    | consumed =>
      have hMatches := h.consumed d (mem_activeCoverage.mpr ⟨hd, hOrder, hActive⟩) hStatus night hIn hDate.symm
      simp [covers, hDate, hMatches] at hUncovered
    | held =>
      refine hKept (List.mem_map_of_mem (mem_unwanted.mpr ⟨hd, hOrder, hStatus, fun other hOther => ?_⟩))
      by_contra hCovers
      rw [Bool.not_eq_false] at hCovers
      have hSame : other.serviceDate = night.serviceDate := by
        simp only [covers, Bool.and_eq_true, decide_eq_true_eq] at hCovers
        exact hCovers.1.trans hDate
      obtain rfl := List.inj_on_of_nodup_map h.dates hOther hIn hSame
      rw [hCovers] at hUncovered
      cases hUncovered

theorem holds_writes {nights : List CoveredNight} (contractOf : Nat → Nat)
    (hDates : (nights.map CoveredNight.serviceDate).Nodup) (hFree : ∀ night ∈ nights, t.Free orderId night.serviceDate) :
    CoverageWrites orderId t
      (nights.foldl (fun u night => u.hold orderId (contractOf night.entitlementLotId) commandId night) t) := by
  have hApart : nights.Pairwise fun a b => a.serviceDate ≠ b.serviceDate := List.pairwise_map.mp hDates
  refine (foldl_keeps (P := CoverageWrites orderId t) (fun u night hu hNight => hu.tail (.hold hNight _ _))
    (fun u a b hOther _ _ hb c hc hOrder hDate => ?_) hApart .refl hFree).1
  obtain rfl | hc := List.mem_cons.mp hc
  · exact absurd hDate hOther
  · exact hb c hc hOrder hDate

theorem Reconciles.writes (h : t.Ok) (hRun : t.Reconciles owner coverageSet commandId u) :
    CoverageWrites owner.orderId t u := by
  rw [hRun.result]
  refine (h.released_writes owner.orderId coverageSet commandId).trans
    (holds_writes t.contractOf (hRun.dates.sublist (List.filter_sublist.map _)) fun night hNight => hRun.free hNight)

end

end EntitlementTables

end GreenPms
