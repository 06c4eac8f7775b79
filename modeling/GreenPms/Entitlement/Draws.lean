import GreenPms.Entitlement.Nights

/-! # What operations draw from a lot

The standing of a lot is what its ledger says of it apart from restored nights. No operation changes
the standing of an expired lot, and a plan draws from an open one at most the nights that no item of
the order had from it before.
-/

namespace GreenPms

open Checked Totals Folds

namespace EntitlementTables

variable {t u v : EntitlementTables} {orderId lotId commandId : Nat} {c : CoverageItem}

def restored (t : EntitlementTables) (lotId : Nat) : Nat :=
  t.ledger.countP fun f => f.lotId = lotId && f.entryType = .restore

def standing (t : EntitlementTables) (lotId : Nat) : Int := t.ledgerDelta lotId - t.restored lotId

theorem availableBalance_eq (t : EntitlementTables) (lot : EntitlementLot) :
    t.availableBalance lot = lot.totalUnits + t.standing lot.id + t.restored lot.id := by
  rw [availableBalance, standing]
  omega

/-! ## Entries -/

def settlement (f : LedgerFact) : Int := f.quantityDelta - if f.entryType = .restore then 1 else 0

theorem standing_record (t : EntitlementTables) (f : LedgerFact) (lotId : Nat) :
    (t.record f).standing lotId = t.standing lotId + if f.lotId = lotId then settlement f else 0 := by
  have hDelta : (t.record f).ledgerDelta lotId = (if f.lotId = lotId then f.quantityDelta else 0) + t.ledgerDelta lotId := by
    rw [ledgerDelta, ledgerDelta, record, total_cons]
    simp only [decide_eq_true_eq]
  have hRestored : (t.record f).restored lotId =
      t.restored lotId + if f.lotId = lotId && f.entryType = .restore then 1 else 0 := List.countP_cons
  rw [standing, standing, hDelta, hRestored, settlement]
  by_cases hLot : f.lotId = lotId <;> by_cases hType : f.entryType = .restore <;> simp [hLot, hType] <;> omega

/-- Later tables: entries are only added, and lots stay. -/
structure Extends (t u : EntitlementTables) : Prop where
  lots : ∀ lot ∈ t.lots, lot ∈ u.lots
  ledger : ∃ entries, u.ledger = entries ++ t.ledger

theorem Extends.refl (t : EntitlementTables) : t.Extends t := ⟨fun _ hLot => hLot, [], rfl⟩

theorem Extends.trans (h : t.Extends u) (k : u.Extends v) : t.Extends v := by
  obtain ⟨hLots, first, hFirst⟩ := h
  obtain ⟨kLots, second, hSecond⟩ := k
  exact ⟨fun lot hLot => kLots lot (hLots lot hLot), second ++ first, by rw [hSecond, hFirst, List.append_assoc]⟩

theorem Extends.expired (h : t.Extends u) (hExpired : t.expired lotId = true) : u.expired lotId = true := by
  obtain ⟨entries, hLedger⟩ := h.ledger
  rw [EntitlementTables.expired] at hExpired ⊢
  rw [hLedger, List.any_append, hExpired, Bool.or_true]

theorem Extends.restored (h : t.Extends u) (lotId : Nat) : t.restored lotId ≤ u.restored lotId := by
  obtain ⟨entries, hLedger⟩ := h.ledger
  rw [EntitlementTables.restored, EntitlementTables.restored, hLedger, List.countP_append]
  exact Nat.le_add_left ..

theorem Extends.record (h : t.Extends u) (f : LedgerFact) : t.Extends (u.record f) :=
  h.trans ⟨fun _ hLot => hLot, [f], rfl⟩

theorem CoverageWrite.extends (h : CoverageWrite orderId t u) : t.Extends u := by
  have hLots : ∀ lot ∈ t.lots, lot ∈ u.lots := fun lot hLot => h.rights.lots ▸ hLot
  refine ⟨hLots, ?_⟩
  cases h with
  | release hc commandId lapses =>
    unfold EntitlementTables.release
    split
    · exact ⟨[_, _], rfl⟩
    · exact ⟨[_], rfl⟩
  | _ => exact ⟨[_], rfl⟩

theorem CoverageWrites.extends (h : CoverageWrites orderId t u) : t.Extends u := by
  induction h with
  | refl => exact .refl t
  | tail _ hWrite ih => exact ih.trans hWrite.extends

/-- A night that, if its lot has expired, the order holds already. -/
def Kept (t : EntitlementTables) (lotId : Nat) (orderId serviceDate : Option Nat) : Prop :=
  t.expired lotId = true → t.Holds lotId orderId serviceDate

/-- Nothing is drawn from the lots that have expired, and of them only nights are held that were. -/
structure Settles (t u : EntitlementTables) : Prop where
  later : t.Extends u
  standing : ∀ lotId, t.expired lotId = true → u.standing lotId = t.standing lotId
  taken : t.Takes t.Kept u

theorem Settles.refl (t : EntitlementTables) : t.Settles t := ⟨.refl t, fun _ _ => rfl, .same rfl rfl⟩

theorem Settles.kept (h : t.Settles u) {date : Option Nat} {order : Option Nat} (hKept : u.Kept lotId order date) :
    t.Kept lotId order date := by
  intro hExpired
  obtain ⟨c, hc, hHeld, hLot, rfl, rfl⟩ := hKept (h.later.expired hExpired)
  obtain hOld | hHolds := h.taken.held c hc hHeld
  · exact ⟨c, hOld, hHeld, hLot, rfl, rfl⟩
  · rw [hLot] at hHolds
    exact hHolds hExpired

theorem Settles.trans (h : t.Settles u) (k : u.Settles v) : t.Settles v where
  later := h.later.trans k.later
  standing lotId hExpired := (k.standing lotId (h.later.expired hExpired)).trans (h.standing lotId hExpired)
  taken := h.taken.trans (k.taken.mono fun _ _ _ => h.kept)

/-! ## Loops -/

/-- A loop whose writes settle the same of a lot for each element. -/
theorem foldl_standing {α : Type} {write : EntitlementTables → α → EntitlementTables} {p : α → Bool} {n : Int}
    (hWrite : ∀ u a, (write u a).standing lotId = u.standing lotId + if p a then n else 0) (xs : List α)
    (t : EntitlementTables) : (xs.foldl write t).standing lotId = t.standing lotId + n * xs.countP p := by
  induction xs generalizing t with
  | nil => simp
  | cons a xs ih =>
    rw [List.foldl_cons, ih, hWrite, List.countP_cons]
    cases p a
    · simp
    · simp only [if_true, Int.natCast_add, Int.natCast_one, Int.mul_add, Int.mul_one]
      omega

theorem release_standing (t : EntitlementTables) (commandId : Nat) (lapses : CoverageItem → Bool) (c : CoverageItem)
    (lotId : Nat) : (t.release commandId lapses c).standing lotId =
      t.standing lotId + if c.lotId = lotId && !lapses c then 1 else 0 := by
  have hReleased : ((t.setStatus c.id .released).record
      (c.fact .release 1 "ORDER_COVERAGE_RELEASE" commandId)).standing lotId =
        t.standing lotId + if c.lotId = lotId then 1 else 0 := standing_record ..
  unfold release
  split
  case isTrue hLapses =>
    rw [standing_record, hReleased]
    by_cases hLot : c.lotId = lotId <;> simp [CoverageItem.fact, settlement, hLot, hLapses]
  case isFalse hKept =>
    rw [hReleased]
    by_cases hLot : c.lotId = lotId <;> simp [hLot, hKept]

theorem hold_standing (t : EntitlementTables) (orderId commandId contractId : Nat) (night : CoveredNight) (lotId : Nat) :
    (t.hold orderId contractId commandId night).standing lotId =
      t.standing lotId + if night.entitlementLotId = lotId then -1 else 0 :=
  standing_record t ((t.newItem orderId contractId night .held).fact .hold (-1) "ORDER_COVERAGE_HOLD" commandId) lotId

theorem consume_standing (t : EntitlementTables) (reason : String) (c : CoverageItem) (lotId : Nat) :
    (t.consume commandId reason c).standing lotId = t.standing lotId :=
  (standing_record (t.setStatus c.id .consumed) (c.fact .consume 0 reason commandId) lotId).trans
    (by simp [CoverageItem.fact, settlement]; rfl)

theorem restore_standing (t : EntitlementTables) (c : CoverageItem) (lotId : Nat) :
    (t.restore commandId c).standing lotId = t.standing lotId := by
  rw [restore, standing_record]
  simp [CoverageItem.fact, settlement]

theorem restoreFuture_standing (t : EntitlementTables) (c : CoverageItem) (lotId : Nat) :
    (t.restoreFuture commandId c).standing lotId = t.standing lotId := by
  refine (standing_record t (c.fact .restore 1 "SHORTEN_STAY_FUTURE_ENTITLEMENT_RESTORED" commandId) lotId).trans ?_
  simp [CoverageItem.fact, settlement]

theorem foldl_still {α : Type} {write : EntitlementTables → α → EntitlementTables}
    (hWrite : ∀ u a, (write u a).standing lotId = u.standing lotId) (xs : List α) (t : EntitlementTables) :
    (xs.foldl write t).standing lotId = t.standing lotId := by
  have hNone := foldl_standing (p := fun _ => false) (n := 0) (fun u a => (hWrite u a).trans (by simp)) xs t
  rw [hNone]
  omega

theorem releases_standing (t : EntitlementTables) (commandId : Nat) (lapses : CoverageItem → Bool)
    (items : List CoverageItem) (lotId : Nat) :
    (items.foldl (fun u c => u.release commandId lapses c) t).standing lotId =
      t.standing lotId + items.countP fun c => c.lotId = lotId && !lapses c := by
  have hLoop := foldl_standing (fun u c => release_standing u commandId lapses c lotId) items t
  rwa [Int.one_mul] at hLoop

/-! ## Operations that draw nothing -/

structure Still (t u : EntitlementTables) : Prop where
  standing : ∀ lotId, u.standing lotId = t.standing lotId
  taken : t.Takes (fun _ _ _ => False) u

theorem Still.refl (t : EntitlementTables) : t.Still t := ⟨fun _ => rfl, .same rfl rfl⟩

theorem consumeCoverage_still {serviceDates : Option (List Nat)} {reason : String}
    (h : t.consumeCoverage orderId commandId serviceDates reason = .ok u) : t.Still u := by
  refine ⟨fun lotId => ?_, consumeCoverage_takes h⟩
  obtain ⟨-, rfl⟩ := consumeCoverage_eq_ok.mp h
  exact foldl_still (fun u c => consume_standing u reason c lotId) ..

theorem restoreConsumedCoverage_still (h : t.restoreConsumedCoverage orderId commandId = .ok u) : t.Still u := by
  refine ⟨fun lotId => ?_, restoreConsumedCoverage_takes h⟩
  simp only [restoreConsumedCoverage, bind_eq_ok, require_eq_ok, pure_eq_ok] at h
  obtain ⟨_, -, rfl⟩ := h
  exact foldl_still (fun u c => restore_standing u c lotId) ..

theorem restoreFutureConsumedCoverage_still {serviceDates : List Nat}
    (h : t.restoreFutureConsumedCoverage orderId commandId serviceDates = .ok u) : t.Still u := by
  refine ⟨fun lotId => ?_, restoreFutureConsumedCoverage_takes h⟩
  simp only [restoreFutureConsumedCoverage, bind_eq_ok, require_eq_ok, pure_eq_ok] at h
  obtain ⟨_, -, _, -, rfl⟩ := h
  exact foldl_still (fun u c => restoreFuture_standing u c lotId) ..

/-- A released night goes back to an open lot only. -/
theorem releaseCoverage_standing (t : EntitlementTables) (orderId commandId : Nat) (lotId : Nat) :
    t.standing lotId ≤ (t.releaseCoverage orderId commandId ⟨none, none, []⟩).standing lotId ∧
      (t.expired lotId = true →
        (t.releaseCoverage orderId commandId ⟨none, none, []⟩).standing lotId = t.standing lotId) := by
  rw [releaseCoverage, releases_standing]
  refine ⟨by omega, fun hExpired => ?_⟩
  rw [List.countP_eq_zero.mpr]
  · omega
  · intro c _ hIn
    simp only [lapses, List.any_nil, Bool.not_false, Bool.and_true, Bool.and_eq_true, decide_eq_true_eq,
      Bool.not_eq_true'] at hIn
    rw [hIn.1, hExpired] at hIn
    cases hIn.2

/-! ## Reconciliation -/

section

variable {owner : CoverageOwner} {coverageSet : List CoveredNight} {night : CoveredNight}

theorem Ok.activeCoverage_dates (h : t.Ok) (orderId : Nat) :
    ((t.activeCoverage orderId).map CoverageItem.serviceDate).Nodup := by
  refine (List.Nodup.of_map _ (h.ofOrder_keys orderId CoverageItem.isActive)).map_on fun c hc d hd hDate => ?_
  obtain ⟨hc, hcOrder, hcActive⟩ := mem_activeCoverage.mp hc
  obtain ⟨hd, hdOrder, hdActive⟩ := mem_activeCoverage.mp hd
  exact h.single c hc d hd (hcOrder.trans hdOrder.symm) hDate hcActive hdActive

def hasNight (rows : List CoverageItem) (night : CoveredNight) : Bool :=
  rows.any fun c => c.serviceDate = night.serviceDate && c.lotId = night.entitlementLotId

def drawn (t : EntitlementTables) (orderId : Nat) (coverageSet : List CoveredNight) (lotId : Nat) : Nat :=
  coverageSet.countP fun night => night.entitlementLotId = lotId && !hasNight (t.activeCoverage orderId) night

def freed (t : EntitlementTables) (orderId : Nat) (coverageSet : List CoveredNight) (lotId : Nat) : Nat :=
  (t.activeCoverage orderId).countP fun c => (c.status = .held && c.lotId = lotId) &&
    !(coverageSet.map CoveredNight.serviceDate).contains c.serviceDate

theorem hasNight_eq_true {rows : List CoverageItem} : hasNight rows night = true ↔
    ∃ c ∈ rows, c.serviceDate = night.serviceDate ∧ c.lotId = night.entitlementLotId := by
  simp [hasNight]

theorem Reconciles.standing (h : t.Reconciles owner coverageSet commandId u) (lotId : Nat) :
    u.standing lotId + (t.missing owner.orderId coverageSet).countP (fun night => night.entitlementLotId = lotId) =
      t.standing lotId + (t.unwanted owner.orderId coverageSet).countP fun c =>
        c.lotId = lotId && !t.lapses coverageSet c := by
  have hHolds := foldl_standing (p := fun night : CoveredNight => decide (night.entitlementLotId = lotId)) (n := -1)
    (fun u night => (hold_standing u owner.orderId commandId
      (t.contractOf night.entitlementLotId) night lotId).trans (by simp)) (t.missing owner.orderId coverageSet)
    (t.released owner.orderId coverageSet commandId)
  rw [h.result, hHolds, released, releases_standing]
  omega

theorem Reconciles.replaced (hOk : t.Ok) (h : t.Reconciles owner coverageSet commandId u)
    (hNight : night ∈ t.missing owner.orderId coverageSet) (hc : c ∈ t.activeCoverage owner.orderId)
    (hDate : c.serviceDate = night.serviceDate) : c ∈ t.unwanted owner.orderId coverageSet := by
  obtain ⟨hMem, hOrder, hActive⟩ := mem_activeCoverage.mp hc
  have hReleased := h.free hNight (settled (t.unwanted owner.orderId coverageSet) .released c)
  rw [released_coverage] at hReleased
  unfold settled at hReleased
  split at hReleased
  case isTrue hIn =>
    obtain ⟨d, hd, hId⟩ := List.mem_map.mp hIn
    rwa [← hOk.eq_of_id (mem_unwanted.mp hd).1 hMem hId]
  case isFalse hKept =>
    have hFree := hReleased (List.mem_map.mpr ⟨c, hMem, if_neg hKept⟩) hOrder hDate
    rw [hActive] at hFree
    cases hFree

def reheld (t : EntitlementTables) (orderId : Nat) (coverageSet : List CoveredNight) (lotId : Nat) : Nat :=
  (t.missing orderId coverageSet).countP fun night =>
    night.entitlementLotId = lotId && hasNight (t.activeCoverage orderId) night

theorem missing_le (t : EntitlementTables) (orderId : Nat) (coverageSet : List CoveredNight) (lotId : Nat) :
    (t.missing orderId coverageSet).countP (fun night => night.entitlementLotId = lotId) ≤
      t.reheld orderId coverageSet lotId + t.drawn orderId coverageSet lotId := by
  rw [countP_split _ (hasNight (t.activeCoverage orderId))]
  exact Nat.add_le_add_left (List.filter_sublist.countP_le) _

theorem mem_unwanted_active (hc : c ∈ t.unwanted orderId coverageSet) : c ∈ t.activeCoverage orderId := by
  obtain ⟨hMem, hOrder, hHeld, -⟩ := mem_unwanted.mp hc
  exact mem_activeCoverage.mpr ⟨hMem, hOrder, by simp [CoverageItem.isActive, hHeld]⟩

theorem Reconciles.reheld_le (hOk : t.Ok) (h : t.Reconciles owner coverageSet commandId u) (lotId : Nat) :
    t.reheld owner.orderId coverageSet lotId ≤ (t.unwanted owner.orderId coverageSet).countP fun c =>
      (c.lotId = lotId && !t.lapses coverageSet c) &&
        (coverageSet.map CoveredNight.serviceDate).contains c.serviceDate := by
  refine countP_le_of_keys (h.dates.sublist (List.filter_sublist.map _)) (g := CoverageItem.serviceDate)
    fun night hNight hIn => ?_
  simp only [Bool.and_eq_true, decide_eq_true_eq, hasNight_eq_true] at hIn
  obtain ⟨rfl, c, hc, hDate, hLot⟩ := hIn
  have hPlan := (mem_missing.mp hNight).1
  refine ⟨c, h.replaced hOk hNight hc hDate, ?_, hDate⟩
  have hKept : t.lapses coverageSet c = false := by
    rw [lapses, Bool.and_eq_false_iff, Bool.not_eq_false', List.any_eq_true]
    exact .inr ⟨night, hPlan, by simp [hDate, hLot]⟩
  simp only [hLot, hKept, decide_true, Bool.not_false, Bool.true_and, List.contains_iff_mem]
  exact hDate ▸ List.mem_map_of_mem hPlan

theorem Ok.unlapsed_le (hOk : t.Ok) (hExpired : t.expired lotId = true) (orderId : Nat)
    (coverageSet : List CoveredNight) :
    ((t.unwanted orderId coverageSet).countP fun c => c.lotId = lotId && !t.lapses coverageSet c) ≤
      t.reheld orderId coverageSet lotId := by
  have hDates : ((t.unwanted orderId coverageSet).map CoverageItem.serviceDate).Nodup :=
    (hOk.activeCoverage_dates orderId).sublist (List.filter_sublist.map _)
  refine countP_le_of_keys hDates (g := CoveredNight.serviceDate) fun c hc hIn => ?_
  simp only [Bool.and_eq_true, decide_eq_true_eq, Bool.not_eq_true', lapses, Bool.and_eq_false_iff,
    Bool.not_eq_false', List.any_eq_true] at hIn
  obtain ⟨rfl, hOpen | ⟨night, hNight, hDate, hLot⟩⟩ := hIn
  · rw [hExpired] at hOpen
    cases hOpen
  · have hActive := mem_unwanted_active hc
    refine ⟨night, mem_missing.mpr ⟨hNight, fun d hd => ?_⟩, ?_, hDate⟩
    · by_contra hCovers
      rw [Bool.not_eq_false] at hCovers
      have hSame : d.serviceDate = c.serviceDate := by
        simp only [covers, Bool.and_eq_true, decide_eq_true_eq] at hCovers
        exact hCovers.1.symm.trans hDate
      obtain rfl := List.inj_on_of_nodup_map (hOk.activeCoverage_dates orderId) hd hActive hSame
      rw [(mem_unwanted.mp hc).2.2.2 night hNight] at hCovers
      cases hCovers
    · rw [Bool.and_eq_true, decide_eq_true_eq, hasNight_eq_true]
      exact ⟨hLot, c, hActive, hDate.symm, hLot.symm⟩

theorem freed_le (hOpen : t.expired lotId = false) (orderId : Nat) (coverageSet : List CoveredNight) :
    t.freed orderId coverageSet lotId ≤ (t.unwanted orderId coverageSet).countP fun c =>
      (c.lotId = lotId && !t.lapses coverageSet c) &&
        !(coverageSet.map CoveredNight.serviceDate).contains c.serviceDate := by
  have hFilter : (t.activeCoverage orderId).countP (fun c => (c.status = .held && c.lotId = lotId) &&
      !(coverageSet.map CoveredNight.serviceDate).contains c.serviceDate) =
      (t.unwanted orderId coverageSet).countP fun c => c.lotId = lotId &&
        !(coverageSet.map CoveredNight.serviceDate).contains c.serviceDate := by
    rw [unwanted, List.countP_filter]
    refine List.countP_congr fun c _ => ?_
    simp only [Bool.and_eq_true, decide_eq_true_eq, Bool.not_eq_true', List.any_eq_false]
    constructor
    · rintro ⟨⟨hHeld, hLot⟩, hOut⟩
      refine ⟨⟨hLot, hOut⟩, hHeld, fun night hNight hCovers => ?_⟩
      simp only [covers, Bool.and_eq_true, decide_eq_true_eq] at hCovers
      rw [← hCovers.1, List.contains_eq_mem, decide_eq_false_iff_not] at hOut
      exact hOut (List.mem_map_of_mem hNight)
    · rintro ⟨⟨hLot, hOut⟩, hHeld, -⟩
      exact ⟨⟨hHeld, hLot⟩, hOut⟩
  rw [freed, hFilter]
  refine List.countP_mono_left fun c _ hIn => ?_
  simp only [Bool.and_eq_true, decide_eq_true_eq] at hIn
  exact Bool.and_eq_true_iff.mpr ⟨by simp [lapses, hIn.1, hOpen], hIn.2⟩

/-- Reconciliation takes at most the new nights from an open lot, after it has given back those that
the plan frees, and nothing from an expired lot without new nights. -/
theorem Reconciles.draws (hOk : t.Ok) (h : t.Reconciles owner coverageSet commandId u) (lotId : Nat) :
    (t.expired lotId = false →
      t.standing lotId + t.freed owner.orderId coverageSet lotId ≤
        u.standing lotId + t.drawn owner.orderId coverageSet lotId) ∧
    (t.expired lotId = true → t.drawn owner.orderId coverageSet lotId = 0 → u.standing lotId = t.standing lotId) := by
  have hStanding := h.standing lotId
  have hMissing := missing_le t owner.orderId coverageSet lotId
  have hReheld := h.reheld_le hOk lotId
  have hSplit := countP_split (fun c => c.lotId = lotId && !t.lapses coverageSet c)
    (fun c => (coverageSet.map CoveredNight.serviceDate).contains c.serviceDate) (t.unwanted owner.orderId coverageSet)
  refine ⟨fun hOpen => ?_, fun hExpired hNone => ?_⟩
  · have hFreed := freed_le hOpen owner.orderId coverageSet
    omega
  · have hUnlapsed := hOk.unlapsed_le hExpired owner.orderId coverageSet
    have hAll : t.reheld owner.orderId coverageSet lotId ≤
        (t.missing owner.orderId coverageSet).countP fun night => night.entitlementLotId = lotId :=
      List.countP_mono_left fun night _ hIn => (Bool.and_eq_true_iff.mp hIn).1
    omega

/-- Of an expired lot a plan without new nights holds only what the order held. -/
theorem Reconciles.taken (hOk : t.Ok) (h : t.Reconciles owner coverageSet commandId u)
    (hNone : ∀ lotId, t.expired lotId = true → t.drawn owner.orderId coverageSet lotId = 0) : t.Takes t.Kept u := by
  refine h.takes fun night hNight hExpired => ?_
  have hHad : hasNight (t.activeCoverage owner.orderId) night = true := by
    by_contra hNew
    refine List.countP_eq_zero.mp (hNone night.entitlementLotId hExpired) night (mem_missing.mp hNight).1 ?_
    simpa using hNew
  obtain ⟨c, hc, hDate, hLot⟩ := hasNight_eq_true.mp hHad
  obtain ⟨hMem, hOrder, hHeld, -⟩ := mem_unwanted.mp (h.replaced hOk hNight hc hDate)
  exact ⟨c, hMem, hHeld, hLot, congrArg some hOrder.symm, congrArg some hDate.symm⟩

end

/-! ## Coverage of a new order -/

theorem holdNight_standing {owner : CoverageOwner} {night : CoveredNight}
    (h : holdNight owner commandId t night = .ok u) (lotId : Nat) :
    u.standing lotId ≤ t.standing lotId ∧
      t.standing lotId ≤ u.standing lotId + if night.entitlementLotId = lotId then 1 else 0 := by
  simp only [holdNight, bind_eq_ok] at h
  obtain ⟨lot, -, h⟩ := h
  split at h
  · simp only [bind_eq_ok, pure_eq_ok] at h
    obtain ⟨_, -, rfl⟩ := h
    exact ⟨le_rfl, by split <;> omega⟩
  · rw [pure_eq_ok] at h
    subst h
    rw [hold_standing]
    split <;> omega

theorem holdCoverage_standing {owner : CoverageOwner} {coverageSet : List CoveredNight}
    (h : t.holdCoverage owner coverageSet commandId = .ok u) (lotId : Nat) :
    u.standing lotId ≤ t.standing lotId ∧
      t.standing lotId ≤ u.standing lotId + coverageSet.countP fun night => night.entitlementLotId = lotId := by
  rw [holdCoverage] at h
  induction coverageSet generalizing t with
  | nil =>
    rw [List.foldlM_nil, pure_eq_ok] at h
    subst h
    simp
  | cons night rest ih =>
    rw [List.foldlM_cons, bind_eq_ok] at h
    obtain ⟨v, hFirst, hRest⟩ := h
    have hHead := holdNight_standing hFirst lotId
    have hTail := ih hRest
    have hCount : ((night :: rest).countP fun night => decide (night.entitlementLotId = lotId)) =
        (rest.countP fun night => decide (night.entitlementLotId = lotId)) +
          if night.entitlementLotId = lotId then 1 else 0 := by simp [List.countP_cons]
    by_cases hLot : night.entitlementLotId = lotId
    · rw [if_pos hLot] at hHead hCount
      omega
    · rw [if_neg hLot] at hHead hCount
      omega

end EntitlementTables

end GreenPms
