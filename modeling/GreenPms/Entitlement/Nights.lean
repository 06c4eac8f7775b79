import GreenPms.Entitlement.Operations

/-! # Nights that operations take

Which nights an operation on coverage holds, or takes from their lots, anew. Release, consumption and
restoration take none, and a reconciliation takes those of its plan that no item of the order has.
-/

namespace GreenPms

open Checked Folds

namespace EntitlementTables

variable {t u v : EntitlementTables} {orderId commandId : Nat} {P Q : Nat → Option Nat → Option Nat → Prop}

def Holds (t : EntitlementTables) (lotId : Nat) (orderId serviceDate : Option Nat) : Prop :=
  ∃ c ∈ t.coverage, c.status = .held ∧ c.lotId = lotId ∧ orderId = some c.orderId ∧ serviceDate = some c.serviceDate

/-- The nights that are held or taken anew are of a kind; a lapse takes none. -/
structure Takes (t : EntitlementTables) (P : Nat → Option Nat → Option Nat → Prop) (u : EntitlementTables) : Prop where
  held : ∀ c ∈ u.coverage, c.status = .held → c ∈ t.coverage ∨ P c.lotId (some c.orderId) (some c.serviceDate)
  ledger : ∃ entries, u.ledger = entries ++ t.ledger ∧
    ∀ f ∈ entries, f.quantityDelta < 0 → f.entryType = .expire ∨ P f.lotId f.orderId f.serviceDate

theorem Takes.same (hCoverage : u.coverage = t.coverage) (hLedger : u.ledger = t.ledger) : t.Takes P u where
  held _ hc _ := .inl (hCoverage ▸ hc)
  ledger := ⟨[], hLedger, fun _ hNone => absurd hNone List.not_mem_nil⟩

theorem Takes.trans (h : t.Takes P u) (k : u.Takes P v) : t.Takes P v where
  held c hc hHeld := (k.held c hc hHeld).elim (fun hc => h.held c hc hHeld) .inr
  ledger := by
    obtain ⟨first, hFirst, hOld⟩ := h.ledger
    obtain ⟨second, hSecond, hNew⟩ := k.ledger
    exact ⟨second ++ first, by rw [hSecond, hFirst, List.append_assoc], List.forall_mem_append.mpr ⟨hNew, hOld⟩⟩

theorem Takes.mono (h : t.Takes P u) (hPQ : ∀ lotId orderId date, P lotId orderId date → Q lotId orderId date) :
    t.Takes Q u where
  held c hc hHeld := (h.held c hc hHeld).imp_right (hPQ _ _ _)
  ledger := by
    obtain ⟨entries, hLedger, hTaken⟩ := h.ledger
    exact ⟨entries, hLedger, fun f hf hDelta => (hTaken f hf hDelta).imp_right (hPQ _ _ _)⟩

/-! ## Writes -/

theorem record_takes (t : EntitlementTables) {f : LedgerFact}
    (hTaken : f.quantityDelta < 0 → f.entryType = .expire ∨ P f.lotId f.orderId f.serviceDate) :
    t.Takes P (t.record f) where
  held _ hc _ := .inl hc
  ledger := ⟨[f], rfl, List.forall_mem_singleton.mpr hTaken⟩

theorem setStatus_takes (t : EntitlementTables) (id : Nat) {status : CoverageStatus} (hStatus : status ≠ .held) :
    t.Takes P (t.setStatus id status) where
  held c hc hHeld := by
    obtain ⟨d, hd, rfl⟩ := mem_setStatus.mp hc
    by_cases hId : d.id = id
    · subst hId
      rw [update_same] at hHeld
      exact absurd hHeld hStatus
    · rw [update_other hId]
      exact .inl hd
  ledger := ⟨[], rfl, fun _ hNone => absurd hNone List.not_mem_nil⟩

theorem release_takes (t : EntitlementTables) (commandId : Nat) (lapses : CoverageItem → Bool) (c : CoverageItem) :
    t.Takes P (t.release commandId lapses c) := by
  have hReleased : t.Takes P ((t.setStatus c.id .released).record
      (c.fact .release 1 "ORDER_COVERAGE_RELEASE" commandId)) :=
    (setStatus_takes t c.id (by decide)).trans (record_takes _ fun hDelta => absurd hDelta (by decide : ¬(1 : Int) < 0))
  unfold release
  split
  · exact hReleased.trans (record_takes _ fun _ => .inl rfl)
  · exact hReleased

theorem consume_takes (t : EntitlementTables) (commandId : Nat) (reason : String) (c : CoverageItem) :
    t.Takes P (t.consume commandId reason c) :=
  (setStatus_takes t c.id (by decide)).trans (record_takes _ fun hDelta => absurd hDelta (lt_irrefl (0 : Int)))

theorem restore_takes (t : EntitlementTables) (commandId : Nat) (c : CoverageItem) :
    t.Takes P (t.restore commandId c) :=
  record_takes t fun hDelta => absurd hDelta (by decide : ¬(1 : Int) < 0)

theorem restoreFuture_takes (t : EntitlementTables) (commandId : Nat) (c : CoverageItem) :
    t.Takes P (t.restoreFuture commandId c) :=
  (record_takes t fun hDelta => absurd hDelta (by decide : ¬(1 : Int) < 0)).trans
    (setStatus_takes _ c.id (by decide))

theorem insert_takes {c : CoverageItem} {f : LedgerFact} (hFact : f.lotId = c.lotId)
    (hOrder : f.orderId = some c.orderId) (hDate : f.serviceDate = some c.serviceDate)
    (hNight : P c.lotId (some c.orderId) (some c.serviceDate)) : t.Takes P (t.insert c f) where
  held d hd _ := by
    obtain rfl | hd := List.mem_cons.mp hd
    · exact .inr hNight
    · exact .inl hd
  ledger := ⟨[f], rfl, List.forall_mem_singleton.mpr fun _ => .inr (by rwa [hFact, hOrder, hDate])⟩

theorem hold_takes (t : EntitlementTables) (orderId contractId commandId : Nat) {night : CoveredNight}
    (hNight : P night.entitlementLotId (some orderId) (some night.serviceDate)) :
    t.Takes P (t.hold orderId contractId commandId night) :=
  insert_takes rfl rfl rfl hNight

/-! ## Operations -/

theorem foldl_takes {α : Type} {write : EntitlementTables → α → EntitlementTables} {xs : List α}
    (hWrite : ∀ u : EntitlementTables, ∀ a ∈ xs, u.Takes P (write u a)) (t : EntitlementTables) : t.Takes P (xs.foldl write t) := by
  induction xs generalizing t with
  | nil => exact .same rfl rfl
  | cons a xs ih =>
    exact (hWrite t a List.mem_cons_self).trans (ih (fun u b hb => hWrite u b (List.mem_cons_of_mem a hb)) _)

theorem releaseCoverage_takes (t : EntitlementTables) (orderId commandId : Nat) (options : ReleaseOptions) :
    t.Takes P (t.releaseCoverage orderId commandId options) :=
  foldl_takes (fun u c _ => release_takes u commandId _ c) t

theorem consumeCoverage_takes {serviceDates : Option (List Nat)} {reason : String}
    (h : t.consumeCoverage orderId commandId serviceDates reason = .ok u) : t.Takes P u := by
  obtain ⟨-, rfl⟩ := consumeCoverage_eq_ok.mp h
  exact foldl_takes (fun u c _ => consume_takes u commandId reason c) t

theorem restoreConsumedCoverage_takes (h : t.restoreConsumedCoverage orderId commandId = .ok u) : t.Takes P u := by
  simp only [restoreConsumedCoverage, bind_eq_ok, require_eq_ok, pure_eq_ok] at h
  obtain ⟨_, -, rfl⟩ := h
  exact foldl_takes (fun u c _ => restore_takes u commandId c) t

theorem restoreFutureConsumedCoverage_takes {serviceDates : List Nat}
    (h : t.restoreFutureConsumedCoverage orderId commandId serviceDates = .ok u) : t.Takes P u := by
  simp only [restoreFutureConsumedCoverage, bind_eq_ok, require_eq_ok, pure_eq_ok] at h
  obtain ⟨_, -, _, -, rfl⟩ := h
  exact foldl_takes (fun u c _ => restoreFuture_takes u commandId c) t

section

variable {owner : CoverageOwner} {coverageSet : List CoveredNight}

theorem holdNight_takes {night : CoveredNight} (h : holdNight owner commandId t night = .ok u)
    (hNight : P night.entitlementLotId (some owner.orderId) (some night.serviceDate)) : t.Takes P u := by
  simp only [holdNight, bind_eq_ok] at h
  obtain ⟨lot, -, h⟩ := h
  split at h
  · simp only [bind_eq_ok, pure_eq_ok] at h
    obtain ⟨_, -, rfl⟩ := h
    exact .same rfl rfl
  · rw [pure_eq_ok] at h
    subst h
    exact hold_takes t owner.orderId lot.contractId commandId hNight

theorem holdCoverage_takes (h : t.holdCoverage owner coverageSet commandId = .ok u)
    (hNights : ∀ night ∈ coverageSet, P night.entitlementLotId (some owner.orderId) (some night.serviceDate)) :
    t.Takes P u := by
  rw [holdCoverage] at h
  induction coverageSet generalizing t with
  | nil =>
    rw [List.foldlM_nil, pure_eq_ok] at h
    subst h
    exact .same rfl rfl
  | cons night rest ih =>
    obtain ⟨hHead, hTail⟩ := List.forall_mem_cons.mp hNights
    rw [List.foldlM_cons, bind_eq_ok] at h
    obtain ⟨v, hFirst, hRest⟩ := h
    exact (holdNight_takes hFirst hHead).trans (ih hRest hTail)

theorem Reconciles.takes (h : t.Reconciles owner coverageSet commandId u)
    (hNights : ∀ night ∈ t.missing owner.orderId coverageSet,
      P night.entitlementLotId (some owner.orderId) (some night.serviceDate)) : t.Takes P u := by
  rw [h.result]
  exact (foldl_takes (fun u c _ => release_takes u commandId _ c) t).trans
    (foldl_takes (fun u night hNight => hold_takes u owner.orderId _ commandId (hNights night hNight)) _)

end

end EntitlementTables

end GreenPms
