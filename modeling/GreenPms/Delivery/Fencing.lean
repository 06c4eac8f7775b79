import Mathlib.Data.List.Nodup
import GreenPms.Delivery.Machine

/-! # Delivery fencing

A claim is the only one of its generation, a finish closes the generation it matches, and a
delivery that is accepted or given up takes part in nothing any more.
-/

namespace GreenPms

open TransitionSystem DeliveryTables

variable {rt : HttpRuntime} {stream : DeliveryStream} {es : List DeliveryEvent} {w : DeliveryWorld}

def claimCount (es : List DeliveryEvent) (eventId : String) : Nat := (es.filter (DeliveryEvent.claimsOf eventId)).length

theorem claimCount_append (es fs : List DeliveryEvent) (eventId : String) :
    claimCount (es ++ fs) eventId = claimCount es eventId + claimCount fs eventId := by
  simp [claimCount]

/-- An acceptance in the history, with the receipt the receiver gave for this event. -/
def AcceptedBy (rt : HttpRuntime) (es : List DeliveryEvent) (eventId receipt : String) : Prop :=
  ∃ worker claim outcome expired, .finished worker claim outcome expired true ∈ es ∧
    claim.eventId = eventId ∧ outcome.receipt = some receipt ∧ Acknowledged rt eventId receipt

structure DeliveryWorld.Fenced (rt : HttpRuntime) (es : List DeliveryEvent) (w : DeliveryWorld) : Prop where
  keys : (w.tables.deliveries.map Delivery.eventId).Nodup
  counted : ∀ d ∈ w.tables.deliveries, d.generation = claimCount es d.eventId ∧ d.attempts = d.generation
  handed : w.held.map HeldClaim.claim = es.filterMap DeliveryEvent.claim
  issued : ∀ h ∈ w.held, ∃ d ∈ w.tables.deliveries, d.eventId = h.claim.eventId ∧
    h.claim.generation ≤ d.generation ∧
    (h.claim.generation = d.generation → d.state = .sending → d.leaseUntil = some h.leaseUntil)
  distinct : w.held.Pairwise fun h k => h.claim.eventId = k.claim.eventId → h.claim.generation < k.claim.generation
  closed : ∀ row ∈ w.tables.attempts, ∃ d ∈ w.tables.deliveries, ∃ g, row.eventId = some d.eventId ∧
    row.generation = some g ∧ g ≤ d.generation ∧ (g = d.generation → d.state ≠ .sending)
  once : (w.tables.attempts.map fun row => (row.eventId, row.generation)).Nodup
  logged : w.tables.attempts = es.filterMap DeliveryEvent.attempt
  receipts : ∀ d ∈ w.tables.deliveries, d.state = .accepted →
    ∃ receipt, d.receiptId = some receipt ∧ AcceptedBy rt es d.eventId receipt

theorem AcceptedBy.append {eventId receipt : String} (h : AcceptedBy rt es eventId receipt)
    (fs : List DeliveryEvent) : AcceptedBy rt (es ++ fs) eventId receipt := by
  obtain ⟨worker, claim, outcome, expired, hMem, hRest⟩ := h
  exact ⟨worker, claim, outcome, expired, List.mem_append_left _ hMem, hRest⟩

namespace DeliveryWorld.Fenced

theorem eq_of_id (h : w.Fenced rt es) {c d : Delivery} (hc : c ∈ w.tables.deliveries)
    (hd : d ∈ w.tables.deliveries) (hId : c.eventId = d.eventId) : c = d :=
  List.inj_on_of_nodup_map h.keys hc hd hId

theorem frame (h : w.Fenced rt es) {e : DeliveryEvent} {w' : DeliveryWorld}
    (hRows : w'.tables.deliveries = w.tables.deliveries) (hHeld : w'.held = w.held)
    (hAttempts : w'.tables.attempts = w.tables.attempts) (hClaim : e.claim = none) (hAttempt : e.attempt = none) :
    w'.Fenced rt (es ++ [e]) where
  keys := hRows ▸ h.keys
  counted d hd := by
    obtain ⟨hGeneration, hSame⟩ := h.counted d (hRows ▸ hd)
    refine ⟨?_, hSame⟩
    rw [claimCount_append, hGeneration]
    simp [claimCount, DeliveryEvent.claimsOf, hClaim]
  handed := by simp [hHeld, h.handed, hClaim]
  issued := by rw [hHeld, hRows]; exact h.issued
  distinct := hHeld ▸ h.distinct
  closed := by rw [hAttempts, hRows]; exact h.closed
  once := hAttempts ▸ h.once
  logged := by simp [hAttempts, h.logged, hAttempt]
  receipts := by
    intro d hd hState
    obtain ⟨receipt, hReceipt, hBy⟩ := h.receipts d (hRows ▸ hd) hState
    exact ⟨receipt, hReceipt, hBy.append _⟩

/-- An event no row knows was never claimed. -/
theorem unclaimed (h : w.Fenced rt es) {eventId : String}
    (hFresh : ∀ d ∈ w.tables.deliveries, d.eventId ≠ eventId) : claimCount es eventId = 0 := by
  rw [claimCount, List.length_eq_zero_iff, List.filter_eq_nil_iff]
  intro e he hClaims
  obtain ⟨c, hc, hId⟩ := (Option.any_eq_true _ _).mp hClaims
  have hMem : c ∈ w.held.map HeldClaim.claim := h.handed ▸ List.mem_filterMap.mpr ⟨e, he, hc⟩
  obtain ⟨k, hk, rfl⟩ := List.mem_map.mp hMem
  obtain ⟨d, hd, hRow, -⟩ := h.issued k hk
  exact hFresh d hd (hRow.trans (by simpa using hId))

theorem publish (h : w.Fenced rt es) (e : PublishedEvent) (at_ : Nat)
    (hFresh : ∀ d ∈ w.tables.deliveries, d.eventId ≠ e.eventId) :
    DeliveryWorld.Fenced rt (es ++ [.published e]) { w with tables := w.tables.publish e at_ } where
  keys := by
    simp only [DeliveryTables.publish, List.map_append, List.map_cons, List.map_nil]
    refine List.nodup_append.mpr ⟨h.keys, List.nodup_singleton _, ?_⟩
    rintro _ hOld _ hNew rfl
    obtain ⟨d, hd, hId⟩ := List.mem_map.mp hOld
    exact hFresh d hd (hId.trans (List.mem_singleton.mp hNew))
  counted := by
    intro d hd
    rw [claimCount_append]
    obtain hd | hd := List.mem_append.mp hd
    · obtain ⟨hGeneration, hSame⟩ := h.counted d hd
      exact ⟨by simpa [claimCount, DeliveryEvent.claimsOf, DeliveryEvent.claim] using hGeneration, hSame⟩
    · obtain rfl := List.mem_singleton.mp hd
      have hNone := h.unclaimed hFresh
      exact ⟨by rw [hNone]; rfl, rfl⟩
  handed := by simp [h.handed, DeliveryEvent.claim]
  issued := by
    intro k hk
    obtain ⟨d, hd, hRest⟩ := h.issued k hk
    exact ⟨d, List.mem_append_left _ hd, hRest⟩
  distinct := h.distinct
  closed := by
    intro row hRow
    obtain ⟨d, hd, hRest⟩ := h.closed row hRow
    exact ⟨d, List.mem_append_left _ hd, hRest⟩
  once := h.once
  logged := by
    rw [List.filterMap_append, ← h.logged]
    exact (List.append_nil _).symm
  receipts := by
    intro d hd hState
    obtain hd | hd := List.mem_append.mp hd
    · obtain ⟨receipt, hReceipt, hBy⟩ := h.receipts d hd hState
      exact ⟨receipt, hReceipt, hBy.append _⟩
    · obtain rfl := List.mem_singleton.mp hd
      cases hState

theorem claim (h : w.Fenced rt es) (worker : Nat) {d : Delivery} (hd : d ∈ w.tables.deliveries) (body : String)
    (deliveryId : String) (leaseMs now : Nat) (hState : d.state = .pending ∨ d.state = .sending) :
    DeliveryWorld.Fenced rt (es ++ [.claimed worker (some ⟨d.eventId, body, d.generation + 1, d.attempts + 1,
        d.firstAttemptAt.getD now, deliveryId⟩)])
      { w with
        tables := w.tables.update (fun c => c.eventId = d.eventId) (claimRow deliveryId leaseMs now)
        held := w.held ++ [⟨worker, ⟨d.eventId, body, d.generation + 1, d.attempts + 1,
          d.firstAttemptAt.getD now, deliveryId⟩, now + leaseMs⟩] } := by
  have hRows : ∀ c' ∈ (w.tables.update (fun c => c.eventId = d.eventId)
      (claimRow deliveryId leaseMs now)).deliveries,
      (c' ∈ w.tables.deliveries ∧ c'.eventId ≠ d.eventId) ∨ c' = claimRow deliveryId leaseMs now d := by
    intro c' hc'
    obtain ⟨c, hc, rfl⟩ := mem_update.mp hc'
    by_cases hId : c.eventId = d.eventId
    · obtain rfl := h.eq_of_id hc hd hId
      exact .inr (by simp)
    · exact .inl (by simpa [hId] using hc)
  have hKept : ∀ c ∈ w.tables.deliveries, ∃ c' ∈ (w.tables.update (fun c => c.eventId = d.eventId)
      (claimRow deliveryId leaseMs now)).deliveries, c'.eventId = c.eventId ∧
        (c' = c ∧ c.eventId ≠ d.eventId ∨ c = d ∧ c' = claimRow deliveryId leaseMs now d) := by
    intro c hc
    refine ⟨_, mem_update.mpr ⟨c, hc, rfl⟩, ?_⟩
    by_cases hId : c.eventId = d.eventId
    · obtain rfl := h.eq_of_id hc hd hId
      simp [claimRow]
    · simp [hId]
  constructor
  · have hSame : (w.tables.update (fun c => c.eventId = d.eventId)
        (claimRow deliveryId leaseMs now)).deliveries.map Delivery.eventId =
        w.tables.deliveries.map Delivery.eventId := by
      rw [update, List.map_map]
      refine List.map_congr_left fun c _ => ?_
      simp only [Function.comp_apply]
      split <;> rfl
    exact hSame ▸ h.keys
  · intro c' hc'
    rw [claimCount_append]
    obtain ⟨hc, hId⟩ | rfl := hRows c' hc'
    · obtain ⟨hGeneration, hSame⟩ := h.counted c' hc
      refine ⟨?_, hSame⟩
      rw [hGeneration]
      simp [claimCount, DeliveryEvent.claimsOf, DeliveryEvent.claim, Ne.symm hId]
    · obtain ⟨hGeneration, hSame⟩ := h.counted d hd
      simp [claimRow, hSame, hGeneration, claimCount, DeliveryEvent.claimsOf, DeliveryEvent.claim]
  · simp [h.handed, DeliveryEvent.claim]
  · intro k hk
    obtain hk | hk := List.mem_append.mp hk
    · obtain ⟨c, hc, hId, hLe, hLease⟩ := h.issued k hk
      obtain ⟨c', hc', hSame, ⟨rfl, -⟩ | ⟨rfl, rfl⟩⟩ := hKept c hc
      · exact ⟨c', hc', hId, hLe, hLease⟩
      · refine ⟨_, hc', hId, Nat.le_succ_of_le hLe, fun hEq => ?_⟩
        have hNext : k.claim.generation = c.generation + 1 := hEq
        omega
    · obtain rfl := List.mem_singleton.mp hk
      obtain ⟨c', hc', hSame, ⟨-, hId⟩ | ⟨-, rfl⟩⟩ := hKept d hd
      · exact absurd rfl hId
      · exact ⟨_, hc', rfl, le_rfl, fun _ _ => rfl⟩
  · refine List.pairwise_append.mpr ⟨h.distinct, List.pairwise_singleton _ _, ?_⟩
    intro k hk k' hk' hId
    obtain rfl := List.mem_singleton.mp hk'
    obtain ⟨c, hc, hRow, hLe, -⟩ := h.issued k hk
    obtain rfl := h.eq_of_id hc hd (hRow.trans hId)
    exact Nat.lt_succ_of_le hLe
  · intro row hRow
    obtain ⟨c, hc, g, hEvent, hGeneration, hLe, hClosed⟩ := h.closed row hRow
    obtain ⟨c', hc', hSame, ⟨rfl, -⟩ | ⟨rfl, rfl⟩⟩ := hKept c hc
    · exact ⟨c', hc', g, hEvent, hGeneration, hLe, hClosed⟩
    · refine ⟨_, hc', g, hEvent, hGeneration, Nat.le_succ_of_le hLe, fun hEq => ?_⟩
      have hNext : g = c.generation + 1 := hEq
      omega
  · exact h.once
  · rw [List.filterMap_append, ← h.logged]
    exact (List.append_nil _).symm
  · intro c' hc' hAccepted
    obtain ⟨hc, -⟩ | rfl := hRows c' hc'
    · obtain ⟨receipt, hReceipt, hBy⟩ := h.receipts c' hc hAccepted
      exact ⟨receipt, hReceipt, hBy.append _⟩
    · cases hAccepted

theorem finish (h : w.Fenced rt es) {k : HeldClaim} {outcome : DeliveryOutcome} (expired : Bool)
    (hReported : Reported rt k.claim outcome) {checkedAt writtenAt jitter : Nat} {t : DeliveryTables}
    (hAccepts : ∃ d ∈ w.tables.deliveries, accepts k.claim checkedAt d = true)
    (hRows : t.deliveries = (w.tables.update (accepts k.claim checkedAt)
      (finishRow k.claim outcome expired writtenAt jitter)).deliveries)
    (hAudit : t.audit = w.tables.audit ++ [attemptRow k.claim outcome expired]) :
    DeliveryWorld.Fenced rt (es ++ [.finished k.worker k.claim outcome expired true]) { w with tables := t } := by
  obtain ⟨d, hd, hd'⟩ := hAccepts
  obtain ⟨hId, hGeneration, hSending, -⟩ := accepts_iff.mp hd'
  have hOnly : ∀ c ∈ w.tables.deliveries, accepts k.claim checkedAt c = true → c = d := fun c hc hc' =>
    h.eq_of_id hc hd ((accepts_iff.mp hc').1.trans hId.symm)
  have hNew : ∀ c' ∈ t.deliveries, ∃ c ∈ w.tables.deliveries, c'.eventId = c.eventId ∧
      c'.generation = c.generation ∧ c'.attempts = c.attempts ∧
      (c' = c ∨ c = d ∧ c' = finishRow k.claim outcome expired writtenAt jitter d) := by
    intro c' hc'
    obtain ⟨c, hc, rfl⟩ := mem_update.mp (hRows ▸ hc')
    refine ⟨c, hc, ?_⟩
    by_cases hFits : accepts k.claim checkedAt c = true
    · obtain rfl := hOnly c hc hFits
      simp [hFits, finishRow]
    · simp [hFits]
  have hKept : ∀ c ∈ w.tables.deliveries, ∃ c' ∈ t.deliveries, c'.eventId = c.eventId ∧
      c'.generation = c.generation ∧ (c' = c ∧ accepts k.claim checkedAt c = false ∨ c = d ∧ c'.state ≠ .sending) := by
    intro c hc
    refine ⟨_, hRows ▸ mem_update.mpr ⟨c, hc, rfl⟩, ?_⟩
    by_cases hFits : accepts k.claim checkedAt c = true
    · obtain rfl := hOnly c hc hFits
      simp only [hFits, if_true, finishRow, true_and]
      refine .inr ?_
      cases outcome <;> cases expired <;> simp [DeliveryOutcome.state]
    · simp [hFits]
  have hAttempts : t.attempts = w.tables.attempts ++ [attemptRow k.claim outcome expired] := by
    rw [attempts, hAudit, List.filter_append]
    rfl
  constructor
  · have hSame : t.deliveries.map Delivery.eventId = w.tables.deliveries.map Delivery.eventId := by
      rw [hRows, update, List.map_map]
      refine List.map_congr_left fun c _ => ?_
      simp only [Function.comp_apply]
      split <;> rfl
    exact hSame ▸ h.keys
  · intro c' hc'
    obtain ⟨c, hc, hEvent, hSameGeneration, hSameAttempts, -⟩ := hNew c' hc'
    obtain ⟨hCount, hSame⟩ := h.counted c hc
    rw [claimCount_append, hEvent, hSameGeneration, hSameAttempts]
    exact ⟨by simpa [claimCount, DeliveryEvent.claimsOf, DeliveryEvent.claim] using hCount, hSame⟩
  · simp [h.handed, DeliveryEvent.claim]
  · intro k' hk'
    obtain ⟨c, hc, hEvent, hLe, hLease⟩ := h.issued k' hk'
    obtain ⟨c', hc', hSame, hSameGeneration, ⟨rfl, -⟩ | ⟨-, hState⟩⟩ := hKept c hc
    · exact ⟨c', hc', hEvent, hLe, hLease⟩
    · exact ⟨c', hc', hSame.trans hEvent, hSameGeneration ▸ hLe, fun _ hNow => absurd hNow hState⟩
  · exact h.distinct
  · intro row hRow
    change row ∈ t.attempts at hRow
    rw [hAttempts] at hRow
    obtain hRow | hRow := List.mem_append.mp hRow
    · obtain ⟨c, hc, g, hEvent, hNumber, hLe, hClosed⟩ := h.closed row hRow
      obtain ⟨c', hc', hSame, hSameGeneration, ⟨rfl, -⟩ | ⟨-, hState⟩⟩ := hKept c hc
      · exact ⟨c', hc', g, hEvent, hNumber, hLe, hClosed⟩
      · exact ⟨c', hc', g, hSame ▸ hEvent, hNumber, hSameGeneration ▸ hLe, fun _ => hState⟩
    · obtain rfl := List.mem_singleton.mp hRow
      obtain ⟨c', hc', hSame, hSameGeneration, ⟨-, hOpen⟩ | ⟨-, hState⟩⟩ := hKept d hd
      · exact absurd (hOpen.symm.trans hd') Bool.false_ne_true
      · refine ⟨c', hc', k.claim.generation, ?_, rfl, ?_, fun _ => hState⟩
        · rw [hSame, hId]
          rfl
        · rw [hSameGeneration, hGeneration]
  · change (t.attempts.map _).Nodup
    rw [hAttempts, List.map_append]
    refine List.nodup_append.mpr ⟨h.once, List.nodup_singleton _, ?_⟩
    rintro _ hOld _ hLast rfl
    obtain ⟨row, hRow, hKey⟩ := List.mem_map.mp hOld
    obtain ⟨c, hc, g, hEvent, hNumber, -, hClosed⟩ := h.closed row hRow
    have hPair := hKey.trans (List.mem_singleton.mp hLast)
    rw [hEvent, hNumber] at hPair
    simp only [attemptRow, Prod.mk.injEq, Option.some.injEq] at hPair
    obtain rfl := h.eq_of_id hc hd (hPair.1.trans hId.symm)
    exact hClosed (hPair.2.trans hGeneration.symm) hSending
  · change t.attempts = _
    rw [hAttempts, List.filterMap_append, ← h.logged]
    rfl
  · intro c' hc' hAccepted
    obtain ⟨c, hc, hEvent, -, -, rfl | ⟨rfl, rfl⟩⟩ := hNew c' hc'
    · obtain ⟨receipt, hReceipt, hBy⟩ := h.receipts c' hc hAccepted
      exact ⟨receipt, hReceipt, hBy.append _⟩
    · cases outcome with
      | accepted receipt =>
        obtain ⟨transport, now, hSent⟩ := hReported receipt rfl
        refine ⟨receipt, rfl, k.worker, k.claim, .accepted receipt, expired, List.mem_append_right _
          List.mem_cons_self, hId.symm, rfl, ?_⟩
        exact hId ▸ sendClaim_accepted hSent
      | pause code => cases hAccepted
      | deadLetter code => cases hAccepted
      | retry code ms => cases expired <;> cases hAccepted

end DeliveryWorld.Fenced

end GreenPms
