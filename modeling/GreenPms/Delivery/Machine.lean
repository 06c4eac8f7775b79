import GreenPms.Delivery.Tables
import GreenPms.Library.Transition

/-! # Workers over a delivery stream

The world holds the tables, the clock of the database and every claim a worker was ever handed:
a worker may crash, come back late, or finish twice. The clock readings of a transaction lie at
or after the time it starts, so overlapping transactions may read it in any order.
-/

namespace GreenPms

open Checked TransitionSystem

structure HeldClaim where
  worker : Nat
  claim : ClaimedDelivery
  leaseUntil : Nat

structure DeliveryWorld where
  tables : DeliveryTables
  now : Nat
  held : List HeldClaim

inductive DeliveryEvent where
  | published (event : PublishedEvent)
  | claimed (worker : Nat) (claim : Option ClaimedDelivery)
  | finished (worker : Nat) (claim : ClaimedDelivery) (outcome : DeliveryOutcome) (expired updated : Bool)
  | controlled (paused : Bool)
  | ticked

namespace DeliveryEvent

def claim : DeliveryEvent → Option ClaimedDelivery
  | .claimed _ claim => claim
  | _ => none

def attempt : DeliveryEvent → Option DeliveryAudit
  | .finished _ claim outcome expired true => some (DeliveryTables.attemptRow claim outcome expired)
  | _ => none

def finishedGeneration : DeliveryEvent → Option (String × Nat)
  | .finished _ claim _ _ true => some (claim.eventId, claim.generation)
  | _ => none

def claimsOf (eventId : String) (e : DeliveryEvent) : Bool := e.claim.any fun c => c.eventId = eventId

/-- RESUME, which clears the flag. -/
def resumes : DeliveryEvent → Bool
  | .controlled paused => !paused
  | _ => false

end DeliveryEvent

/-- The outcome a worker finishes with: it only reports an acceptance that `sendClaim` gave. -/
def Reported (rt : HttpRuntime) (claim : ClaimedDelivery) (outcome : DeliveryOutcome) : Prop :=
  ∀ receipt, outcome.receipt = some receipt → ∃ transport now, sendClaim rt claim transport now = .accepted receipt

inductive DeliveryStep (rt : HttpRuntime) (stream : DeliveryStream) :
    DeliveryWorld → DeliveryEvent → DeliveryWorld → Prop
  | published {w : DeliveryWorld} (e : PublishedEvent) (at_ : Nat)
      (hFresh : ∀ d ∈ w.tables.deliveries, d.eventId ≠ e.eventId) :
      DeliveryStep rt stream w (.published e) { w with tables := w.tables.publish e at_ }
  | claimed {w : DeliveryWorld} {claim : Option ClaimedDelivery} {t : DeliveryTables} (worker : Nat)
      (config : IntegrationDeliveryConfig) (deliveryId : String) (skipLocked : List String)
      (checkedAt writtenAt : Nat) (hClock : w.now ≤ checkedAt ∧ checkedAt ≤ writtenAt)
      (hClaim : w.tables.claim stream config deliveryId skipLocked checkedAt writtenAt = .ok (claim, t)) :
      DeliveryStep rt stream w (.claimed worker claim)
        { w with
          tables := t
          held := w.held ++ claim.toList.map fun c => ⟨worker, c, writtenAt + config.leaseMs⟩ }
  | finished {w : DeliveryWorld} (h : HeldClaim) (hHeld : h ∈ w.held) (outcome : DeliveryOutcome)
      (hReported : Reported rt h.claim outcome) (workerNow checkedAt writtenAt jitter : Nat)
      (hClock : w.now ≤ checkedAt ∧ checkedAt ≤ writtenAt) :
      DeliveryStep rt stream w
        (.finished h.worker h.claim outcome (h.claim.expired workerNow)
          (w.tables.finishDelivery h.claim outcome (h.claim.expired workerNow) checkedAt writtenAt jitter).2)
        { w with
          tables := (w.tables.finishDelivery h.claim outcome (h.claim.expired workerNow) checkedAt writtenAt
            jitter).1 }
  | controlled {w : DeliveryWorld} (paused : Bool) (reason : String) :
      DeliveryStep rt stream w (.controlled paused) { w with tables := w.tables.control stream paused reason }
  | ticked {w : DeliveryWorld} (later : Nat) (hLater : w.now ≤ later) :
      DeliveryStep rt stream w .ticked { w with now := later }

def deliverySystem (rt : HttpRuntime) (stream : DeliveryStream) : System DeliveryWorld DeliveryEvent where
  init w := w.tables.events = [] ∧ w.tables.deliveries = [] ∧ w.tables.audit = [] ∧ w.held = []
  step := DeliveryStep rt stream

namespace DeliveryTables

variable {t t' : DeliveryTables} {config : IntegrationDeliveryConfig} {deliveryId : String}
  {skipLocked : List String} {checkedAt writtenAt : Nat} {result : Option ClaimedDelivery}

def attempts (t : DeliveryTables) : List DeliveryAudit := t.audit.filter fun row => row.action = .attempt

theorem claimCandidate_cases (h : t.claimCandidate config deliveryId skipLocked checkedAt writtenAt = (result, t')) :
    (result = none ∧ t' = t) ∨ ∃ d ∈ t.deliveries, ∃ body, d.due checkedAt = true ∧
      result = some ⟨d.eventId, body, d.generation + 1, d.attempts + 1, d.firstAttemptAt.getD writtenAt,
        deliveryId⟩ ∧
      t' = t.update (fun c => c.eventId = d.eventId) (claimRow deliveryId config.leaseMs writtenAt) := by
  unfold claimCandidate at h
  split at h
  · injection h with hResult hTables
    exact .inl ⟨hResult.symm, hTables.symm⟩
  · next d e hFound =>
    injection h with hResult hTables
    obtain ⟨c, hc, hSome⟩ := List.mem_filterMap.mp (earliest_mem hFound)
    split at hSome
    · next hDue =>
      obtain ⟨e', -, hPair⟩ := Option.map_eq_some_iff.mp hSome
      injection hPair with hRow hEvent
      subst hRow
      exact .inr ⟨c, hc, e.body, hDue.1, hResult.symm, hTables.symm⟩
    · cases hSome

theorem claim_cases {stream : DeliveryStream}
    (h : t.claim stream config deliveryId skipLocked checkedAt writtenAt = .ok (result, t')) :
    (result = none ∧ t' = t) ∨ t.paused = false ∧ ∃ d ∈ t.deliveries, ∃ body, d.due checkedAt = true ∧
      result = some ⟨d.eventId, body, d.generation + 1, d.attempts + 1, d.firstAttemptAt.getD writtenAt,
        deliveryId⟩ ∧
      t' = t.update (fun c => c.eventId = d.eventId) (claimRow deliveryId config.leaseMs writtenAt) := by
  have hCandidate : (result = none ∧ t' = t) ∨ t.paused = false ∧
      t.claimCandidate config deliveryId skipLocked checkedAt writtenAt = (result, t') := by
    cases stream <;>
      simp only [claim, claimDelivery, claimPaymentDelivery, bind_eq_ok, require_eq_ok] at h
    case integration =>
      obtain ⟨-, -, h⟩ := h
      split at h
      · simp only [pure_eq_ok, Prod.mk.injEq] at h
        exact .inl ⟨h.1.symm, h.2.symm⟩
      · next hPaused =>
        simp only [bind_eq_ok, pure_eq_ok] at h
        exact .inr ⟨by simpa using hPaused, h.choose_spec.2⟩
    all_goals
      obtain ⟨-, -, -, -, h⟩ := h
      split at h
      · simp only [pure_eq_ok, Prod.mk.injEq] at h
        exact .inl ⟨h.1.symm, h.2.symm⟩
      · next hPaused => exact .inr ⟨by simpa using hPaused, by simpa using h⟩
  obtain hNone | ⟨hPaused, hSome⟩ := hCandidate
  · exact .inl hNone
  · exact (claimCandidate_cases hSome).imp id fun h => ⟨hPaused, h⟩

variable {claim : ClaimedDelivery} {outcome : DeliveryOutcome} {expired : Bool} {jitter : Nat}

/-- What a finish did: nothing, or it closed the attempt of the one row the claim still holds. -/
theorem finishDelivery_cases (t : DeliveryTables) (claim : ClaimedDelivery) (outcome : DeliveryOutcome)
    (expired : Bool) (checkedAt writtenAt jitter : Nat) :
    (t.finishDelivery claim outcome expired checkedAt writtenAt jitter = (t, false) ∧
      ∀ d ∈ t.deliveries, accepts claim checkedAt d = false) ∨
    ∃ t', t.finishDelivery claim outcome expired checkedAt writtenAt jitter = (t', true) ∧
      (∃ d ∈ t.deliveries, accepts claim checkedAt d = true) ∧
      t'.deliveries = (t.update (accepts claim checkedAt)
        (finishRow claim outcome expired writtenAt jitter)).deliveries ∧
      t'.audit = t.audit ++ [attemptRow claim outcome expired] ∧
      t'.paused = (t.paused || outcome.isPause) := by
  unfold finishDelivery
  split
  · next hAny =>
    refine .inr ⟨_, rfl, by simpa using hAny, ?_, ?_, ?_⟩
    · dsimp only
      split <;> rfl
    · dsimp only
      split <;> rfl
    · dsimp only
      split
      · next hPause => simp [hPause]
      · next hPause => simp [hPause, update]
  · next hNone =>
    refine .inl ⟨rfl, fun d hd => ?_⟩
    simpa using fun hAccepts => hNone (List.any_eq_true.mpr ⟨d, hd, hAccepts⟩)

theorem accepts_iff {now : Nat} {d : Delivery} : accepts claim now d = true ↔
    d.eventId = claim.eventId ∧ d.generation = claim.generation ∧ d.state = .sending ∧
      ∃ lease, d.leaseUntil = some lease ∧ now < lease := by
  simp [accepts, Option.any_eq_true, and_assoc]

end DeliveryTables

end GreenPms
