import GreenPms.Integration.Feed
import GreenPms.Integration.Numbering

/-! # Writers, workers and readers of the integration events

Transactions emit facts and commit in any order; workers publish, claim and finish, an operator replays,
and a cleanup holds the row of its property between reading the number and deleting up to it. Readers
follow the feed meanwhile.
-/

namespace GreenPms

open Checked TransitionSystem IntegrationTables

/-! ## The machine -/

structure FeedReader where
  propertyId : String
  cursor : Option JsString
  received : List String

def FeedReader.take (r : FeedReader) (page : FeedPage) : FeedReader :=
  { r with cursor := some page.nextCursor, received := r.received ++ page.events }

/-- `pruning` has the number of each cleanup that has not ended, by its property. -/
structure IntegrationWorld where
  tables : IntegrationTables
  now : Nat
  held : List HeldClaim
  pruning : String → Option Nat
  readers : Nat → FeedReader

namespace IntegrationWorld

def deliveries (w : IntegrationWorld) : DeliveryWorld := ⟨w.tables.delivery, w.now, w.held⟩

def withDeliveries (w : IntegrationWorld) (d : DeliveryWorld) : IntegrationWorld :=
  { w with tables := { w.tables with delivery := d.tables }, now := d.now, held := d.held }

end IntegrationWorld

inductive IntegrationEvent where
  | configured
  | emitted
  | published (rows : List (String × Nat))
  | delivered (event : DeliveryEvent)
  | replayed (eventId : String)
  | pruneStarted (propertyId : String) (through retainDays checkedAt : Nat)
  | pruneEnded (propertyId : String)
  | pruneAborted (propertyId : String)
  | joined (reader : Nat)
  | read (reader : Nat)

namespace IntegrationEvent

def delivery : IntegrationEvent → Option DeliveryEvent
  | .delivered event => some event
  | _ => none

def rows : IntegrationEvent → List (String × Nat)
  | .published rows => rows
  | _ => []

end IntegrationEvent

inductive IntegrationStep (rt : FeedRuntime) : IntegrationWorld → IntegrationEvent → IntegrationWorld → Prop
  | configured {w : IntegrationWorld} {t : IntegrationTables} (source : String) (mode : CaptureMode) (epoch : String)
      (cursorEpoch : String → String) (hOk : w.tables.configure source mode epoch cursorEpoch = .ok t) :
      IntegrationStep rt w .configured { w with tables := t }
  | emitted {w : IntegrationWorld} {t : IntegrationTables} (call : EmitCall) (eventId : String) (createdAt : Nat)
      (hOk : w.tables.emit call eventId createdAt = .ok t) : IntegrationStep rt w .emitted { w with tables := t }
  | published {w : IntegrationWorld} {t : IntegrationTables} {count : Nat} (p : String) (batchLimit : Int) (epoch : String)
      (clock : Nat → Nat) (hFree : w.pruning p = none) (hClock : ∀ n, w.now ≤ clock n)
      (hOk : w.tables.publish rt p batchLimit epoch clock = .ok (t, count)) :
      IntegrationStep rt w (.published (publicationsOf w.tables p batchLimit clock)) { w with tables := t }
  | delivered {w : IntegrationWorld} {d : DeliveryWorld} (event : DeliveryEvent) (hOther : ∀ e, event ≠ .published e)
      (hStep : DeliveryStep rt.http .integration w.deliveries event d) :
      IntegrationStep rt w (.delivered event) (w.withDeliveries d)
  | replayed {w : IntegrationWorld} {t : IntegrationTables} (configVersion reasonCode eventId : String) (writtenAt : Nat)
      (hClock : w.now ≤ writtenAt) (hOk : w.tables.replay configVersion reasonCode eventId writtenAt = .ok t) :
      IntegrationStep rt w (.replayed eventId) { w with tables := t }
  | pruneStarted {w : IntegrationWorld} {through : Nat} (p : String) (retainDays : Int) (checkedAt : Nat)
      (hFree : w.pruning p = none) (hClock : w.now ≤ checkedAt)
      (hOk : w.tables.pruneThrough p retainDays checkedAt = .ok through) :
      IntegrationStep rt w (.pruneStarted p through retainDays.toNat checkedAt)
        { w with pruning := Function.update w.pruning p (some through) }
  | pruneEnded {w : IntegrationWorld} {through : Nat} (p : String) (hHeld : w.pruning p = some through) :
      IntegrationStep rt w (.pruneEnded p)
        { w with tables := w.tables.prune p through, pruning := Function.update w.pruning p none }
  | pruneAborted {w : IntegrationWorld} (p : String) :
      IntegrationStep rt w (.pruneAborted p) { w with pruning := Function.update w.pruning p none }
  | joined {w : IntegrationWorld} {page : FeedPage} (r : Nat) (p : String) (limit : Int)
      (hOk : w.tables.readPmsEventFeed rt p none limit = .ok page) (cursor : Option JsString)
      (hCursor : cursor ∈ [none, some page.headCursor, some page.retentionFloorCursor]) :
      IntegrationStep rt w (.joined r) { w with readers := Function.update w.readers r ⟨p, cursor, []⟩ }
  | read {w : IntegrationWorld} {page : FeedPage} (r : Nat) (limit : Int)
      (hOk : w.tables.readPmsEventFeed rt (w.readers r).propertyId (w.readers r).cursor limit = .ok page) :
      IntegrationStep rt w (.read r) { w with readers := Function.update w.readers r ((w.readers r).take page) }

/-- Nothing is captured yet, and no reader has started. -/
def integrationSystem (rt : FeedRuntime) : System IntegrationWorld IntegrationEvent where
  init w := w.tables.outbox = [] ∧ (∀ p, w.tables.publishState p = none) ∧ w.tables.delivery.events = [] ∧
    w.tables.delivery.deliveries = [] ∧ w.held = [] ∧ (∀ p, w.pruning p = none) ∧
    ∀ r, (w.readers r).cursor = none ∧ (w.readers r).received = []
  step := IntegrationStep rt

/-! ## Deliveries -/

theorem finishDelivery_frame (t : DeliveryTables) (claim : ClaimedDelivery) (outcome : DeliveryOutcome) (expired : Bool)
    (checkedAt writtenAt jitter : Nat) :
    (t.finishDelivery claim outcome expired checkedAt writtenAt jitter).1.events = t.events ∧
      (t.finishDelivery claim outcome expired checkedAt writtenAt jitter).1.sourceInstance = t.sourceInstance := by
  unfold DeliveryTables.finishDelivery
  split
  · dsimp only
    split <;> exact ⟨rfl, rfl⟩
  · exact ⟨rfl, rfl⟩

variable {http : HttpRuntime} {d d' : DeliveryWorld} {event : DeliveryEvent}

theorem DeliveryStep.frame (hStep : DeliveryStep http .integration d event d') (hOther : ∀ e, event ≠ .published e) :
    d'.tables.events = d.tables.events ∧ d'.tables.sourceInstance = d.tables.sourceInstance ∧
      d'.tables.deliveries.map Delivery.eventId = d.tables.deliveries.map Delivery.eventId := by
  cases hStep with
  | published event at_ _ => exact absurd rfl (hOther event)
  | claimed worker config deliveryId skipLocked checkedAt writtenAt hClock hClaim =>
    obtain ⟨-, rfl⟩ | ⟨-, c, -, -, -, -, rfl⟩ := DeliveryTables.claim_cases hClaim
    · exact ⟨rfl, rfl, rfl⟩
    · exact ⟨rfl, rfl, map_update_eventId _ _ fun _ => rfl⟩
  | finished h hHeld outcome hReported workerNow checkedAt writtenAt jitter hClock =>
    obtain ⟨hEvents, hSource⟩ := finishDelivery_frame d.tables h.claim outcome (h.claim.expired workerNow) checkedAt writtenAt jitter
    refine ⟨hEvents, hSource, ?_⟩
    obtain ⟨hNone, -⟩ | ⟨t, hDone, -, hRows, -⟩ := d.tables.finishDelivery_cases h.claim outcome
      (h.claim.expired workerNow) checkedAt writtenAt jitter
    · rw [hNone]
    · rw [hDone]
      change t.deliveries.map _ = _
      rw [hRows]
      exact map_update_eventId _ _ fun _ => rfl
  | controlled paused reason => exact ⟨rfl, rfl, rfl⟩
  | ticked later hLater => exact ⟨rfl, rfl, rfl⟩

/-- An acceptance in the history, with the receipt that the receiver gave for this event. -/
def AcceptedIn (http : HttpRuntime) (es : List IntegrationEvent) (eventId : String) : Prop :=
  ∃ worker claim outcome expired receipt, .delivered (.finished worker claim outcome expired true) ∈ es ∧
    claim.eventId = eventId ∧ outcome.receipt = some receipt ∧ Acknowledged http eventId receipt

theorem AcceptedIn.append {es : List IntegrationEvent} {eventId : String} (h : AcceptedIn http es eventId)
    (fs : List IntegrationEvent) : AcceptedIn http (es ++ fs) eventId := by
  obtain ⟨worker, claim, outcome, expired, receipt, hMem, hRest⟩ := h
  exact ⟨worker, claim, outcome, expired, receipt, List.mem_append_left _ hMem, hRest⟩

/-- A delivery is accepted by a finish only. -/
theorem DeliveryStep.accepts (hStep : DeliveryStep http .integration d event d') (hOther : ∀ e, event ≠ .published e)
    {row : Delivery} (hRow : row ∈ d'.tables.deliveries) (hState : row.state = .accepted) :
    (∃ old ∈ d.tables.deliveries, old.eventId = row.eventId ∧ old.state = .accepted) ∨
      AcceptedIn http [.delivered event] row.eventId := by
  cases hStep with
  | published event at_ _ => exact absurd rfl (hOther event)
  | claimed worker config deliveryId skipLocked checkedAt writtenAt hClock hClaim =>
    obtain ⟨-, rfl⟩ | ⟨-, c, -, -, -, -, rfl⟩ := DeliveryTables.claim_cases hClaim
    · exact .inl ⟨row, hRow, rfl, hState⟩
    · obtain ⟨old, hOld, rfl⟩ := DeliveryTables.mem_update.mp hRow
      split at hState
      · cases hState
      · next hFit =>
        rw [if_neg hFit]
        exact .inl ⟨old, hOld, rfl, hState⟩
  | finished h hHeld outcome hReported workerNow checkedAt writtenAt jitter hClock =>
    obtain ⟨hNone, -⟩ | ⟨t, hDone, -, hRows, -⟩ := d.tables.finishDelivery_cases h.claim outcome
      (h.claim.expired workerNow) checkedAt writtenAt jitter
    · rw [hNone] at hRow
      exact .inl ⟨row, hRow, rfl, hState⟩
    · rw [hDone] at hRow ⊢
      change row ∈ t.deliveries at hRow
      rw [hRows] at hRow
      obtain ⟨old, hOld, rfl⟩ := DeliveryTables.mem_update.mp hRow
      split at hState
      · next hFit =>
        rw [if_pos hFit]
        have hId := (DeliveryTables.accepts_iff.mp hFit).1
        cases outcome with
        | accepted receipt =>
          obtain ⟨transport, now, hSent⟩ := hReported receipt rfl
          refine .inr ⟨h.worker, h.claim, .accepted receipt, _, receipt, List.mem_singleton.mpr rfl, hId.symm, rfl, ?_⟩
          have hAcknowledged := sendClaim_accepted hSent
          rw [← hId] at hAcknowledged
          exact hAcknowledged
        | pause code => cases hState
        | deadLetter code => cases hState
        | retry code ms =>
          simp only [DeliveryTables.finishRow, DeliveryOutcome.state] at hState
          split at hState <;> cases hState
      · next hFit =>
        rw [if_neg hFit]
        exact .inl ⟨old, hOld, rfl, hState⟩
  | controlled paused reason => exact .inl ⟨row, hRow, rfl, hState⟩
  | ticked later hLater => exact .inl ⟨row, hRow, rfl, hState⟩

end GreenPms
