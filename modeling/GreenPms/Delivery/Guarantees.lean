import GreenPms.Delivery.Fencing

/-! # What every run of the delivery workers guarantees -/

namespace GreenPms

open TransitionSystem DeliveryTables

variable {rt : HttpRuntime} {stream : DeliveryStream} {es : List DeliveryEvent} {e : DeliveryEvent}
  {w w' : DeliveryWorld}

theorem DeliveryTables.attempts_control (stream : DeliveryStream) (t : DeliveryTables) (paused : Bool)
    (reason : String) : (t.control stream paused reason).attempts = t.attempts := by
  unfold control attempts
  split
  · rfl
  · cases paused <;> simp

theorem DeliveryStep.fenced (hStep : DeliveryStep rt stream w e w') (h : w.Fenced rt es) :
    w'.Fenced rt (es ++ [e]) := by
  cases hStep with
  | published event at_ hFresh => exact h.publish event at_ hFresh
  | claimed worker config deliveryId skipLocked checkedAt writtenAt hClock hClaim =>
    obtain ⟨rfl, rfl⟩ | ⟨-, d, hd, body, hDue, rfl, rfl⟩ := claim_cases hClaim
    · exact h.frame rfl (List.append_nil _) rfl rfl rfl
    · refine h.claim worker hd body deliveryId config.leaseMs writtenAt ?_
      simp only [Delivery.due, Bool.or_eq_true, Bool.and_eq_true, decide_eq_true_eq] at hDue
      exact hDue.imp And.left And.left
  | finished k hHeld outcome hReported workerNow checkedAt writtenAt jitter hClock =>
    obtain ⟨hNone, -⟩ | ⟨t, hDone, hAccepts, hRows, hAudit, -⟩ := w.tables.finishDelivery_cases k.claim outcome
      (k.claim.expired workerNow) checkedAt writtenAt jitter
    · rw [hNone]
      exact h.frame rfl rfl rfl rfl rfl
    · rw [hDone]
      exact h.finish _ hReported hAccepts hRows hAudit
  | controlled paused reason => exact h.frame rfl rfl (attempts_control stream _ paused reason) rfl rfl
  | ticked later hLater => exact h.frame rfl rfl rfl rfl rfl

theorem fenced_of_init (h : (deliverySystem rt stream).init w) : w.Fenced rt [] := by
  obtain ⟨-, hRows, hAudit, hHeld⟩ := h
  have hAttempts : w.tables.attempts = [] := by simp [attempts, hAudit]
  constructor <;> simp [hRows, hHeld, hAttempts]

theorem fenced_of_run {s : DeliveryWorld} (hInit : (deliverySystem rt stream).init s)
    (hRun : Run (deliverySystem rt stream) s es w) : w.Fenced rt es := by
  have h := hRun.traced (P := fun es w => w.Fenced rt es) (fun _ _ _ _ h hStep => DeliveryStep.fenced hStep h)
    (fenced_of_init hInit)
  simpa using h

/-! ## Claims that are still accepted -/

/-- The claims of an event that `finishDelivery` would accept when it reads the clock at `now`. -/
def DeliveryWorld.holders (w : DeliveryWorld) (eventId : String) (now : Nat) : List HeldClaim :=
  w.held.filter fun k => k.claim.eventId = eventId && w.tables.deliveries.any (accepts k.claim now)

/-- A claim that outlived its lease, or whose event was claimed again. -/
def DeliveryWorld.stale (w : DeliveryWorld) (k : HeldClaim) (now : Nat) : Prop :=
  k.leaseUntil ≤ now ∨ ∃ k' ∈ w.held, k'.claim.eventId = k.claim.eventId ∧
    k.claim.generation < k'.claim.generation

namespace DeliveryWorld.Fenced

theorem holders_le_one (h : w.Fenced rt es) (eventId : String) (now : Nat) :
    (w.holders eventId now).length ≤ 1 := by
  have hDistinct := h.distinct.filter fun k => k.claim.eventId = eventId && w.tables.deliveries.any (accepts k.claim now)
  have hSame : ∀ k ∈ w.holders eventId now, ∀ k' ∈ w.holders eventId now,
      k.claim.eventId = k'.claim.eventId ∧ k.claim.generation = k'.claim.generation := by
    intro k hk k' hk'
    simp only [holders, List.mem_filter, Bool.and_eq_true, decide_eq_true_eq, List.any_eq_true] at hk hk'
    obtain ⟨-, hId, d, hd, hFits⟩ := hk
    obtain ⟨-, hId', d', hd', hFits'⟩ := hk'
    obtain ⟨hRow, hGeneration, -⟩ := accepts_iff.mp hFits
    obtain ⟨hRow', hGeneration', -⟩ := accepts_iff.mp hFits'
    obtain rfl := h.eq_of_id hd hd' (hRow.trans (hId.trans (hId'.symm.trans hRow'.symm)))
    exact ⟨hId.trans hId'.symm, hGeneration.symm.trans hGeneration'⟩
  change (w.holders eventId now).Pairwise _ at hDistinct
  generalize hHolders : w.holders eventId now = holders at hDistinct hSame
  match holders with
  | [] => exact Nat.zero_le _
  | [_] => exact le_rfl
  | a :: b :: rest =>
    have hLt := (List.pairwise_cons.mp hDistinct).1 b List.mem_cons_self
    obtain ⟨hId, hGeneration⟩ := hSame a List.mem_cons_self b (List.mem_cons_of_mem _ List.mem_cons_self)
    exact absurd hGeneration (hLt hId).ne

theorem stale_finish (h : w.Fenced rt es) {k : HeldClaim} (hHeld : k ∈ w.held) {checkedAt : Nat}
    (hStale : w.stale k checkedAt) (outcome : DeliveryOutcome) (expired : Bool) (writtenAt jitter : Nat) :
    w.tables.finishDelivery k.claim outcome expired checkedAt writtenAt jitter = (w.tables, false) := by
  obtain ⟨hNone, -⟩ | ⟨t, -, ⟨d, hd, hFits⟩, -⟩ := w.tables.finishDelivery_cases k.claim outcome expired
    checkedAt writtenAt jitter
  · exact hNone
  · obtain ⟨hRow, hGeneration, hSending, lease, hLease, hOpen⟩ := accepts_iff.mp hFits
    obtain hLapsed | ⟨k', hHeld', hId, hLater⟩ := hStale
    · obtain ⟨c, hc, hRow', -, hOwn⟩ := h.issued k hHeld
      obtain rfl := h.eq_of_id hc hd (hRow'.trans hRow.symm)
      have hSame : lease = k.leaseUntil := by
        rw [hOwn hGeneration.symm hSending] at hLease
        exact (Option.some.inj hLease).symm
      omega
    · obtain ⟨c, hc, hRow', hLe, -⟩ := h.issued k' hHeld'
      obtain rfl := h.eq_of_id hc hd (hRow'.trans (hId.trans hRow.symm))
      omega

theorem finished_once (h : w.Fenced rt es) : (es.filterMap DeliveryEvent.finishedGeneration).Nodup := by
  have hKeys := h.once
  rw [h.logged, List.map_filterMap] at hKeys
  have hSame : (es.filterMap DeliveryEvent.finishedGeneration).map (fun key => (some key.1, some key.2)) =
      es.filterMap fun e => e.attempt.map fun row => (row.eventId, row.generation) := by
    rw [List.map_filterMap]
    refine List.filterMap_congr fun e _ => ?_
    cases e with
    | finished worker claim outcome expired updated => cases updated <;> rfl
    | _ => rfl
  exact List.Nodup.of_map _ (hSame ▸ hKeys)

end DeliveryWorld.Fenced

/-! ## Continuations of a run -/

theorem DeliveryStep.completed (hStep : DeliveryStep rt stream w e w') (h : w.Fenced rt es) {d : Delivery}
    (hd : d ∈ w.tables.deliveries) (hCompleted : d.state.completed = true) :
    d ∈ w'.tables.deliveries ∧ e.claimsOf d.eventId = false := by
  have hIdle : d.state ≠ .pending ∧ d.state ≠ .sending := by
    constructor <;> intro hState <;> rw [hState] at hCompleted <;> cases hCompleted
  cases hStep with
  | published event at_ hFresh => exact ⟨List.mem_append_left _ hd, rfl⟩
  | claimed worker config deliveryId skipLocked checkedAt writtenAt hClock hClaim =>
    obtain ⟨rfl, rfl⟩ | ⟨-, c, hc, body, hDue, rfl, rfl⟩ := claim_cases hClaim
    · exact ⟨hd, rfl⟩
    · have hOther : d.eventId ≠ c.eventId := by
        intro hId
        obtain rfl := h.eq_of_id hd hc hId
        simp only [Delivery.due, Bool.or_eq_true, Bool.and_eq_true, decide_eq_true_eq] at hDue
        exact hDue.elim (fun hDue => hIdle.1 hDue.1) fun hDue => hIdle.2 hDue.1
      exact ⟨mem_update.mpr ⟨d, hd, by simp [hOther]⟩, by simp [DeliveryEvent.claimsOf, DeliveryEvent.claim,
        hOther.symm]⟩
  | finished k hHeld outcome hReported workerNow checkedAt writtenAt jitter hClock =>
    refine ⟨?_, rfl⟩
    obtain ⟨hNone, -⟩ | ⟨t, hDone, -, hRows, -⟩ := w.tables.finishDelivery_cases k.claim outcome
      (k.claim.expired workerNow) checkedAt writtenAt jitter
    · rw [hNone]
      exact hd
    · have hFits : accepts k.claim checkedAt d = false :=
        Bool.eq_false_iff.mpr fun hFits => hIdle.2 (accepts_iff.mp hFits).2.2.1
      rw [hDone]
      change d ∈ t.deliveries
      rw [hRows]
      exact mem_update.mpr ⟨d, hd, by simp [hFits]⟩
  | controlled paused reason => exact ⟨hd, rfl⟩
  | ticked later hLater => exact ⟨hd, rfl⟩

theorem run_completed (hRun : Run (deliverySystem rt stream) w es w') {fs : List DeliveryEvent}
    (h : w.Fenced rt fs) {d : Delivery} (hd : d ∈ w.tables.deliveries) (hCompleted : d.state.completed = true) :
    d ∈ w'.tables.deliveries ∧ claimCount es d.eventId = 0 := by
  induction hRun generalizing fs with
  | nil => exact ⟨hd, rfl⟩
  | @cons a b c e es hFirst _ ih =>
    obtain ⟨hNext, hNone⟩ := DeliveryStep.completed hFirst h hd hCompleted
    obtain ⟨hLast, hCount⟩ := ih (DeliveryStep.fenced hFirst h) hNext
    refine ⟨hLast, ?_⟩
    rw [← hCount, claimCount, claimCount, List.filter_cons_of_neg (by simp [hNone])]

/-- Deliveries are never removed. -/
theorem DeliveryStep.kept (hStep : DeliveryStep rt stream w e w') {d : Delivery} (hd : d ∈ w.tables.deliveries) :
    ∃ d' ∈ w'.tables.deliveries, d'.eventId = d.eventId := by
  cases hStep with
  | published event at_ hFresh => exact ⟨d, List.mem_append_left _ hd, rfl⟩
  | claimed worker config deliveryId skipLocked checkedAt writtenAt hClock hClaim =>
    obtain ⟨rfl, rfl⟩ | ⟨-, c, hc, body, -, rfl, rfl⟩ := claim_cases hClaim
    · exact ⟨d, hd, rfl⟩
    · refine ⟨_, mem_update.mpr ⟨d, hd, rfl⟩, ?_⟩
      split <;> rfl
  | finished k hHeld outcome hReported workerNow checkedAt writtenAt jitter hClock =>
    obtain ⟨hNone, -⟩ | ⟨t, hDone, -, hRows, -⟩ := w.tables.finishDelivery_cases k.claim outcome
      (k.claim.expired workerNow) checkedAt writtenAt jitter
    · rw [hNone]
      exact ⟨d, hd, rfl⟩
    · rw [hDone]
      change ∃ d' ∈ t.deliveries, _
      rw [hRows]
      refine ⟨_, mem_update.mpr ⟨d, hd, rfl⟩, ?_⟩
      split <;> rfl
  | controlled paused reason => exact ⟨d, hd, rfl⟩
  | ticked later hLater => exact ⟨d, hd, rfl⟩

theorem run_kept (hRun : Run (deliverySystem rt stream) w es w') {d : Delivery} (hd : d ∈ w.tables.deliveries) :
    ∃ d' ∈ w'.tables.deliveries, d'.eventId = d.eventId := by
  induction hRun generalizing d with
  | nil => exact ⟨d, hd, rfl⟩
  | cons hFirst _ ih =>
    obtain ⟨b, hb, hId⟩ := DeliveryStep.kept hFirst hd
    obtain ⟨c, hc, hId'⟩ := ih hb
    exact ⟨c, hc, hId'.trans hId⟩

/-- Under the pause flag nothing is claimed, and only the operator clears it. -/
theorem DeliveryStep.paused (hStep : DeliveryStep rt stream w e w') (hPaused : w.tables.paused = true)
    (hClosed : e.resumes = false) : w'.tables.paused = true ∧ e.claim = none := by
  cases hStep with
  | published event at_ hFresh => exact ⟨hPaused, rfl⟩
  | claimed worker config deliveryId skipLocked checkedAt writtenAt hClock hClaim =>
    obtain ⟨rfl, rfl⟩ | ⟨hOpen, -⟩ := claim_cases hClaim
    · exact ⟨hPaused, rfl⟩
    · exact absurd (hOpen.symm.trans hPaused) Bool.false_ne_true
  | finished k hHeld outcome hReported workerNow checkedAt writtenAt jitter hClock =>
    refine ⟨?_, rfl⟩
    obtain ⟨hNone, -⟩ | ⟨t, hDone, -, -, -, hFlag⟩ := w.tables.finishDelivery_cases k.claim outcome
      (k.claim.expired workerNow) checkedAt writtenAt jitter
    · rw [hNone]
      exact hPaused
    · rw [hDone]
      exact hFlag.trans (by simp [hPaused])
  | controlled paused reason => exact ⟨by simpa [DeliveryEvent.resumes, DeliveryTables.control] using hClosed, rfl⟩
  | ticked later hLater => exact ⟨hPaused, rfl⟩

theorem run_paused (hRun : Run (deliverySystem rt stream) w es w') (hPaused : w.tables.paused = true)
    (hClosed : ∀ e ∈ es, e.resumes = false) : ∀ e ∈ es, e.claim = none := by
  induction hRun with
  | nil => exact fun _ he => absurd he List.not_mem_nil
  | cons hFirst _ ih =>
    obtain ⟨hNow, hLater⟩ := List.forall_mem_cons.mp hClosed
    obtain ⟨hStill, hNone⟩ := DeliveryStep.paused hFirst hPaused hNow
    exact List.forall_mem_cons.mpr ⟨hNone, ih hStill hLater⟩

theorem DeliveryStep.pauses {worker : Nat} {claim : ClaimedDelivery} {outcome : DeliveryOutcome} {expired : Bool}
    (hStep : DeliveryStep rt stream w (.finished worker claim outcome expired true) w')
    (hPause : outcome.isPause = true) : w'.tables.paused = true := by
  generalize hEvent : DeliveryEvent.finished worker claim outcome expired true = e at hStep
  cases hStep with
  | finished k hHeld outcome' hReported workerNow checkedAt writtenAt jitter hClock =>
    injection hEvent with _ _ hOutcome _ hUpdated
    subst hOutcome
    obtain ⟨hNone, -⟩ | ⟨t, hDone, -, -, -, hFlag⟩ := w.tables.finishDelivery_cases k.claim outcome
      (k.claim.expired workerNow) checkedAt writtenAt jitter
    · rw [hNone] at hUpdated
      cases hUpdated
    · rw [hDone]
      exact hFlag.trans (by simp [hPause])
  | _ => cases hEvent

/-! ## The guarantee -/

structure DeliveryGuarantee (rt : HttpRuntime) (es : List DeliveryEvent) (w : DeliveryWorld) : Prop where
  /-- At most one claim of an event is still accepted. -/
  single : ∀ eventId now, (w.holders eventId now).length ≤ 1
  once : (es.filterMap DeliveryEvent.finishedGeneration).Nodup
  /-- A stale claim finishes with no effect, whatever its outcome. -/
  stale : ∀ k ∈ w.held, ∀ outcome expired checkedAt writtenAt jitter, w.stale k checkedAt →
    w.tables.finishDelivery k.claim outcome expired checkedAt writtenAt jitter = (w.tables, false)
  counted : ∀ d ∈ w.tables.deliveries,
    d.generation = claimCount es d.eventId ∧ d.attempts = claimCount es d.eventId
  receipts : ∀ d ∈ w.tables.deliveries, d.state = .accepted →
    ∃ receipt, d.receiptId = some receipt ∧ AcceptedBy rt es d.eventId receipt
  /-- The audit holds one `ATTEMPT` row for each finish that took effect, and no other. -/
  logged : w.tables.attempts = es.filterMap DeliveryEvent.attempt

structure DeliveryContinuation (w : DeliveryWorld) (es : List DeliveryEvent) (w' : DeliveryWorld) : Prop where
  grows : ∀ d ∈ w.tables.deliveries, ∃ d' ∈ w'.tables.deliveries, d'.eventId = d.eventId ∧
    d'.generation = d.generation + claimCount es d.eventId ∧
    d'.attempts = d.attempts + claimCount es d.eventId
  completed : ∀ d ∈ w.tables.deliveries, d.state.completed = true →
    d ∈ w'.tables.deliveries ∧ claimCount es d.eventId = 0
  paused : ∀ worker claim outcome expired fs, outcome.isPause = true →
    es = .finished worker claim outcome expired true :: fs → (∀ e ∈ fs, e.resumes = false) →
    ∀ e ∈ fs, e.claim = none

theorem DeliveryWorld.Fenced.guarantee (h : w.Fenced rt es) : DeliveryGuarantee rt es w where
  single := h.holders_le_one
  once := h.finished_once
  stale _ hHeld outcome expired _ writtenAt jitter hStale :=
    h.stale_finish hHeld hStale outcome expired writtenAt jitter
  counted d hd := by
    obtain ⟨hGeneration, hAttempts⟩ := h.counted d hd
    exact ⟨hGeneration, hAttempts.trans hGeneration⟩
  receipts := h.receipts
  logged := h.logged

theorem DeliveryWorld.Fenced.continuation {fs : List DeliveryEvent} (h : w.Fenced rt fs)
    (hRun : Run (deliverySystem rt stream) w es w') : DeliveryContinuation w es w' where
  grows d hd := by
    have hLater := hRun.traced (P := fun es w => w.Fenced rt es)
      (fun _ _ _ _ h hStep => DeliveryStep.fenced hStep h) h
    obtain ⟨d', hd', hId⟩ := run_kept hRun hd
    obtain ⟨hGeneration, hAttempts⟩ := h.counted d hd
    obtain ⟨hGeneration', hAttempts'⟩ := hLater.counted d' hd'
    rw [claimCount_append, hId] at hGeneration'
    exact ⟨d', hd', hId, by omega, by omega⟩
  completed _ hd hCompleted := run_completed hRun h hd hCompleted
  paused := by
    rintro worker claim outcome expired fs hPause rfl hClosed
    cases hRun with
    | cons hFirst hRest => exact run_paused hRest (DeliveryStep.pauses hFirst hPause) hClosed

/-- Every run of any number of workers of a stream, and every part of it, is fenced. -/
theorem delivery_fenced {s t : DeliveryWorld} (hInit : (deliverySystem rt stream).init s)
    (hRun : Run (deliverySystem rt stream) s es t) :
    DeliveryGuarantee rt es t ∧ ∀ fs gs u, es = fs ++ gs → Run (deliverySystem rt stream) s fs u →
      Run (deliverySystem rt stream) u gs t → DeliveryContinuation u gs t := by
  refine ⟨(fenced_of_run hInit hRun).guarantee, ?_⟩
  rintro fs gs u - hFirst hLast
  exact (fenced_of_run hInit hFirst).continuation hLast

def sampleDeliveryConfig : IntegrationDeliveryConfig where
  endpoint := ⟨"https:", "", "", "", "", "/api/v1/ingress/pms/events"⟩
  sourceInstance := "pms"
  propertyIds := ["p1"]
  keyId := "k1"
  signingKey := "0123456789abcdef0123456789abcdef"
  timeoutMs := 100
  leaseMs := 6000

def sampleEvent : PublishedEvent := ⟨"e1", "p1", 1, "{}"⟩

def sampleAckText : String := "\x7b\"event_id\":\"e1\",\"status\":\"accepted\",\"receipt_id\":\"r1\"\x7d"

/-- `JSON.parse` on the answer of the receiver. -/
def sampleHttp : HttpRuntime where
  jsonParse text :=
    if text = sampleAckText then some (.obj [("event_id", .str "e1"), ("status", .str "accepted"), ("receipt_id", .str "r1")])
    else none
  number _ := none
  dateParse _ := none

def sampleDeliveryWorld : DeliveryWorld := ⟨⟨some "pms", false, "ACTIVE", [], [], []⟩, 0, []⟩

def sampleClaim : ClaimedDelivery := ⟨"e1", "{}", 1, 1, 10, "d1"⟩

/-- The claim of the worker that takes over when the lease has passed. -/
def sampleReclaim : ClaimedDelivery := ⟨"e1", "{}", 2, 2, 10, "d2"⟩

set_option maxRecDepth 4000 in
theorem sampleDeliveryConfig_valid : validateDeliveryConfig sampleDeliveryConfig = .ok () := rfl

def sampleClaimed : DeliveryTables :=
  (sampleDeliveryWorld.tables.publish sampleEvent 5).update (fun c => c.eventId = "e1") (claimRow "d1" 6000 10)

def sampleReclaimed : DeliveryTables := sampleClaimed.update (fun c => c.eventId = "e1") (claimRow "d2" 6000 7000)

theorem sample_reported (claim : ClaimedDelivery) (hClaim : claim = sampleClaim ∨ claim = sampleReclaim) :
    Reported sampleHttp claim (.accepted "r1") := by
  intro receipt hReceipt
  obtain rfl := Option.some.inj hReceipt
  refine ⟨some ⟨202, sampleAckText, none⟩, 0, ?_⟩
  obtain rfl | rfl := hClaim <;> rfl

/-- The first worker comes back after its lease, and the receiver's answer to it counts for nothing. -/
def sampleDeliveryEvents : List DeliveryEvent :=
  [.published sampleEvent, .claimed 7 (some sampleClaim), .claimed 8 (some sampleReclaim),
    .finished 7 sampleClaim (.accepted "r1") false false, .finished 8 sampleReclaim (.accepted "r1") false true]

theorem sample_delivery_run : ∃ t, Run (deliverySystem sampleHttp .integration) sampleDeliveryWorld sampleDeliveryEvents t := by
  have hClaim : (sampleDeliveryWorld.tables.publish sampleEvent 5).claim .integration sampleDeliveryConfig "d1" []
      10 10 = .ok (some sampleClaim, sampleClaimed) := by
    rw [claim, claimDelivery, sampleDeliveryConfig_valid]
    rfl
  have hReclaim : sampleClaimed.claim .integration sampleDeliveryConfig "d2" [] 7000 7000 =
      .ok (some sampleReclaim, sampleReclaimed) := by
    rw [claim, claimDelivery, sampleDeliveryConfig_valid]
    rfl
  let held : List HeldClaim := [⟨7, sampleClaim, 6010⟩, ⟨8, sampleReclaim, 13000⟩]
  have hLate : DeliveryStep sampleHttp .integration ⟨sampleReclaimed, 0, held⟩ _ _ :=
    .finished ⟨7, sampleClaim, 6010⟩ List.mem_cons_self (.accepted "r1") (sample_reported _ (.inl rfl)) 7500 7500 7500 0
      ⟨Nat.zero_le _, le_rfl⟩
  have hFinish : DeliveryStep sampleHttp .integration ⟨sampleReclaimed, 0, held⟩ _ _ :=
    .finished ⟨8, sampleReclaim, 13000⟩ (List.mem_cons_of_mem _ List.mem_cons_self) (.accepted "r1")
      (sample_reported _ (.inr rfl)) 8000 8000 8000 0 ⟨Nat.zero_le _, le_rfl⟩
  have hNone : sampleReclaimed.finishDelivery sampleClaim (.accepted "r1") false 7500 7500 0 = (sampleReclaimed, false) := rfl
  have hInTime : sampleClaim.expired 7500 = false ∧ sampleReclaim.expired 8000 = false := by decide
  rw [hInTime.1, hNone] at hLate
  rw [hInTime.2] at hFinish
  exact ⟨_, .cons (.published sampleEvent 5 (by simp [sampleDeliveryWorld]))
    (.cons (.claimed 7 sampleDeliveryConfig "d1" [] 10 10 (by decide) hClaim)
      (.cons (.claimed 8 sampleDeliveryConfig "d2" [] 7000 7000 (by decide) hReclaim) (.cons hLate (.single hFinish))))⟩

theorem delivery_fenced_sample : ∃ t, DeliveryGuarantee sampleHttp sampleDeliveryEvents t := by
  obtain ⟨t, hRun⟩ := sample_delivery_run
  exact ⟨t, (delivery_fenced ⟨rfl, rfl, rfl, rfl⟩ hRun).1⟩

end GreenPms
