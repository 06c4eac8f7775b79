import GreenPms.Foundation.Encoding
import GreenPms.Integration.Machine

/-! # What readers and receivers get of the integration events

A reader that follows the feed gets the body of every published fact of its property from where it
started, once each and in order, whatever is emitted, published, delivered and removed meanwhile. A body is
removed only after the receiver has accepted the event and the time of retention has passed.
-/

namespace GreenPms

open Checked JsString TransitionSystem IntegrationTables

variable {rt : FeedRuntime} {t t' : IntegrationTables} {p : String}

/-! ## Pages -/

/-- The bodies are those of the facts with the numbers after `start` up to `last`. -/
def Bodies (rt : FeedRuntime) (t : IntegrationTables) (p : String) (start last : Nat) (bodies : List String) : Prop :=
  List.Forall₂ (Published rt t p) (List.range' (start + 1) (last - start)) bodies

theorem Bodies.keeps {start last : Nat} {bodies : List String} (h : Bodies rt t p start last bodies) (hKeeps : Keeps t t') :
    Bodies rt t' p start last bodies := List.Forall₂.imp (fun _ _ hBody => hBody.keeps hKeeps) h

theorem Bodies.append {start middle last : Nat} {bodies more : List String} (h : Bodies rt t p start middle bodies)
    (k : Bodies rt t p middle last more) (hStart : start ≤ middle) (hLast : middle ≤ last) :
    Bodies rt t p start last (bodies ++ more) := by
  have hRange : List.range' (start + 1) (last - start) =
      List.range' (start + 1) (middle - start) ++ List.range' (middle + 1) (last - middle) := by
    have hNext : middle + 1 = start + 1 + (middle - start) := by omega
    have hCount : last - start = middle - start + (last - middle) := by omega
    rw [hNext, List.range'_append_1, hCount]
  rw [Bodies, hRange]
  exact List.rel_append h k

/-- What `readPmsEventFeed` answers to a cursor that stands at `n`. -/
def feedPage (rt : FeedRuntime) (source p : String) (state : PublishState) (n limit : Nat) (bodies : List String) : FeedPage where
  sourceInstance := source
  propertyId := p
  nextCursor := rt.encodeCursor state.cursorEpoch source p (min (n + limit) state.head)
  hasMore := n + limit < state.head
  headCursor := rt.encodeCursor state.cursorEpoch source p state.head
  retentionFloorCursor := rt.encodeCursor state.cursorEpoch source p state.floor
  events := bodies

theorem FactsNumbered.eventsAfter (h : FactsNumbered rt t) {state : PublishState} (hState : t.publishState p = some state) {n : Nat}
    (hFloor : state.floor ≤ n) (hHead : n ≤ state.head) :
    (t.eventsAfter p n state.head).map PublishedEvent.sequence = List.range' (n + 1) (state.head - n) ∧
      ∀ e ∈ t.eventsAfter p n state.head, Published rt t p e.sequence e.body := by
  have hHeads : t.head p = state.head := by rw [IntegrationTables.head, hState]; rfl
  have hFloors : t.floor p = state.floor := by rw [IntegrationTables.floor, hState]; rfl
  have hRetained := h.retained p
  rw [hHeads, hFloors] at hRetained
  have hBelow : ∀ e ∈ t.eventsOf p, e.sequence ≤ state.head := by
    intro e he
    have hMem : e.sequence ∈ List.range' (state.floor + 1) (state.head - state.floor) := hRetained ▸ List.mem_map_of_mem he
    have hLast := (List.mem_range'_1.mp hMem).2
    omega
  have hFilter : (t.eventsOf p).filter (fun e => n < e.sequence ∧ e.sequence ≤ state.head) =
      (t.eventsOf p).drop (n - state.floor) := by
    rw [← filter_after hRetained]
    refine List.filter_congr fun e he => ?_
    simp [hBelow e he]
  have hNumbers : ((t.eventsOf p).drop (n - state.floor)).map PublishedEvent.sequence = List.range' (n + 1) (state.head - n) := by
    rw [List.map_drop, hRetained, List.drop_range', Nat.mul_one]
    congr 1 <;> omega
  have hSorted : ((t.eventsOf p).drop (n - state.floor)).Pairwise fun d e => d.sequence ≤ e.sequence := by
    have hPairs : (((t.eventsOf p).drop (n - state.floor)).map PublishedEvent.sequence).Pairwise (· ≤ ·) := by
      rw [hNumbers]
      exact List.pairwise_le_range'
    exact List.pairwise_map.mp hPairs
  rw [IntegrationTables.eventsAfter, hFilter, List.Pairwise.insertionSort_eq hSorted]
  refine ⟨hNumbers, fun e he => ?_⟩
  obtain ⟨hMem, hOwner⟩ := List.mem_filter.mp (List.mem_of_mem_drop he)
  obtain ⟨f, hf, -, hfOwner, hNumber, hBody⟩ := h.bodies e hMem
  exact ⟨f, hf, hfOwner.trans (of_decide_eq_true hOwner), hNumber, hBody⟩

theorem limitValue_natCast {limit : Nat} (hFirst : 1 ≤ limit) (hLast : limit ≤ 100) : limitValue (limit : Int) = .ok limit := by
  rw [limitValue, if_pos (by omega), Int.toNat_natCast]

theorem FactsNumbered.page (h : FactsNumbered rt t) {source : String} {state : PublishState}
    (hSource : t.delivery.sourceInstance = some source) (hState : t.publishState p = some state) (cursor : Option JsString)
    {n : Nat} (hCursor : consumedOf rt state source p cursor = .ok n) (hFloor : state.floor ≤ n) (hHead : n ≤ state.head)
    {limit : Nat} (hLimit : 1 ≤ limit ∧ limit ≤ 100) :
    ∃ bodies, t.readPmsEventFeed rt p cursor limit = .ok (feedPage rt source p state n limit bodies) ∧
      Bodies rt t p n (min (n + limit) state.head) bodies := by
  obtain ⟨hNumbers, hBodies⟩ := h.eventsAfter hState hFloor hHead
  have hSelected : (((t.eventsAfter p n state.head).take (limit + 1)).take limit) = (t.eventsAfter p n state.head).take limit := by
    rw [List.take_take, Nat.min_eq_left (Nat.le_succ limit)]
  have hTaken : ((t.eventsAfter p n state.head).take limit).map PublishedEvent.sequence =
      List.range' (n + 1) (min (n + limit) state.head - n) := by
    rw [List.map_take, hNumbers]
    obtain hShort | hLong := Nat.le_total (state.head - n) limit
    · rw [List.take_range'_of_length_le hShort]
      congr 1
      omega
    · rw [List.take_range'_of_length_ge hLong]
      congr 1
      omega
  have hNext : (((t.eventsAfter p n state.head).take limit).getLast?.map PublishedEvent.sequence).getD n = min (n + limit) state.head := by
    rw [← List.getLast?_map, hTaken, List.getLast?_range']
    split
    · rw [Option.getD_none]
      omega
    · rw [Option.getD_some]
      omega
  have hMore : decide (limit < ((t.eventsAfter p n state.head).take (limit + 1)).length) = decide (n + limit < state.head) := by
    have hLength : (t.eventsAfter p n state.head).length = state.head - n := by
      rw [← List.length_map PublishedEvent.sequence, hNumbers, List.length_range']
    rw [List.length_take, hLength]
    exact decide_eq_decide.mpr (by omega)
  refine ⟨((t.eventsAfter p n state.head).take limit).map PublishedEvent.body, ?_, ?_⟩
  · simp only [readPmsEventFeed, limitValue_natCast hLimit.1 hLimit.2, hSource, hState, expect, bind, Except.bind, hCursor, hSelected, hNext, hMore]
    rfl
  · rw [Bodies, ← hTaken, List.forall₂_map_left_iff, List.forall₂_map_right_iff, List.forall₂_same]
    exact fun e he => hBodies e (List.mem_of_mem_take he)

/-! ## Runs -/

/-- A reader has not read yet, or holds the bodies up to the number of its cursor. -/
def FeedReader.Follows (rt : FeedRuntime) (t : IntegrationTables) (r : FeedReader) : Prop :=
  r.cursor = none ∧ r.received = [] ∨
    ∃ source state start n, t.delivery.sourceInstance = some source ∧ t.publishState r.propertyId = some state ∧
      r.cursor = some (rt.encodeCursor state.cursorEpoch source r.propertyId n) ∧ start ≤ n ∧ n ≤ state.head ∧
      Bodies rt t r.propertyId start n r.received

theorem FeedReader.Follows.keeps {r : FeedReader} (h : r.Follows rt t) (hKeeps : Keeps t t') : r.Follows rt t' := by
  obtain hNew | ⟨source, state, start, n, hSource, hState, hCursor, hStart, hHead, hBodies⟩ := h
  · exact .inl hNew
  · obtain ⟨later, hLater, hEpoch, hMore⟩ := hKeeps.states _ state hState
    rw [← hEpoch] at hCursor
    exact .inr ⟨source, later, start, n, hKeeps.source _ hSource, hLater, hCursor, hStart, hHead.trans hMore, hBodies.keeps hKeeps⟩

/-- The event was accepted and its retention had passed when a cleanup read a number at or above its own. -/
def Retired (rt : FeedRuntime) (es : List IntegrationEvent) (p eventId : String) (n : Nat) : Prop :=
  ∃ fs gs through retainDays checkedAt stored, es = fs ++ .pruneStarted p through retainDays checkedAt :: gs ∧ n ≤ through ∧
    30 ≤ retainDays ∧ AcceptedIn rt.http fs eventId ∧ (eventId, stored) ∈ fs.flatMap IntegrationEvent.rows ∧
    stored + retainDays * day ≤ checkedAt

theorem Retired.append {es : List IntegrationEvent} {eventId : String} {n : Nat} (h : Retired rt es p eventId n)
    (more : List IntegrationEvent) : Retired rt (es ++ more) p eventId n := by
  obtain ⟨fs, gs, through, retainDays, checkedAt, stored, rfl, hRest⟩ := h
  exact ⟨fs, gs ++ more, through, retainDays, checkedAt, stored, by rw [List.append_assoc, List.cons_append], hRest⟩

structure Intact (rt : FeedRuntime) (es : List IntegrationEvent) (w : IntegrationWorld) : Prop where
  numbered : FactsNumbered rt w.tables
  accepted : ∀ d ∈ w.tables.delivery.deliveries, d.state = .accepted → AcceptedIn rt.http es d.eventId
  stored : ∀ e ∈ w.tables.delivery.events, ∃ stored, w.tables.publishedAt e.eventId = some stored ∧
    (e.eventId, stored) ∈ es.flatMap IntegrationEvent.rows
  held : ∀ p through, w.pruning p = some through → through ≤ w.tables.head p
  retired : ∀ f ∈ w.tables.outbox, ∀ n, f.publishSeq = some n →
    n ≤ max (w.tables.floor f.propertyId) ((w.pruning f.propertyId).getD 0) → Retired rt es f.propertyId f.eventId n
  readers : ∀ r, (w.readers r).Follows rt w.tables

variable {es : List IntegrationEvent} {e : IntegrationEvent} {w w' : IntegrationWorld}

namespace Intact

theorem number_le_head (h : Intact rt es w) {f : OutboxFact} {n : Nat}
    (hLe : n ≤ max (w.tables.floor f.propertyId) ((w.pruning f.propertyId).getD 0)) : n ≤ w.tables.head f.propertyId := by
  refine hLe.trans (Nat.max_le.mpr ⟨h.numbered.floors _, ?_⟩)
  cases hPruning : w.pruning f.propertyId with
  | none => exact Nat.zero_le _
  | some through => exact h.held _ through hPruning

/-- A step outside the cleanups and the readers: the facts below the floor are the ones that were there. -/
theorem frame (h : Intact rt es w) (hNumbered : FactsNumbered rt w'.tables) (hKeeps : Keeps w.tables w'.tables)
    (hFloor : ∀ p, w'.tables.floor p = w.tables.floor p) (hPruning : w'.pruning = w.pruning) (hReaders : w'.readers = w.readers)
    (hAccepted : ∀ d ∈ w'.tables.delivery.deliveries, d.state = .accepted → AcceptedIn rt.http (es ++ [e]) d.eventId)
    (hStored : ∀ event ∈ w'.tables.delivery.events, ∃ stored, w'.tables.publishedAt event.eventId = some stored ∧
      (event.eventId, stored) ∈ (es ++ [e]).flatMap IntegrationEvent.rows) : Intact rt (es ++ [e]) w' where
  numbered := hNumbered
  accepted := hAccepted
  stored := hStored
  held p through hHeld := (h.held p through (hPruning ▸ hHeld)).trans (hKeeps.head_le p)
  retired f hf n hNumber hLe := by
    rw [hFloor, hPruning] at hLe
    have hPositive := (hNumbered.number_iff (p := f.propertyId)).mpr ⟨f, hf, rfl, hNumber⟩
    obtain ⟨g, hg, hOwner, hgNumber⟩ := h.numbered.number_iff.mp ⟨hPositive.1, h.number_le_head hLe⟩
    obtain rfl := hNumbered.fact_of_number (hKeeps.facts g hg (by simp [hgNumber])) hf hOwner hgNumber hNumber
    exact (h.retired g hg n hNumber hLe).append [e]
  readers r := by
    rw [hReaders]
    exact (h.readers r).keeps hKeeps

theorem accepted_append (h : Intact rt es w) {d : Delivery} (hd : d ∈ w.tables.delivery.deliveries) (hState : d.state = .accepted) :
    AcceptedIn rt.http (es ++ [e]) d.eventId := (h.accepted d hd hState).append [e]

theorem stored_append (h : Intact rt es w) {event : PublishedEvent} (hEvent : event ∈ w.tables.delivery.events) :
    ∃ stored, w.tables.publishedAt event.eventId = some stored ∧
      (event.eventId, stored) ∈ (es ++ [e]).flatMap IntegrationEvent.rows := by
  obtain ⟨stored, hAt, hRow⟩ := h.stored event hEvent
  refine ⟨stored, hAt, ?_⟩
  rw [List.flatMap_append]
  exact List.mem_append_left _ hRow

theorem delivered (h : Intact rt es w) {event : DeliveryEvent} {d : DeliveryWorld} (hOther : ∀ e, event ≠ .published e)
    (hStep : DeliveryStep rt.http .integration w.deliveries event d) :
    Intact rt (es ++ [.delivered event]) (w.withDeliveries d) := by
  obtain ⟨hEvents, hSource, hRows⟩ := hStep.frame hOther
  refine h.frame (h.numbered.congr rfl hEvents hRows fun _ => rfl) ⟨fun _ hf _ => hf, fun _ hOld => hSource.trans hOld,
    fun _ _ hState => ⟨_, hState, rfl, le_rfl⟩⟩ (fun _ => rfl) rfl rfl (fun row hRow hState => ?_) fun event hEvent => ?_
  · obtain ⟨old, hOld, hId, hAccepted⟩ | hNow := hStep.accepts hOther hRow hState
    · rw [← hId]
      exact h.accepted_append hOld hAccepted
    · obtain ⟨worker, claim, outcome, expired, receipt, hMem, hRest⟩ := hNow
      exact ⟨worker, claim, outcome, expired, receipt, List.mem_append_right _ hMem, hRest⟩
  · exact h.stored_append (hEvents ▸ hEvent)

theorem published (h : Intact rt es w) {p : String} {batchLimit : Int} {epoch : String} {clock : Nat → Nat} {count : Nat}
    (hOk : w.tables.publish rt p batchLimit epoch clock = .ok (t, count)) :
    Intact rt (es ++ [.published (publicationsOf w.tables p batchLimit clock)]) { w with tables := t } := by
  obtain ⟨hNumbered, hKeeps, hFloor, hStores⟩ := h.numbered.publish hOk
  refine h.frame hNumbered hKeeps hFloor rfl rfl (fun row hRow hState => ?_) fun event hEvent => ?_
  · obtain hOld | hOpen := hStores.deliveries row hRow
    · exact h.accepted_append hOld hState
    · rw [hState] at hOpen
      cases hOpen
  · obtain ⟨hOld, hSame⟩ | ⟨stored, hAt, hRow⟩ := hStores.events event hEvent
    · obtain ⟨stored, hAt, hRow⟩ := h.stored_append hOld
      exact ⟨stored, hSame.trans hAt, hRow⟩
    · refine ⟨stored, hAt, ?_⟩
      rw [List.flatMap_append]
      exact List.mem_append_right _ (by simpa [IntegrationEvent.rows] using hRow)

/-! ### Cleanups -/

theorem blocks_eq_false {retention now : Nat} {e : PublishedEvent} (h : t.blocks retention now e = false) {d : Delivery}
    (hd : d ∈ t.delivery.deliveries) (hId : d.eventId = e.eventId) {stored : Nat} (hStored : t.publishedAt e.eventId = some stored) :
    d.state = .accepted ∧ stored + retention ≤ now := by
  have hQuiet := List.any_eq_false.mp h d hd
  simpa [hId, hStored] using hQuiet

theorem throughSeq_spec (h : FactsNumbered rt t) {state : PublishState} (hState : t.publishState p = some state) (retention now : Nat) :
    t.throughSeq p state retention now ≤ t.head p ∧
      ∀ e ∈ t.eventsOf p, e.sequence ≤ t.throughSeq p state retention now → t.blocks retention now e = false := by
  have hRange : ∀ e ∈ t.eventsOf p, t.floor p + 1 ≤ e.sequence ∧ e.sequence ≤ t.head p := by
    intro e he
    have hMem : e.sequence ∈ List.range' (t.floor p + 1) (t.head p - t.floor p) := h.retained p ▸ List.mem_map_of_mem he
    obtain ⟨hFirst, hLast⟩ := List.mem_range'_1.mp hMem
    exact ⟨hFirst, by omega⟩
  unfold throughSeq
  cases hMin : (((t.eventsOf p).filter (t.blocks retention now)).map PublishedEvent.sequence).min? with
  | none =>
    refine ⟨(by rw [IntegrationTables.head, hState]; rfl : state.head = t.head p).le, fun e he _ => ?_⟩
    rw [List.min?_eq_none_iff, List.map_eq_nil_iff, List.filter_eq_nil_iff] at hMin
    exact Bool.eq_false_iff.mpr (hMin e he)
  | some first =>
    obtain ⟨hMem, hLeast⟩ := List.min?_eq_some_iff.mp hMin
    obtain ⟨b, hb, rfl⟩ := List.mem_map.mp hMem
    have hFirst := hRange b (List.mem_of_mem_filter hb)
    refine ⟨by dsimp only; omega, fun e he hLe => Bool.eq_false_iff.mpr fun hBlocks => ?_⟩
    have hBelow := hLeast e.sequence (List.mem_map_of_mem (List.mem_filter.mpr ⟨he, hBlocks⟩))
    dsimp only at hLe
    omega

theorem pruneStarted (h : Intact rt es w) {p : String} {retainDays : Int} {checkedAt through : Nat}
    (hOk : w.tables.pruneThrough p retainDays checkedAt = .ok through) :
    Intact rt (es ++ [.pruneStarted p through retainDays.toNat checkedAt])
      { w with pruning := Function.update w.pruning p (some through) } := by
  simp only [pruneThrough, bind_eq_ok, require_eq_ok, expect_eq_ok, pure_eq_ok] at hOk
  obtain ⟨-, hDays, state, hState, hThrough⟩ := hOk
  obtain ⟨hHead, hOpen⟩ := throughSeq_spec h.numbered hState (retainDays.toNat * day) checkedAt
  rw [hThrough] at hHead hOpen
  refine ⟨h.numbered, fun _ hd hAccepted => h.accepted_append hd hAccepted, fun _ hEvent => h.stored_append hEvent,
    fun q held hHeld => ?_, fun f hf n hNumber hLe => ?_, h.readers⟩
  · dsimp only at hHeld
    by_cases hOwner : q = p
    · subst hOwner
      rw [Function.update_self] at hHeld
      obtain rfl := Option.some.inj hHeld
      exact hHead
    · rw [Function.update_of_ne hOwner] at hHeld
      exact h.held q held hHeld
  · dsimp only at hf hLe
    by_cases hOwner : f.propertyId = p
    · subst hOwner
      rw [Function.update_self, Option.getD_some] at hLe
      by_cases hFloor : n ≤ w.tables.floor f.propertyId
      · exact (h.retired f hf n hNumber (hFloor.trans (Nat.le_max_left _ _))).append _
      · have hMem : n ∈ (w.tables.eventsOf f.propertyId).map PublishedEvent.sequence := by
          rw [h.numbered.retained, List.mem_range'_1]
          omega
        obtain ⟨event, hEvent, rfl⟩ := List.mem_map.mp hMem
        have hStays := hOpen event hEvent (by omega)
        obtain ⟨hTable, hOwned⟩ := List.mem_filter.mp hEvent
        obtain ⟨g, hg, hId, hgOwner, hgNumber, -⟩ := h.numbered.bodies event hTable
        obtain rfl := h.numbered.fact_of_number hg hf (hgOwner.trans (of_decide_eq_true hOwned)) hgNumber hNumber
        have hRow : event.eventId ∈ w.tables.delivery.deliveries.map Delivery.eventId := by
          rw [h.numbered.deliveries]
          exact List.mem_map_of_mem hTable
        obtain ⟨d, hd, hSame⟩ := List.mem_map.mp hRow
        obtain ⟨stored, hAt, hStored⟩ := h.stored event hTable
        obtain ⟨hState, hOld⟩ := blocks_eq_false hStays hd hSame hAt
        have hAccepted := h.accepted d hd hState
        rw [hSame, ← hId] at hAccepted
        rw [← hId] at hStored
        exact ⟨es, [], through, retainDays.toNat, checkedAt, stored, rfl, by omega, by omega, hAccepted, hStored, hOld⟩
    · rw [Function.update_of_ne hOwner] at hLe
      exact (h.retired f hf n hNumber hLe).append _

theorem pruneAborted (h : Intact rt es w) (p : String) :
    Intact rt (es ++ [.pruneAborted p]) { w with pruning := Function.update w.pruning p none } := by
  have hHeld (q : String) (through : Nat) (hHeld : Function.update w.pruning p none q = some through) : w.pruning q = some through := by
    by_cases hOwner : q = p
    · subst hOwner
      rw [Function.update_self] at hHeld
      cases hHeld
    · rwa [Function.update_of_ne hOwner] at hHeld
  refine ⟨h.numbered, fun _ hd hAccepted => h.accepted_append hd hAccepted, fun _ hEvent => h.stored_append hEvent,
    fun q through hNow => h.held q through (hHeld q through hNow), fun f hf n hNumber hLe => ?_, h.readers⟩
  refine (h.retired f hf n hNumber (hLe.trans (max_le_max_left _ ?_))).append _
  dsimp only
  cases hNow : Function.update w.pruning p none f.propertyId with
  | none => exact Nat.zero_le _
  | some through => rw [hHeld _ through hNow]

theorem pruneEnded (h : Intact rt es w) {p : String} {through : Nat} (hHeld : w.pruning p = some through) :
    Intact rt (es ++ [.pruneEnded p])
      { w with tables := w.tables.prune p through, pruning := Function.update w.pruning p none } := by
  obtain ⟨hNumbered, hKeeps⟩ := h.numbered.prune (h.held p through hHeld)
  refine ⟨hNumbered, fun _ hd hAccepted => h.accepted_append (List.mem_of_mem_filter hd) hAccepted,
    fun _ hEvent => h.stored_append (List.mem_of_mem_filter hEvent), fun q held hNow => ?_, fun f hf n hNumber hLe => ?_,
    fun r => (h.readers r).keeps hKeeps⟩
  · dsimp only at hNow ⊢
    by_cases hOwner : q = p
    · subst hOwner
      rw [Function.update_self] at hNow
      cases hNow
    · rw [Function.update_of_ne hOwner] at hNow
      rw [FactsNumbered.head_prune]
      exact h.held q held hNow
  · refine (h.retired f hf n hNumber (hLe.trans ?_)).append _
    dsimp only
    rw [FactsNumbered.floor_prune (h.held p through hHeld)]
    split
    case isTrue hOwner =>
      rw [hOwner, Function.update_self, hHeld]
      exact Nat.max_le.mpr ⟨le_rfl, Nat.zero_le _⟩
    case isFalse hOther => rw [Function.update_of_ne hOther]

/-! ### Readers -/

theorem state_bounds (h : Intact rt es w) {p : String} {state : PublishState} (hState : w.tables.publishState p = some state) :
    state.floor ≤ state.head := by
  have hFloor := h.numbered.floors p
  rwa [IntegrationTables.head, IntegrationTables.floor, hState] at hFloor

theorem read_spec {cursor : Option JsString} {limit : Int} {page : FeedPage} (hOk : t.readPmsEventFeed rt p cursor limit = .ok page) :
    ∃ (many : Nat) (source : String) (state : PublishState) (n : Nat), limit = many ∧ 1 ≤ many ∧ many ≤ 100 ∧
      t.delivery.sourceInstance = some source ∧ t.publishState p = some state ∧ consumedOf rt state source p cursor = .ok n := by
  simp only [readPmsEventFeed, bind_eq_ok, expect_eq_ok] at hOk
  obtain ⟨many, hLimit, source, hSource, state, hState, n, hCursor, -⟩ := hOk
  unfold limitValue at hLimit
  split at hLimit
  case isTrue hRange =>
    obtain rfl := Except.ok.inj hLimit
    exact ⟨limit.toNat, source, state, n, by omega, by omega, by omega, hSource, hState, hCursor⟩
  case isFalse => cases hLimit

theorem read (hReads : rt.ReadsCursors) (h : Intact rt es w) {r : Nat} {limit : Int} {page : FeedPage}
    (hOk : w.tables.readPmsEventFeed rt (w.readers r).propertyId (w.readers r).cursor limit = .ok page) :
    ((w.readers r).take page).Follows rt w.tables := by
  obtain ⟨many, source, state, n, rfl, hFirst, hLast, hSource, hState, hConsumed⟩ := read_spec hOk
  obtain ⟨hCursor, hReceived⟩ | ⟨source', state', start, m, hSource', hState', hCursor, hStart, hHead, hBodies⟩ := h.readers r
  · rw [hCursor] at hConsumed
    obtain rfl : state.floor = n := Except.ok.inj hConsumed
    have hBounds := h.state_bounds hState
    obtain ⟨bodies, hPage, hBodies⟩ := h.numbered.page hSource hState none rfl le_rfl hBounds ⟨hFirst, hLast⟩
    rw [hCursor, hPage] at hOk
    obtain rfl := Except.ok.inj hOk
    refine .inr ⟨source, state, state.floor, _, hSource, hState, rfl, ?_, Nat.min_le_right _ _, ?_⟩
    · exact Nat.le_min.mpr ⟨Nat.le_add_right _ _, hBounds⟩
    · rw [FeedReader.take, hReceived]
      exact hBodies
  · obtain rfl := Option.some.inj (hSource.symm.trans hSource')
    obtain rfl := Option.some.inj (hState.symm.trans hState')
    rw [hCursor] at hConsumed
    have hAnswer := hReads.consumedOf_encode (short_of_consumedOf hConsumed) hHead
    rw [hConsumed] at hAnswer
    split at hAnswer
    case isTrue hFloor =>
      obtain rfl := Except.ok.inj hAnswer
      obtain ⟨bodies, hPage, hMore⟩ := h.numbered.page hSource hState _ hConsumed hFloor hHead ⟨hFirst, hLast⟩
      rw [hCursor, hPage] at hOk
      obtain rfl := Except.ok.inj hOk
      refine .inr ⟨source, state, start, _, hSource, hState, rfl, ?_, Nat.min_le_right _ _, ?_⟩
      · exact hStart.trans (Nat.le_min.mpr ⟨Nat.le_add_right _ _, hHead⟩)
      · exact hBodies.append hMore hStart (Nat.le_min.mpr ⟨Nat.le_add_right _ _, hHead⟩)
    case isFalse => cases hAnswer

theorem joined (h : Intact rt es w) {p : String} {limit : Int} {page : FeedPage}
    (hOk : w.tables.readPmsEventFeed rt p none limit = .ok page) {cursor : Option JsString}
    (hCursor : cursor ∈ [none, some page.headCursor, some page.retentionFloorCursor]) :
    FeedReader.Follows rt w.tables ⟨p, cursor, []⟩ := by
  obtain ⟨many, source, state, n, rfl, hFirst, hLast, hSource, hState, -⟩ := read_spec hOk
  have hBounds := h.state_bounds hState
  obtain ⟨bodies, hPage, -⟩ := h.numbered.page hSource hState none rfl le_rfl hBounds ⟨hFirst, hLast⟩
  rw [hPage] at hOk
  obtain rfl := Except.ok.inj hOk
  have hNothing (n : Nat) : Bodies rt w.tables p n n [] := by
    rw [Bodies, Nat.sub_self]
    exact .nil
  rcases List.mem_cons.mp hCursor with rfl | hCursor
  · exact .inl ⟨rfl, rfl⟩
  rcases List.mem_cons.mp hCursor with rfl | hCursor
  · exact .inr ⟨source, state, state.head, state.head, hSource, hState, rfl, le_rfl, le_rfl, hNothing _⟩
  · obtain rfl := List.mem_singleton.mp hCursor
    exact .inr ⟨source, state, state.floor, state.floor, hSource, hState, rfl, le_rfl, hBounds, hNothing _⟩

theorem readers_step (h : Intact rt es w) {r : Nat} {reader : FeedReader} (hReader : reader.Follows rt w.tables) :
    Intact rt (es ++ [e]) { w with readers := Function.update w.readers r reader } := by
  refine ⟨h.numbered, fun _ hd hState => h.accepted_append hd hState, fun _ hEvent => h.stored_append hEvent, h.held,
    fun f hf n hNumber hLe => (h.retired f hf n hNumber hLe).append _, fun s => ?_⟩
  dsimp only
  by_cases hSame : s = r
  · rwa [hSame, Function.update_self]
  · rw [Function.update_of_ne hSame]
    exact h.readers s

end Intact

/-! ## The guarantees -/

theorem IntegrationStep.intact (hReads : rt.ReadsCursors) (h : Intact rt es w) (hStep : IntegrationStep rt w e w') :
    Intact rt (es ++ [e]) w' := by
  cases hStep with
  | configured source mode epoch cursorEpoch hOk =>
    obtain ⟨hNumbered, hKeeps, -, hEvents, hRows, hStored, hFloor⟩ := h.numbered.configure hOk
    refine h.frame hNumbered hKeeps hFloor rfl rfl (fun d hd hState => ?_) fun event hEvent => ?_
    · exact h.accepted_append (hRows ▸ hd) hState
    · dsimp only
      rw [hStored]
      exact h.stored_append (hEvents ▸ hEvent)
  | emitted call eventId createdAt hOk =>
    obtain ⟨hNumbered, hKeeps, hDelivery, hStates, hStored⟩ := h.numbered.emit hOk
    refine h.frame hNumbered hKeeps (fun p => ?_) rfl rfl (fun d hd hState => ?_) fun event hEvent => ?_
    · dsimp only
      rw [IntegrationTables.floor, hStates, IntegrationTables.floor]
    · exact h.accepted_append (hDelivery ▸ hd) hState
    · dsimp only
      rw [hStored]
      exact h.stored_append (hDelivery ▸ hEvent)
  | published p batchLimit epoch clock hFree hClock hOk => exact h.published hOk
  | delivered event hOther hStep => exact h.delivered hOther hStep
  | replayed configVersion reasonCode eventId writtenAt hClock hOk =>
    obtain ⟨hNumbered, hKeeps, hFloor, hEvents, hStored, hRows⟩ := h.numbered.replay hOk
    refine h.frame hNumbered hKeeps hFloor rfl rfl (fun d hd hState => ?_) fun event hEvent => ?_
    · exact h.accepted_append (hRows d hd hState) hState
    · dsimp only
      rw [hStored]
      exact h.stored_append (hEvents ▸ hEvent)
  | pruneStarted p retainDays checkedAt hFree hClock hOk => exact h.pruneStarted hOk
  | pruneEnded p hHeld => exact h.pruneEnded hHeld
  | pruneAborted p => exact h.pruneAborted p
  | joined r p limit hOk cursor hCursor => exact h.readers_step (h.joined hOk hCursor)
  | read r limit hOk => exact h.readers_step (Intact.read hReads h hOk)

theorem intact_of_run (hReads : rt.ReadsCursors) {s : IntegrationWorld} (hInit : (integrationSystem rt).init s)
    (hRun : Run (integrationSystem rt) s es w) : Intact rt es w := by
  obtain ⟨hOutbox, hStates, hEvents, hRows, -, hPruning, hReaders⟩ := hInit
  have hStart : Intact rt [] s := by
    refine ⟨⟨?_, ?_, fun p => ?_, fun p => ?_, fun p => ?_, ?_, ?_⟩, ?_, ?_, fun p through hHeld => ?_, ?_, fun r => .inl (hReaders r)⟩
    · simp [hOutbox]
    · simp [hOutbox]
    · simp [IntegrationTables.numbers, IntegrationTables.head, hOutbox, hStates]
    · simp [IntegrationTables.floor, IntegrationTables.head, hStates]
    · simp [IntegrationTables.eventsOf, IntegrationTables.head, hEvents, hStates]
    · simp [hEvents]
    · simp [hEvents, hRows]
    · simp [hRows]
    · simp [hEvents]
    · rw [hPruning] at hHeld
      cases hHeld
    · simp [hOutbox]
  exact hRun.traced (P := fun es w => Intact rt es w) (fun _ _ _ _ h hStep => IntegrationStep.intact hReads h hStep) hStart

/-- What a reader has received, and what it is answered next: the bodies that follow, or that its cursor has
expired. The source refuses a cursor of more than 2048 units. -/
structure Served (rt : FeedRuntime) (t : IntegrationTables) (r : FeedReader) (source : String) (state : PublishState)
    (start n : Nat) : Prop where
  opened : t.publishState r.propertyId = some state
  cursor : r.cursor = some (rt.encodeCursor state.cursorEpoch source r.propertyId n)
  bounds : start ≤ n ∧ n ≤ state.head
  received : Bodies rt t r.propertyId start n r.received
  expired : n < state.floor → ∀ cursor ∈ r.cursor, cursor.length ≤ 2048 → ∀ limit : Nat, 1 ≤ limit → limit ≤ 100 →
    t.readPmsEventFeed rt r.propertyId r.cursor limit = .error cursorExpired
  next : state.floor ≤ n → ∀ cursor ∈ r.cursor, cursor.length ≤ 2048 → ∀ limit : Nat, 1 ≤ limit → limit ≤ 100 →
    ∃ bodies, t.readPmsEventFeed rt r.propertyId r.cursor limit = .ok (feedPage rt source r.propertyId state n limit bodies) ∧
      Bodies rt t r.propertyId n (min (n + limit) state.head) bodies

/-- Every reader has the bodies of the facts from where it started up to its cursor, and goes on from there. -/
theorem pms_feed_followed (hReads : rt.ReadsCursors) {s : IntegrationWorld} (hInit : (integrationSystem rt).init s)
    (hRun : Run (integrationSystem rt) s es w) (r : Nat) :
    (w.readers r).cursor = none ∧ (w.readers r).received = [] ∨
      ∃ source state start n, Served rt w.tables (w.readers r) source state start n := by
  have hIntact := intact_of_run hReads hInit hRun
  refine (hIntact.readers r).imp id ?_
  rintro ⟨source, state, start, n, hSource, hState, hCursor, hStart, hHead, hBodies⟩
  have hConsumed {cursor : JsString} (hSome : cursor ∈ (w.readers r).cursor) (hShort : cursor.length ≤ 2048) :
      consumedOf rt state source (w.readers r).propertyId (w.readers r).cursor =
        if state.floor ≤ n then .ok n else .error cursorExpired := by
    rw [hCursor] at hSome ⊢
    obtain rfl := Option.some.inj hSome
    exact hReads.consumedOf_encode hShort hHead
  refine ⟨source, state, start, n, hState, hCursor, ⟨hStart, hHead⟩, hBodies, ?_, ?_⟩
  · intro hExpired cursor hSome hShort limit hFirst hLast
    have hAnswer := hConsumed hSome hShort
    rw [if_neg (Nat.not_le.mpr hExpired)] at hAnswer
    simp only [readPmsEventFeed, limitValue_natCast hFirst hLast, hSource, hState, expect, bind, Except.bind, hAnswer]
  · intro hFloor cursor hSome hShort limit hFirst hLast
    have hAnswer := hConsumed hSome hShort
    rw [if_pos hFloor] at hAnswer
    exact hIntact.numbered.page hSource hState _ hAnswer hFloor hHead ⟨hFirst, hLast⟩

/-- The facts of a property that are published, and what is kept of them. -/
structure OutboxGuarantee (rt : FeedRuntime) (es : List IntegrationEvent) (t : IntegrationTables) (p : String) : Prop where
  told : ∀ f ∈ t.outbox, ∀ g ∈ t.outbox, f.key = g.key → f = g
  numbered : ∀ n, 1 ≤ n ∧ n ≤ t.head p ↔ ∃ f ∈ t.outbox, f.propertyId = p ∧ f.publishSeq = some n
  once : ∀ f ∈ t.outbox, ∀ g ∈ t.outbox, f.propertyId = p → g.propertyId = p → ∀ n, f.publishSeq = some n →
    g.publishSeq = some n → f = g
  retired : ∀ f ∈ t.outbox, f.propertyId = p → ∀ n, f.publishSeq = some n → n ≤ t.floor p → Retired rt es p f.eventId n
  retained : ∀ f ∈ t.outbox, f.propertyId = p → ∀ n, f.publishSeq = some n → t.floor p < n →
    ⟨f.eventId, p, n, rt.eventBody f n⟩ ∈ t.delivery.events ∧ ∃ d ∈ t.delivery.deliveries, d.eventId = f.eventId

/-- No fact is told twice and no published one is lost: its body and its delivery are there, or it was accepted before a cleanup that
was allowed to remove it. -/
theorem pms_events_retained (hReads : rt.ReadsCursors) {s : IntegrationWorld} (hInit : (integrationSystem rt).init s)
    (hRun : Run (integrationSystem rt) s es w) (p : String) : OutboxGuarantee rt es w.tables p := by
  have hIntact := intact_of_run hReads hInit hRun
  refine ⟨fun f hf g hg hKey => List.inj_on_of_nodup_map hIntact.numbered.facts hf hg hKey,
    fun n => hIntact.numbered.number_iff, ?_, ?_, ?_⟩
  · intro f hf g hg hfOwner hgOwner n hfNumber hgNumber
    exact hIntact.numbered.fact_of_number hf hg (hfOwner.trans hgOwner.symm) hfNumber hgNumber
  · rintro f hf rfl n hNumber hFloor
    exact hIntact.retired f hf n hNumber (hFloor.trans (Nat.le_max_left _ _))
  · rintro f hf rfl n hNumber hFloor
    have hHead := (hIntact.numbered.number_iff (p := f.propertyId)).mpr ⟨f, hf, rfl, hNumber⟩
    have hMem : n ∈ (w.tables.eventsOf f.propertyId).map PublishedEvent.sequence := by
      rw [hIntact.numbered.retained, List.mem_range'_1]
      omega
    obtain ⟨⟨eventId, owner, sequence, body⟩, hEvent, hSequence⟩ := List.mem_map.mp hMem
    obtain ⟨hTable, hOwned⟩ := List.mem_filter.mp hEvent
    obtain rfl : sequence = n := hSequence
    obtain rfl : owner = f.propertyId := of_decide_eq_true hOwned
    obtain ⟨g, hg, rfl, hgOwner, hgNumber, hBody⟩ := hIntact.numbered.bodies _ hTable
    change body = rt.eventBody g sequence at hBody
    subst hBody
    obtain rfl := hIntact.numbered.fact_of_number hg hf hgOwner hgNumber hNumber
    have hRow : g.eventId ∈ w.tables.delivery.deliveries.map Delivery.eventId := by
      rw [hIntact.numbered.deliveries]
      exact List.mem_map_of_mem hTable
    obtain ⟨d, hd, hId⟩ := List.mem_map.mp hRow
    exact ⟨hTable, d, hd, hId⟩

/-! ## A property with one event -/

/-- HMAC-SHA256 with the key `k1` of the payloads of the cursors 0 and 1. -/
def sampleMacs : List (JsString × List UInt8) :=
  [(units "WyJwbXMuZXZlbnRzLnYxIiwicG1zIiwicDEiLCIwIl0", [25, 222, 64, 99, 62, 38, 67, 39, 145, 135, 247, 61, 14, 173, 205, 147,
      121, 5, 105, 63, 165, 227, 205, 37, 46, 220, 183, 92, 3, 144, 24, 80]),
    (units "WyJwbXMuZXZlbnRzLnYxIiwicG1zIiwicDEiLCIxIl0", [164, 238, 239, 38, 39, 95, 102, 91, 195, 232, 126, 72, 196, 20, 188,
      243, 52, 126, 238, 191, 36, 154, 249, 199, 148, 252, 208, 100, 6, 138, 80, 19])]

/-- `parse` reads arrays of texts; the only time that is told is the instant 0. -/
def sampleFeedRuntime : FeedRuntime where
  utf8 := JsString.utf8
  parse bytes := (decodeUtf8 bytes).bind parseTexts
  hmac _ value := (sampleMacs.lookup value).getD [0]
  utcText instant := if instant = 0 then "1970-01-01T00:00:00.000000Z" else ""
  http := ⟨fun _ => none, fun _ => none, fun _ => none⟩

theorem sampleMacs_full (value : JsString) : (sampleMacs.lookup value).getD [0] ≠ [] := by
  have hFull : sampleMacs.all (fun entry => !entry.2.isEmpty) = true := by decide
  cases hLookup : sampleMacs.lookup value with
  | none => exact List.cons_ne_nil _ _
  | some mac =>
    obtain ⟨before, after, hSplit, -⟩ := List.lookup_eq_some_iff.mp hLookup
    have hMac := List.all_eq_true.mp hFull (value, mac) (hSplit ▸ List.mem_append_right before List.mem_cons_self)
    rintro (rfl : mac = [])
    cases hMac

theorem sampleFeedRuntime_reads : sampleFeedRuntime.ReadsCursors where
  parses source p n := by
    have hValues : cursorValues source p (sequenceText n) =
        .arr ([units "pms.events.v1", units source, units p, sequenceText n].map .str) := rfl
    have hParse (text : JsString) :
        sampleFeedRuntime.parse (sampleFeedRuntime.utf8 text) = (decodeUtf8 (utf8 text)).bind parseTexts := rfl
    rw [hParse, hValues, parse_utf8_texts]
  throws := by
    have hEmpty : decodeUtf8 [] = some [] := decodeUtf8_utf8 .nil
    have hParse : sampleFeedRuntime.parse [] = (decodeUtf8 []).bind parseTexts := rfl
    rw [hParse, hEmpty]
    rfl
  digests _ value := sampleMacs_full value

def sampleCapture : IntegrationTables where
  properties := ["p1"]
  captureMode := .baseline
  captureEpoch := ""
  outbox := []
  publishState _ := none
  publishedAt _ := none
  delivery := ⟨none, true, "NOT_ACTIVATED", [], [], []⟩

def sampleIntegrationWorld : IntegrationWorld := ⟨sampleCapture, 0, [], fun _ => none, fun _ => ⟨"p1", none, []⟩⟩

def sampleConfigured : IntegrationTables :=
  { sampleCapture with
    captureMode := .live, captureEpoch := "c1"
    publishState := fun p => if (none : Option PublishState) = none ∧ p ∈ ["p1"] then some ⟨0, 0, "k1"⟩ else none
    delivery := ⟨some "pms", true, "NOT_ACTIVATED", [], [], []⟩ }

def sampleCall : EmitCall := ⟨"p1", "order", "o1", 1, "pms.order.created", "amendment:a1", 0, "live", [("order_id", "o1")]⟩

def sampleFact : OutboxFact :=
  ⟨"e1", "pms", "p1", "order", "o1", 1, "pms.order.created", "amendment:a1", 0, "live", [("order_id", "o1")], "c1", 3, none⟩

set_option maxRecDepth 8000 in
theorem sample_configure : sampleCapture.configure "pms" .live "c1" (fun _ => "k1") = .ok sampleConfigured := rfl

def sampleEmitted : IntegrationTables := { sampleConfigured with outbox := [sampleFact] }

set_option maxRecDepth 8000 in
theorem sample_emit : sampleConfigured.emit sampleCall "e1" 3 = .ok sampleEmitted := rfl

theorem sample_publish : ∃ t, sampleEmitted.publish sampleFeedRuntime "p1" 10 "k2" (fun _ => 5) = .ok (t, 1) ∧
    t.delivery.sourceInstance = some "pms" ∧ t.publishState "p1" = some ⟨1, 0, "k1"⟩ := by
  have hSize : (sampleFeedRuntime.eventBody sampleFact 1).utf8ByteSize ≤ 65536 := by decide +kernel
  obtain ⟨last, hLast⟩ : ∃ last, sampleEmitted.publishFact sampleFeedRuntime 1 sampleFact 5 = .ok last :=
    ⟨_, FactsNumberedTo.publishFact_eq_ok.mpr ⟨hSize, rfl⟩⟩
  have hLoop : publishFacts sampleFeedRuntime (fun _ => 5) ((sampleEmitted.unpublished "p1").take (10 : Int).toNat) sampleEmitted 0 =
      .ok last := by
    have hFacts : (sampleEmitted.unpublished "p1").take (10 : Int).toNat = [sampleFact] := rfl
    rw [hFacts, publishFacts, hLast]
    rfl
  refine ⟨{ last with publishState := Function.update last.publishState "p1" (some ⟨1, 0, "k1"⟩) }, ?_, ?_, ?_⟩
  · simp only [IntegrationTables.publish, bind_eq_ok, require_eq_ok]
    refine ⟨(), by decide, ?_⟩
    rw [if_neg (by decide)]
    simp only [bind_eq_ok, require_eq_ok]
    exact ⟨(), by decide, last, hLoop, rfl⟩
  · obtain ⟨-, rfl⟩ := FactsNumberedTo.publishFact_eq_ok.mp hLast
    rfl
  · dsimp only
    rw [Function.update_self]

/-- The reader takes the event, and with the cursor that it is given goes on behind it. -/
theorem sample_integration_run : ∃ w, Run (integrationSystem sampleFeedRuntime) sampleIntegrationWorld
    [.configured, .emitted, .published [("e1", 5)], .read 0, .read 0] w ∧ (w.readers 0).cursor ≠ none := by
  obtain ⟨t, hPublish, hSource, hState⟩ := sample_publish
  have hInit : (integrationSystem sampleFeedRuntime).init sampleIntegrationWorld :=
    ⟨rfl, fun _ => rfl, rfl, rfl, rfl, fun _ => rfl, fun _ => ⟨rfl, rfl⟩⟩
  have hRun : Run (integrationSystem sampleFeedRuntime) sampleIntegrationWorld [.configured, .emitted, .published [("e1", 5)]]
      { sampleIntegrationWorld with tables := t } :=
    .cons (.configured "pms" .live "c1" (fun _ => "k1") sample_configure) (.cons (.emitted sampleCall "e1" 3 sample_emit)
      (.single (.published "p1" 10 "k2" (fun _ => 5) rfl (fun _ => Nat.zero_le _) hPublish)))
  have hNumbered := (intact_of_run sampleFeedRuntime_reads hInit hRun).numbered
  obtain ⟨bodies, hFirst, -⟩ := hNumbered.page hSource hState none rfl (Nat.zero_le _) (Nat.zero_le _)
    (by decide : 1 ≤ 10 ∧ 10 ≤ 100)
  have hShort : (sampleFeedRuntime.encodeCursor "k1" "pms" "p1" 1).length ≤ 2048 := by decide +kernel
  have hDecoded : consumedOf sampleFeedRuntime ⟨1, 0, "k1"⟩ "pms" "p1"
      (some (sampleFeedRuntime.encodeCursor "k1" "pms" "p1" 1)) = if 0 ≤ 1 then .ok 1 else .error cursorExpired :=
    sampleFeedRuntime_reads.consumedOf_encode hShort (Nat.le_refl 1)
  have hCursor : consumedOf sampleFeedRuntime ⟨1, 0, "k1"⟩ "pms" "p1"
      (some (sampleFeedRuntime.encodeCursor "k1" "pms" "p1" 1)) = .ok 1 := by
    rw [hDecoded]
    rfl
  obtain ⟨more, hSecond, -⟩ := hNumbered.page hSource hState _ hCursor (Nat.zero_le _) (Nat.le_refl _)
    (by decide : 1 ≤ 10 ∧ 10 ≤ 100)
  refine ⟨_, hRun.append (.cons (.read 0 (10 : Nat) hFirst) (.single (.read 0 (10 : Nat) hSecond))), ?_⟩
  simp [FeedReader.take]

theorem pms_feed_followed_sample : ∃ w, Run (integrationSystem sampleFeedRuntime) sampleIntegrationWorld
    [.configured, .emitted, .published [("e1", 5)], .read 0, .read 0] w ∧
      ∃ source state start n, Served sampleFeedRuntime w.tables (w.readers 0) source state start n := by
  obtain ⟨w, hRun, hRead⟩ := sample_integration_run
  refine ⟨w, hRun, ?_⟩
  obtain hNew | hServed := pms_feed_followed sampleFeedRuntime_reads
    ⟨rfl, fun _ => rfl, rfl, rfl, rfl, fun _ => rfl, fun _ => ⟨rfl, rfl⟩⟩ hRun 0
  · exact absurd hNew.1 hRead
  · exact hServed

theorem pms_events_retained_sample : ∃ w, Run (integrationSystem sampleFeedRuntime) sampleIntegrationWorld
    [.configured, .emitted, .published [("e1", 5)], .read 0, .read 0] w ∧
      OutboxGuarantee sampleFeedRuntime [.configured, .emitted, .published [("e1", 5)], .read 0, .read 0] w.tables "p1" := by
  obtain ⟨w, hRun, -⟩ := sample_integration_run
  exact ⟨w, hRun, pms_events_retained sampleFeedRuntime_reads
    ⟨rfl, fun _ => rfl, rfl, rfl, rfl, fun _ => rfl, fun _ => ⟨rfl, rfl⟩⟩ hRun "p1"⟩

end GreenPms
