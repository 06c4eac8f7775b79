import GreenPms.Delivery.Machine
import GreenPms.Integration.Outbox
import GreenPms.Library.SequencedFeed

/-! # The numbers of the published facts

The facts of a property that are published have the numbers from one to the head, each once. The events
that are retained have the numbers behind the floor, in order, with the bodies of their facts and with
one delivery each.
-/

namespace GreenPms

open Checked IntegrationTables

variable {rt : FeedRuntime} {t t' : IntegrationTables} {p : String}

/-- `head` gives the last number of each property; while facts are numbered it runs ahead of the state. -/
structure FactsNumberedTo (rt : FeedRuntime) (t : IntegrationTables) (head : String → Nat) : Prop where
  keys : (t.outbox.map OutboxFact.eventId).Nodup
  facts : (t.outbox.map OutboxFact.key).Nodup
  numbers : ∀ p, (t.numbers p).Perm (List.range' 1 (head p))
  floors : ∀ p, t.floor p ≤ head p
  retained : ∀ p, (t.eventsOf p).map PublishedEvent.sequence = List.range' (t.floor p + 1) (head p - t.floor p)
  bodies : ∀ e ∈ t.delivery.events, ∃ f ∈ t.outbox, f.eventId = e.eventId ∧ f.propertyId = e.propertyId ∧
    f.publishSeq = some e.sequence ∧ e.body = rt.eventBody f e.sequence
  deliveries : t.delivery.deliveries.map Delivery.eventId = t.delivery.events.map PublishedEvent.eventId

abbrev FactsNumbered (rt : FeedRuntime) (t : IntegrationTables) : Prop := FactsNumberedTo rt t t.head

/-- What later tables keep of earlier ones: a fact that has a number stays as it is. -/
structure Keeps (t t' : IntegrationTables) : Prop where
  facts : ∀ f ∈ t.outbox, f.publishSeq ≠ none → f ∈ t'.outbox
  source : ∀ source, t.delivery.sourceInstance = some source → t'.delivery.sourceInstance = some source
  states : ∀ p state, t.publishState p = some state →
    ∃ state', t'.publishState p = some state' ∧ state'.cursorEpoch = state.cursorEpoch ∧ state.head ≤ state'.head

theorem Keeps.refl (t : IntegrationTables) : Keeps t t := ⟨fun _ hf _ => hf, fun _ h => h, fun _ _ h => ⟨_, h, rfl, le_rfl⟩⟩

theorem Keeps.trans {a b c : IntegrationTables} (h : Keeps a b) (k : Keeps b c) : Keeps a c where
  facts f hf hNumber := k.facts f (h.facts f hf hNumber) hNumber
  source _ hSource := k.source _ (h.source _ hSource)
  states p state hState := by
    obtain ⟨middle, hMiddle, hEpoch, hHead⟩ := h.states p state hState
    obtain ⟨last, hLast, kEpoch, kHead⟩ := k.states p middle hMiddle
    exact ⟨last, hLast, kEpoch.trans hEpoch, hHead.trans kHead⟩

theorem Keeps.head_le (h : Keeps t t') (p : String) : t.head p ≤ t'.head p := by
  unfold IntegrationTables.head
  cases hState : t.publishState p with
  | none => exact Nat.zero_le _
  | some state =>
    obtain ⟨later, hLater, -, hHead⟩ := h.states p state hState
    rw [hLater]
    exact hHead

/-- The property has a fact with the number, and its body is this one. -/
def Published (rt : FeedRuntime) (t : IntegrationTables) (p : String) (n : Nat) (body : String) : Prop :=
  ∃ f ∈ t.outbox, f.propertyId = p ∧ f.publishSeq = some n ∧ body = rt.eventBody f n

theorem Published.keeps {n : Nat} {body : String} (h : Published rt t p n body) (hKeeps : Keeps t t') : Published rt t' p n body := by
  obtain ⟨f, hf, hOwner, hNumber, hBody⟩ := h
  exact ⟨f, hKeeps.facts f hf (by simp [hNumber]), hOwner, hNumber, hBody⟩

namespace FactsNumberedTo

variable {head : String → Nat}

theorem fact_eq (h : FactsNumberedTo rt t head) {f g : OutboxFact} (hf : f ∈ t.outbox) (hg : g ∈ t.outbox)
    (hId : f.eventId = g.eventId) : f = g := List.inj_on_of_nodup_map h.keys hf hg hId

theorem covered_congr (h : FactsNumberedTo rt t head) {d e : PublishedEvent} (hd : d ∈ t.delivery.events)
    (he : e ∈ t.delivery.events) (hId : d.eventId = e.eventId) (p : String) (through : Nat) :
    covered p through d = covered p through e := by
  obtain ⟨f, hf, hfId, hfOwner, hfNumber, -⟩ := h.bodies d hd
  obtain ⟨g, hg, hgId, hgOwner, hgNumber, -⟩ := h.bodies e he
  obtain rfl := h.fact_eq hf hg (hfId.trans (hId.trans hgId.symm))
  rw [covered, covered, ← hfOwner, ← hgOwner, Option.some.inj (hfNumber.symm.trans hgNumber)]

theorem fact_of_number (h : FactsNumberedTo rt t head) {f g : OutboxFact} (hf : f ∈ t.outbox) (hg : g ∈ t.outbox)
    (hOwner : f.propertyId = g.propertyId) {n : Nat} (hfNumber : f.publishSeq = some n) (hgNumber : g.publishSeq = some n) :
    f = g := by
  have hNodup : (t.numbers g.propertyId).Nodup := (h.numbers g.propertyId).nodup_iff.mpr List.nodup_range'
  rw [IntegrationTables.numbers, List.Nodup, List.pairwise_filterMap] at hNodup
  have hSymm : Std.Symm fun a b : OutboxFact => ∀ n, a.publishSeq = some n → ∀ m, b.publishSeq = some m → n ≠ m :=
    ⟨fun _ _ hApart m hm n hn => (hApart n hn m hm).symm⟩
  by_contra hDiffer
  exact hNodup.forall (by simpa [hOwner] using hf) (by simpa using hg) hDiffer n hfNumber n hgNumber rfl

theorem number_iff (h : FactsNumberedTo rt t head) {n : Nat} :
    1 ≤ n ∧ n ≤ head p ↔ ∃ f ∈ t.outbox, f.propertyId = p ∧ f.publishSeq = some n := by
  have hMem := (h.numbers p).mem_iff (a := n)
  rw [List.mem_range'_1, IntegrationTables.numbers, List.mem_filterMap] at hMem
  constructor
  · intro hRange
    obtain ⟨f, hf, hNumber⟩ := hMem.mpr ⟨hRange.1, by omega⟩
    obtain ⟨hFact, hOwner⟩ := List.mem_filter.mp hf
    exact ⟨f, hFact, of_decide_eq_true hOwner, hNumber⟩
  · rintro ⟨f, hf, hOwner, hNumber⟩
    have hRange := hMem.mp ⟨f, List.mem_filter.mpr ⟨hf, decide_eq_true hOwner⟩, hNumber⟩
    omega

/-! ## Emission -/

theorem numbers_append (f : OutboxFact) (hNumber : f.publishSeq = none) (p : String) :
    IntegrationTables.numbers { t with outbox := t.outbox ++ [f] } p = t.numbers p := by
  unfold IntegrationTables.numbers
  dsimp only
  rw [List.filter_append, List.filterMap_append]
  by_cases hOwner : f.propertyId = p <;> simp [hOwner, hNumber]

theorem nodup_map_append {β : Type} {key : OutboxFact → β} {l : List OutboxFact} {f : OutboxFact} (h : (l.map key).Nodup)
    (hFresh : ∀ g ∈ l, key g ≠ key f) : ((l ++ [f]).map key).Nodup := by
  rw [List.map_append, List.map_cons, List.map_nil]
  refine List.nodup_append.mpr ⟨h, List.nodup_singleton _, ?_⟩
  rintro _ hOld _ hNew rfl
  obtain ⟨g, hg, hKey⟩ := List.mem_map.mp hOld
  exact hFresh g hg (hKey.trans (List.mem_singleton.mp hNew))

theorem emitted (h : FactsNumberedTo rt t head) {f : OutboxFact} (hNumber : f.publishSeq = none)
    (hFresh : ∀ g ∈ t.outbox, g.eventId ≠ f.eventId) (hNew : ∀ g ∈ t.outbox, g.key ≠ f.key) :
    FactsNumberedTo rt { t with outbox := t.outbox ++ [f] } head where
  keys := nodup_map_append h.keys hFresh
  facts := nodup_map_append h.facts hNew
  numbers p := by
    rw [numbers_append f hNumber]
    exact h.numbers p
  floors := h.floors
  retained := h.retained
  bodies e he := by
    obtain ⟨g, hg, hRest⟩ := h.bodies e he
    exact ⟨g, List.mem_append_left _ hg, hRest⟩
  deliveries := h.deliveries

/-! ## Publication -/

theorem number_split (h : FactsNumberedTo rt t head) {f : OutboxFact} {a b : List OutboxFact} (hSplit : t.outbox = a ++ f :: b)
    (seq : Nat) : t.outbox.map (OutboxFact.number f.eventId seq) = a ++ { f with publishSeq := some seq } :: b := by
  have hKeys := h.keys
  rw [hSplit, List.map_append, List.map_cons, List.nodup_append, List.nodup_cons] at hKeys
  obtain ⟨-, ⟨hLater, -⟩, hApart⟩ := hKeys
  have hSame {l : List OutboxFact} (hl : ∀ g ∈ l, g.eventId ≠ f.eventId) : l.map (OutboxFact.number f.eventId seq) = l := by
    refine (List.map_congr_left fun g hg => ?_).trans (List.map_id l)
    exact if_neg (hl g hg)
  rw [hSplit, List.map_append, List.map_cons, hSame, hSame, OutboxFact.number, if_pos rfl]
  · exact fun g hg hId => hLater (hId ▸ List.mem_map_of_mem hg)
  · exact fun g hg hId => hApart _ (List.mem_map_of_mem hg) _ List.mem_cons_self hId

theorem publishFact_eq_ok {seq now : Nat} {f : OutboxFact} : t.publishFact rt seq f now = .ok t' ↔
    (rt.eventBody f seq).utf8ByteSize ≤ 65536 ∧ t' = { t with
      outbox := t.outbox.map (OutboxFact.number f.eventId seq)
      publishedAt := Function.update t.publishedAt f.eventId (some now)
      delivery := t.delivery.publish ⟨f.eventId, f.propertyId, seq, rt.eventBody f seq⟩ now } := by
  simp only [publishFact, bind_eq_ok, require_eq_ok, pure_eq_ok, exists_const]
  constructor
  · rintro ⟨hSize, hSame⟩
    exact ⟨hSize, hSame.symm⟩
  · rintro ⟨hSize, hSame⟩
    exact ⟨hSize, hSame.symm⟩

theorem published (h : FactsNumberedTo rt t head) {f : OutboxFact} (hf : f ∈ t.outbox) (hNumber : f.publishSeq = none) {now : Nat}
    (hOk : t.publishFact rt (head f.propertyId + 1) f now = .ok t') :
    FactsNumberedTo rt t' (Function.update head f.propertyId (head f.propertyId + 1)) := by
  obtain ⟨a, b, hSplit⟩ := List.append_of_mem hf
  obtain ⟨-, rfl⟩ := publishFact_eq_ok.mp hOk
  have hRows := h.number_split hSplit (head f.propertyId + 1)
  have hHead (p : String) (hOther : p ≠ f.propertyId) :
      Function.update head f.propertyId (head f.propertyId + 1) p = head p := Function.update_of_ne hOther ..
  constructor
  · dsimp only
    rw [hRows]
    have hKeys := h.keys
    rw [hSplit] at hKeys
    simpa using hKeys
  · dsimp only
    rw [hRows]
    have hFacts := h.facts
    rw [hSplit] at hFacts
    simpa [OutboxFact.key] using hFacts
  · intro p
    have hNumbers := h.numbers p
    unfold IntegrationTables.numbers at hNumbers ⊢
    dsimp only
    rw [hRows, List.filter_append, List.filterMap_append]
    rw [hSplit, List.filter_append, List.filterMap_append] at hNumbers
    by_cases hOwner : f.propertyId = p
    · subst hOwner
      simp only [decide_true, List.filter_cons_of_pos, List.filterMap_cons, hNumber] at hNumbers ⊢
      rw [Function.update_self, List.range'_1_concat]
      refine List.perm_middle.trans ((hNumbers.cons _).trans ?_)
      rw [Nat.add_comm 1]
      exact (List.perm_append_singleton _ _).symm
    · rw [hHead p (Ne.symm hOwner)]
      simpa [hOwner] using hNumbers
  · intro p
    by_cases hOwner : p = f.propertyId
    · subst hOwner
      rw [Function.update_self]
      exact Nat.le_succ_of_le (h.floors f.propertyId)
    · rw [hHead p hOwner]
      exact h.floors p
  · intro p
    have hRetained := h.retained p
    have hFloor := h.floors p
    unfold eventsOf at hRetained ⊢
    simp only [DeliveryTables.publish, List.filter_append, List.map_append]
    rw [hRetained]
    change _ = List.range' (t.floor p + 1) (Function.update head f.propertyId (head f.propertyId + 1) p - t.floor p)
    by_cases hOwner : f.propertyId = p
    · subst hOwner
      rw [Function.update_self, Nat.succ_sub hFloor, List.range'_1_concat]
      have hNext : t.floor f.propertyId + 1 + (head f.propertyId - t.floor f.propertyId) = head f.propertyId + 1 := by omega
      simp [hNext]
    · rw [hHead p (Ne.symm hOwner)]
      simp [hOwner]
  · intro e he
    rcases List.mem_append.mp he with hOld | hNew
    · obtain ⟨g, hg, hId, hOwner, hSeq, hBody⟩ := h.bodies e hOld
      have hOther : g.eventId ≠ f.eventId := by
        intro hSame
        obtain rfl := h.fact_eq hg hf hSame
        rw [hNumber] at hSeq
        cases hSeq
      exact ⟨g, List.mem_map.mpr ⟨g, hg, if_neg hOther⟩, hId, hOwner, hSeq, hBody⟩
    · obtain rfl := List.mem_singleton.mp hNew
      exact ⟨_, List.mem_map_of_mem hf, by simp [OutboxFact.number], by simp [OutboxFact.number],
        by simp [OutboxFact.number], by simp [OutboxFact.number, FeedRuntime.eventBody]⟩
  · simp only [DeliveryTables.publish, List.map_append, List.map_cons, List.map_nil, h.deliveries]

theorem keeps_published (h : FactsNumberedTo rt t head) {f : OutboxFact} (hf : f ∈ t.outbox) (hNumber : f.publishSeq = none)
    {seq now : Nat} (hOk : t.publishFact rt seq f now = .ok t') : Keeps t t' := by
  obtain ⟨-, rfl⟩ := publishFact_eq_ok.mp hOk
  refine ⟨fun g hg hSome => ?_, fun _ h => h, fun _ state h => ⟨state, h, rfl, le_rfl⟩⟩
  have hOther : g.eventId ≠ f.eventId := by
    intro hSame
    obtain rfl := h.fact_eq hg hf hSame
    exact hSome hNumber
  exact List.mem_map.mpr ⟨g, hg, if_neg hOther⟩

theorem congr (h : FactsNumberedTo rt t head) (hOutbox : t'.outbox = t.outbox) (hEvents : t'.delivery.events = t.delivery.events)
    (hRows : t'.delivery.deliveries.map Delivery.eventId = t.delivery.deliveries.map Delivery.eventId)
    (hFloor : ∀ p, t'.floor p = t.floor p) : FactsNumberedTo rt t' head where
  keys := hOutbox ▸ h.keys
  facts := hOutbox ▸ h.facts
  numbers p := by
    rw [IntegrationTables.numbers, hOutbox]
    exact h.numbers p
  floors p := hFloor p ▸ h.floors p
  retained p := by
    rw [hFloor, eventsOf, hEvents]
    exact h.retained p
  bodies := by
    rw [hEvents, hOutbox]
    exact h.bodies
  deliveries := by rw [hRows, hEvents, h.deliveries]

end FactsNumberedTo

def publications (clock : Nat → Nat) : List OutboxFact → Nat → List (String × Nat)
  | [], _ => []
  | f :: rest, head => (f.eventId, clock (head + 1)) :: publications clock rest (head + 1)

/-- The facts that a publication takes, with the times at which they are stored. -/
def publicationsOf (t : IntegrationTables) (p : String) (batchLimit : Int) (clock : Nat → Nat) : List (String × Nat) :=
  publications clock ((t.unpublished p).take batchLimit.toNat) (t.head p)

/-- What later tables have more than earlier ones: events with the times of the rows, and open deliveries. -/
structure Stores (rows : List (String × Nat)) (t t' : IntegrationTables) : Prop where
  events : ∀ e ∈ t'.delivery.events, e ∈ t.delivery.events ∧ t'.publishedAt e.eventId = t.publishedAt e.eventId ∨
    ∃ stored, t'.publishedAt e.eventId = some stored ∧ (e.eventId, stored) ∈ rows
  deliveries : ∀ d ∈ t'.delivery.deliveries, d ∈ t.delivery.deliveries ∨ d.state = .pending

theorem Stores.refl (rows : List (String × Nat)) (t : IntegrationTables) : Stores rows t t :=
  ⟨fun _ he => .inl ⟨he, rfl⟩, fun _ hd => .inl hd⟩

theorem Stores.trans {a b c : IntegrationTables} {rows more : List (String × Nat)} (h : Stores rows a b) (k : Stores more b c) :
    Stores (rows ++ more) a c where
  events e he := by
    obtain ⟨hMiddle, hSame⟩ | ⟨stored, hAt, hRow⟩ := k.events e he
    · obtain ⟨hOld, hAt⟩ | ⟨stored, hAt, hRow⟩ := h.events e hMiddle
      · exact .inl ⟨hOld, hSame.trans hAt⟩
      · exact .inr ⟨stored, hSame.trans hAt, List.mem_append_left _ hRow⟩
    · exact .inr ⟨stored, hAt, List.mem_append_right _ hRow⟩
  deliveries d hd := (k.deliveries d hd).elim (h.deliveries d) .inr

namespace FactsNumberedTo

variable {head : String → Nat}

theorem stores_published (h : FactsNumberedTo rt t head) {f : OutboxFact} (hf : f ∈ t.outbox) (hNumber : f.publishSeq = none)
    {seq now : Nat} (hOk : t.publishFact rt seq f now = .ok t') : Stores [(f.eventId, now)] t t' := by
  obtain ⟨-, rfl⟩ := publishFact_eq_ok.mp hOk
  constructor
  · intro e he
    rcases List.mem_append.mp he with hOld | hNew
    · obtain ⟨g, hg, hId, -, hSeq, -⟩ := h.bodies e hOld
      have hOther : e.eventId ≠ f.eventId := by
        intro hSame
        obtain rfl := h.fact_eq hg hf (hId.trans hSame)
        rw [hNumber] at hSeq
        cases hSeq
      exact .inl ⟨hOld, Function.update_of_ne hOther ..⟩
    · obtain rfl := List.mem_singleton.mp hNew
      exact .inr ⟨now, Function.update_self .., List.mem_singleton.mpr rfl⟩
  · intro d hd
    refine (List.mem_append.mp hd).imp id fun hNew => ?_
    rw [List.mem_singleton.mp hNew]

theorem publishFacts {clock : Nat → Nat} {fs : List OutboxFact} (hFacts : ∀ f ∈ fs, f ∈ t.outbox ∧ f.propertyId = p ∧
      f.publishSeq = none) (hKeys : (fs.map OutboxFact.eventId).Nodup) (h : FactsNumberedTo rt t head)
    (hOk : IntegrationTables.publishFacts rt clock fs t (head p) = .ok t') :
    FactsNumberedTo rt t' (Function.update head p (head p + fs.length)) ∧ Keeps t t' ∧ t'.publishState = t.publishState ∧
      Stores (publications clock fs (head p)) t t' := by
  induction fs generalizing t head with
  | nil =>
    rw [IntegrationTables.publishFacts, pure_eq_ok] at hOk
    subst hOk
    rw [List.length_nil, Nat.add_zero, Function.update_eq_self]
    exact ⟨h, .refl t, rfl, .refl _ t⟩
  | cons f fs ih =>
    rw [IntegrationTables.publishFacts, bind_eq_ok] at hOk
    obtain ⟨next, hFirst, hRest⟩ := hOk
    obtain ⟨⟨hf, rfl, hNumber⟩, hLater⟩ := List.forall_mem_cons.mp hFacts
    obtain ⟨hFresh, hKeys⟩ := List.nodup_cons.mp hKeys
    have hNext := h.published hf hNumber hFirst
    have hHead : head f.propertyId + 1 = Function.update head f.propertyId (head f.propertyId + 1) f.propertyId := by
      rw [Function.update_self]
    have hFacts' : ∀ g ∈ fs, g ∈ next.outbox ∧ g.propertyId = f.propertyId ∧ g.publishSeq = none := by
      intro g hg
      obtain ⟨hMem, hOpen⟩ := hLater g hg
      obtain ⟨-, rfl⟩ := publishFact_eq_ok.mp hFirst
      exact ⟨List.mem_map.mpr ⟨g, hMem, if_neg fun hId => hFresh (List.mem_map.mpr ⟨g, hg, hId⟩)⟩, hOpen⟩
    rw [hHead] at hRest
    obtain ⟨hNumbered, hKeeps, hStates, hStores⟩ := ih hFacts' hKeys hNext hRest
    rw [Function.update_self, Function.update_idem, Nat.add_right_comm, Nat.add_assoc] at hNumbered
    refine ⟨hNumbered, (h.keeps_published hf hNumber hFirst).trans hKeeps, ?_, ?_⟩
    · rw [hStates]
      obtain ⟨-, rfl⟩ := publishFact_eq_ok.mp hFirst
      rfl
    · rw [Function.update_self] at hStores
      exact (h.stores_published hf hNumber hFirst).trans hStores

end FactsNumberedTo

theorem unpublished_spec (t : IntegrationTables) (p : String) : ∀ f ∈ t.unpublished p, f ∈ t.outbox ∧ f.propertyId = p ∧
    f.publishSeq = none := by
  intro f hf
  obtain ⟨hMem, hBoth⟩ := List.mem_filter.mp ((List.mem_insertionSort _).mp hf)
  exact ⟨hMem, of_decide_eq_true hBoth⟩

theorem map_update_eventId (t : DeliveryTables) (q : Delivery → Bool) {f : Delivery → Delivery}
    (hf : ∀ d, (f d).eventId = d.eventId) : (t.update q f).deliveries.map Delivery.eventId = t.deliveries.map Delivery.eventId := by
  rw [DeliveryTables.update, List.map_map]
  refine List.map_congr_left fun d _ => ?_
  rw [Function.comp_apply]
  split
  · exact hf d
  · rfl

namespace FactsNumbered

theorem publish (h : FactsNumbered rt t) {batchLimit : Int} {epoch : String} {clock : Nat → Nat} {count : Nat}
    (hOk : t.publish rt p batchLimit epoch clock = .ok (t', count)) :
    FactsNumbered rt t' ∧ Keeps t t' ∧ (∀ q, t'.floor q = t.floor q) ∧ Stores (publicationsOf t p batchLimit clock) t t' := by
  simp only [IntegrationTables.publish, bind_eq_ok, require_eq_ok] at hOk
  obtain ⟨-, -, hOk⟩ := hOk
  split at hOk
  case isTrue =>
    rw [pure_eq_ok, Prod.mk.injEq] at hOk
    obtain ⟨rfl, -⟩ := hOk
    exact ⟨h, .refl t, fun _ => rfl, .refl _ t⟩
  case isFalse hSource =>
    simp only [bind_eq_ok, require_eq_ok, pure_eq_ok, Prod.mk.injEq] at hOk
    obtain ⟨-, -, last, hFacts, rfl, -⟩ := hOk
    generalize hState : (t.publishState p).getD ⟨0, 0, epoch⟩ = state at hFacts ⊢
    have hHead : state.head = t.head p := by
      rw [← hState, IntegrationTables.head]
      cases t.publishState p <;> rfl
    have hFloor : state.floor = t.floor p := by
      rw [← hState, IntegrationTables.floor]
      cases t.publishState p <;> rfl
    have hKeys : (((t.unpublished p).take batchLimit.toNat).map OutboxFact.eventId).Nodup := by
      have hAll : ((t.unpublished p).map OutboxFact.eventId).Nodup :=
        (((List.perm_insertionSort _ _).map _).nodup_iff).mpr (h.keys.sublist (List.filter_sublist.map _))
      exact hAll.sublist ((List.take_sublist _ _).map _)
    rw [hHead] at hFacts
    obtain ⟨hNumbered, hKeeps, hStates, hStores⟩ :=
      FactsNumberedTo.publishFacts (fun f hf => unpublished_spec t p f (List.mem_of_mem_take hf)) hKeys h hFacts
    have hFloors (q : String) : IntegrationTables.floor { last with
          publishState := Function.update last.publishState p
            (some { state with head := state.head + ((t.unpublished p).take batchLimit.toNat).length }) } q = t.floor q := by
      unfold IntegrationTables.floor
      dsimp only
      by_cases hOwner : q = p
      · subst hOwner
        rw [Function.update_self]
        exact hFloor
      · rw [Function.update_of_ne hOwner, hStates]
    refine ⟨?_, hKeeps.trans ⟨fun _ hf _ => hf, fun _ h => h, fun q old hOld => ?_⟩, hFloors, ⟨hStores.events, hStores.deliveries⟩⟩
    · have hHeads : IntegrationTables.head { last with
            publishState := Function.update last.publishState p
              (some { state with head := state.head + ((t.unpublished p).take batchLimit.toNat).length }) } =
          Function.update t.head p (t.head p + ((t.unpublished p).take batchLimit.toNat).length) := by
        funext q
        unfold IntegrationTables.head
        dsimp only
        by_cases hOwner : q = p
        · subst hOwner
          rw [Function.update_self, Function.update_self]
          exact congrArg (· + _) hHead
        · rw [Function.update_of_ne hOwner, Function.update_of_ne hOwner, hStates]
      rw [FactsNumbered, hHeads]
      refine hNumbered.congr rfl rfl rfl fun q => (hFloors q).trans ?_
      rw [IntegrationTables.floor, IntegrationTables.floor, hStates]
    · dsimp only
      by_cases hOwner : q = p
      · subst hOwner
        rw [hStates] at hOld
        rw [hOld, Option.getD_some] at hState
        subst hState
        exact ⟨_, Function.update_self .., rfl, Nat.le_add_right _ _⟩
      · exact ⟨old, (Function.update_of_ne hOwner ..).trans hOld, rfl, le_rfl⟩

theorem emit (h : FactsNumbered rt t) {c : EmitCall} {eventId : String} {createdAt : Nat}
    (hOk : t.emit c eventId createdAt = .ok t') :
    FactsNumbered rt t' ∧ Keeps t t' ∧ t'.delivery = t.delivery ∧ t'.publishState = t.publishState ∧
      t'.publishedAt = t.publishedAt := by
  unfold IntegrationTables.emit at hOk
  split at hOk
  · rw [pure_eq_ok] at hOk
    subst hOk
    exact ⟨h, .refl t, rfl, rfl, rfl⟩
  · simp only [bind_eq_ok, require_eq_ok] at hOk
    obtain ⟨-, -, hOk⟩ := hOk
    split at hOk
    · simp only [bind_eq_ok, pure_eq_ok] at hOk
      obtain ⟨-, -, rfl⟩ := hOk
      exact ⟨h, .refl t, rfl, rfl, rfl⟩
    · simp only [checkFact, bind_eq_ok, require_eq_ok, pure_eq_ok] at hOk
      obtain ⟨-, ⟨-, -, -, -, -, -, -, -, -, -, -, -, -, -, -, -, hFresh⟩, rfl⟩ := hOk
      have hNew := List.find?_eq_none.mp ‹_›
      refine ⟨FactsNumberedTo.emitted h rfl hFresh fun g hg hKey => hNew g hg (decide_eq_true hKey), ⟨fun f hf _ => List.mem_append_left _ hf, fun _ h => h,
        fun _ _ h => ⟨_, h, rfl, le_rfl⟩⟩, rfl, rfl, rfl⟩

theorem configure (h : FactsNumbered rt t) {source : String} {mode : CaptureMode} {epoch : String} {cursorEpoch : String → String}
    (hOk : t.configure source mode epoch cursorEpoch = .ok t') :
    FactsNumbered rt t' ∧ Keeps t t' ∧ t'.outbox = t.outbox ∧ t'.delivery.events = t.delivery.events ∧
      t'.delivery.deliveries = t.delivery.deliveries ∧ t'.publishedAt = t.publishedAt ∧ ∀ p, t'.floor p = t.floor p := by
  simp only [IntegrationTables.configure, bind_eq_ok, require_eq_ok, pure_eq_ok] at hOk
  obtain ⟨-, -, -, hSource, rfl⟩ := hOk
  have hSame (p : String) : (if t.publishState p = none ∧ p ∈ t.properties then some (PublishState.mk 0 0 (cursorEpoch p))
      else t.publishState p).elim 0 PublishState.head = t.head p ∧
      (if t.publishState p = none ∧ p ∈ t.properties then some (PublishState.mk 0 0 (cursorEpoch p))
      else t.publishState p).elim 0 PublishState.floor = t.floor p := by
    unfold IntegrationTables.head IntegrationTables.floor
    cases t.publishState p with
    | none => split <;> exact ⟨rfl, rfl⟩
    | some state => exact ⟨rfl, rfl⟩
  refine ⟨?_, ⟨fun _ hf _ => hf, fun old hOld => ?_, fun p state hState => ⟨state, ?_, rfl, le_rfl⟩⟩, rfl, rfl, rfl, rfl,
    fun p => (hSame p).2⟩
  · have hHeads : IntegrationTables.head { t with
          captureMode := mode, captureEpoch := epoch
          publishState := fun p => if t.publishState p = none ∧ p ∈ t.properties then some ⟨0, 0, cursorEpoch p⟩ else t.publishState p
          delivery := { t.delivery with sourceInstance := some source } } = t.head := funext fun p => (hSame p).1
    rw [FactsNumbered, hHeads]
    exact FactsNumberedTo.congr h rfl rfl rfl fun p => (hSame p).2
  · exact congrArg some (hSource old hOld).symm
  · dsimp only
    rw [if_neg (by simp [hState]), hState]

theorem replay (h : FactsNumbered rt t) {configVersion reasonCode eventId : String} {now : Nat}
    (hOk : t.replay configVersion reasonCode eventId now = .ok t') :
    FactsNumbered rt t' ∧ Keeps t t' ∧ (∀ p, t'.floor p = t.floor p) ∧ t'.delivery.events = t.delivery.events ∧
      t'.publishedAt = t.publishedAt ∧ ∀ d ∈ t'.delivery.deliveries, d.state = .accepted → d ∈ t.delivery.deliveries := by
  simp only [IntegrationTables.replay, bind_eq_ok, require_eq_ok, pure_eq_ok] at hOk
  obtain ⟨-, -, -, -, rfl⟩ := hOk
  have hRows := map_update_eventId t.delivery (fun d => d.eventId = eventId) (f := replayRow now) fun _ => rfl
  refine ⟨FactsNumberedTo.congr h rfl rfl hRows fun _ => rfl, ⟨fun _ hf _ => hf, fun _ h => h, fun _ _ h => ⟨_, h, rfl, le_rfl⟩⟩,
    fun _ => rfl, rfl, rfl, fun d hd hState => ?_⟩
  obtain ⟨old, hOld, rfl⟩ := DeliveryTables.mem_update.mp hd
  split at hState
  · cases hState
  · next hOther =>
    rw [if_neg hOther]
    exact hOld

end FactsNumbered

/-! ## Retention -/

def PublishedEvent.entry (e : PublishedEvent) : SequencedFeed.Entry String String String := ⟨e.propertyId, e.sequence, e.eventId, e.body⟩

theorem PublishedEvent.entry_injective : Function.Injective entry := by
  rintro ⟨_, _, _, _⟩ ⟨_, _, _, _⟩ h
  cases h
  rfl

theorem filter_after {rows : List PublishedEvent} {low count : Nat}
    (h : rows.map PublishedEvent.sequence = List.range' (low + 1) count) (n : Nat) :
    rows.filter (fun e => n < e.sequence) = rows.drop (n - low) := by
  obtain hLow | hLow := Nat.le_total low n
  · have hEntries : (rows.map PublishedEvent.entry).map SequencedFeed.Entry.sequence = List.range' (low + 1) count := by
      rw [List.map_map]
      exact h
    have hFilter := SequencedFeed.Tables.filter_after (n - low) low hEntries
    rw [Nat.add_sub_cancel' hLow, List.filter_map, ← List.map_drop] at hFilter
    exact List.map_injective_iff.mpr PublishedEvent.entry_injective hFilter
  · rw [Nat.sub_eq_zero_of_le hLow, List.drop_zero, List.filter_eq_self]
    intro e he
    have hMem : e.sequence ∈ List.range' (low + 1) count := h ▸ List.mem_map_of_mem he
    have hFirst := (List.mem_range'_1.mp hMem).1
    exact decide_eq_true (by omega)

namespace FactsNumbered

theorem head_prune (t : IntegrationTables) (p : String) (through : Nat) : (t.prune p through).head = t.head := by
  funext q
  unfold IntegrationTables.head IntegrationTables.prune
  dsimp only
  by_cases hOwner : q = p
  · subst hOwner
    rw [Function.update_self]
    cases t.publishState q <;> rfl
  · rw [Function.update_of_ne hOwner]

theorem floor_prune {through : Nat} (hThrough : through ≤ t.head p) (q : String) :
    (t.prune p through).floor q = if q = p then max (t.floor p) through else t.floor q := by
  unfold IntegrationTables.head at hThrough
  unfold IntegrationTables.floor IntegrationTables.prune
  dsimp only
  by_cases hOwner : q = p
  · subst hOwner
    rw [Function.update_self, if_pos rfl]
    cases hState : t.publishState q with
    | none =>
      rw [hState] at hThrough
      exact (Nat.max_eq_left hThrough).symm
    | some state => rfl
  · rw [Function.update_of_ne hOwner, if_neg hOwner]

theorem prune_deliveries (h : FactsNumbered rt t) (through : Nat) :
    (t.prune p through).delivery.deliveries.map Delivery.eventId = (t.prune p through).delivery.events.map PublishedEvent.eventId := by
  have hRow : ∀ e ∈ t.delivery.events,
      (!t.delivery.events.any fun d => e.eventId = d.eventId && covered p through d) = !covered p through e := by
    intro e he
    refine congrArg not (Bool.eq_iff_iff.mpr ⟨fun hAny => ?_, fun hCovered => ?_⟩)
    · obtain ⟨d, hd, hBoth⟩ := List.any_eq_true.mp hAny
      obtain ⟨hId, hCovered⟩ := Bool.and_eq_true_iff.mp hBoth
      rw [FactsNumberedTo.covered_congr h he hd (of_decide_eq_true hId)]
      exact hCovered
    · exact List.any_eq_true.mpr ⟨e, he, by simp [hCovered]⟩
  have hDeliveries := List.filter_map (p := fun id => !t.delivery.events.any fun d => id = d.eventId && covered p through d)
    (f := Delivery.eventId) (l := t.delivery.deliveries)
  rw [h.deliveries, List.filter_map] at hDeliveries
  exact hDeliveries.symm.trans (congrArg _ (List.filter_congr hRow))

theorem prune (h : FactsNumbered rt t) {through : Nat} (hThrough : through ≤ t.head p) :
    FactsNumbered rt (t.prune p through) ∧ Keeps t (t.prune p through) := by
  refine ⟨?_, fun _ hf _ => hf, fun _ h => h, fun q state hState => ?_⟩
  · rw [FactsNumbered, head_prune]
    refine ⟨h.keys, h.facts, h.numbers, fun q => ?_, fun q => ?_, fun e he => h.bodies e (List.mem_of_mem_filter he), prune_deliveries h through⟩
    · rw [floor_prune hThrough]
      split
      case isTrue hOwner =>
        subst hOwner
        exact Nat.max_le.mpr ⟨h.floors q, hThrough⟩
      case isFalse => exact h.floors q
    · have hRows : (t.prune p through).eventsOf q =
          if q = p then (t.eventsOf q).filter fun e => through < e.sequence else t.eventsOf q := by
        split
        case isTrue hOwner =>
          subst hOwner
          simp only [eventsOf, IntegrationTables.prune, List.filter_filter]
          refine List.filter_congr fun e _ => ?_
          rw [Bool.eq_iff_iff]
          by_cases hEvent : e.propertyId = q <;> simp [covered, hEvent]
        case isFalse hOther =>
          simp only [eventsOf, IntegrationTables.prune, List.filter_filter]
          refine List.filter_congr fun e _ => ?_
          by_cases hEvent : e.propertyId = q
          · simp [covered, hEvent, hOther]
          · simp [hEvent]
      rw [hRows, floor_prune hThrough]
      split
      case isTrue hOwner =>
        subst hOwner
        have hFloor := h.floors q
        rw [filter_after (h.retained q), List.map_drop, h.retained q, List.drop_range', Nat.mul_one]
        congr 1 <;> omega
      case isFalse => exact h.retained q
  · by_cases hOwner : q = p
    · subst hOwner
      refine ⟨_, (Function.update_self ..).trans (congrArg _ hState), rfl, le_rfl⟩
    · exact ⟨state, (Function.update_of_ne hOwner ..).trans hState, rfl, le_rfl⟩

end FactsNumbered

end GreenPms
