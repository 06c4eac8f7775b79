import GreenPms.Funds.Handoff

/-! # Arrears of a stay in house

Every fact is recorded under a revision of its order and in its currency. With these columns the
replay accepts the facts of an order exactly when none of them is a move between orders, and then it
reports arrears exactly when the net is below the contract.
-/

namespace GreenPms

open Checked Totals TransitionSystem

variable {facts : List CollectionFact} {f g : CollectionFact}

namespace LodgingLedger

variable {s s' t : LodgingLedger} {orderId : Nat}

/-! ## The columns that are recorded -/

structure Recorded (s : LodgingLedger) (facts : List CollectionFact) : Prop where
  amount : ∀ f ∈ facts, f.amountMinor ≤ postgresIntegerMaximum
  revision : ∀ f ∈ facts, ∃ r ∈ s.revisions f.orderId, r.id = (s.recorded f.factId).revisionId
  collection : ∀ f ∈ facts, f.factType = .collection →
    ∃ r ∈ s.revisions f.orderId, r.currency = (s.recorded f.factId).currency
  about : ∀ f ∈ facts, ∀ g ∈ facts, f.About g → (s.recorded f.factId).currency = (s.recorded g.factId).currency

theorem currencyOf_about {currency : CurrencyCode} (hAbout : f.About g) (h : s.currencyOf f = some currency) :
    currency = (s.recorded g.factId).currency := by
  obtain ⟨hType, hRef⟩ | ⟨hType, hRef⟩ := hAbout
  all_goals
    rw [currencyOf, hType] at h
    dsimp only at h
    rw [hRef, Option.map_some, Option.some.injEq] at h
    exact h.symm

theorem Recorded.record (h : s.Recorded facts) (hWf : WellFormed (f :: facts)) (hRecord : s.record f = .ok t) :
    t.Recorded (f :: facts) ∧ t.revisions = s.revisions := by
  simp only [LodgingLedger.record, bind_eq_ok, expect_eq_ok, require_eq_ok, pure_eq_ok] at hRecord
  obtain ⟨revision, hRevision, currency, hCurrency, _, hAmount, rfl⟩ := hRecord
  obtain _ | ⟨hAppends, hRest⟩ := hWf
  have hCurrent : revision ∈ s.revisions f.orderId := List.mem_of_getLast? hRevision
  have hNew : Function.update s.recorded f.factId ⟨currency, revision.id⟩ f.factId = ⟨currency, revision.id⟩ :=
    Function.update_self ..
  have hOld : ∀ g ∈ facts, Function.update s.recorded f.factId ⟨currency, revision.id⟩ g.factId = s.recorded g.factId :=
    fun g hg => Function.update_of_ne (hAppends.fresh g hg) ..
  refine ⟨?_, rfl⟩
  constructor
  case amount => exact List.forall_mem_cons.mpr ⟨hAmount, h.amount⟩
  case revision =>
    refine List.forall_mem_cons.mpr ⟨⟨revision, hCurrent, (congrArg RecordedUnder.revisionId hNew).symm⟩, fun g hg => ?_⟩
    dsimp only
    rw [hOld g hg]
    exact h.revision g hg
  case collection =>
    refine List.forall_mem_cons.mpr ⟨fun hType => ?_, fun g hg => ?_⟩
    · rw [currencyOf, hType] at hCurrency
      dsimp only at hCurrency ⊢
      rw [hRevision, Option.map_some, Option.some.injEq] at hCurrency
      exact ⟨revision, hCurrent, by rw [hNew, hCurrency]⟩
    · dsimp only
      rw [hOld g hg]
      exact h.collection g hg
  case about =>
    intro v hv g hg hAbout
    dsimp only
    obtain rfl | hvOld := List.mem_cons.mp hv
    · obtain rfl | hgOld := List.mem_cons.mp hg
      · rfl
      · rw [hNew, hOld g hgOld]
        exact currencyOf_about hAbout hCurrency
    · obtain rfl | hgOld := List.mem_cons.mp hg
      · exact absurd hAbout (hAppends.not_about hRest hvOld)
      · rw [hOld v hvOld, hOld g hgOld]
        exact h.about v hvOld g hgOld hAbout

theorem Recorded.run {desk : PaymentDesk} {stamp : FundsStamp} {command : FundsCommand} (h : s.Recorded s.funds.facts)
    (hRun : s.run desk stamp command = .ok t) (hOk : t.funds.Ok) (hWrites : s.funds.Writes t.funds) :
    t.Recorded t.funds.facts := by
  simp only [LodgingLedger.run, bind_eq_ok, pure_eq_ok] at hRun
  obtain ⟨funds, -, u, hRecord, rfl⟩ := hRun
  have hWf := hOk.ledger
  dsimp only at hWf hWrites ⊢
  have hSuffices : u.Recorded funds.facts → ({ u with funds } : LodgingLedger).Recorded funds.facts :=
    fun hu => ⟨hu.amount, hu.revision, hu.collection, hu.about⟩
  refine hSuffices ?_
  cases hWrites with
  | none hFacts =>
    rw [hFacts] at hRecord ⊢
    rw [Nat.sub_self, List.take_zero, List.reverse_nil, List.foldlM_nil, pure_eq_ok] at hRecord
    exact hRecord ▸ h
  | one f hFacts =>
    rw [hFacts] at hRecord hWf ⊢
    rw [List.length_cons, Nat.add_sub_cancel_left, List.take_succ_cons, List.take_zero, List.reverse_singleton,
      List.foldlM_cons] at hRecord
    obtain ⟨v, hFirst, hLast⟩ := bind_eq_ok.mp hRecord
    obtain rfl := pure_eq_ok.mp hLast
    exact (h.record hWf hFirst).1
  | moved out moved hFacts =>
    rw [hFacts] at hRecord hWf ⊢
    have hCount : (moved :: out :: s.funds.facts).length - s.funds.facts.length = 2 := by
      rw [List.length_cons, List.length_cons]
      omega
    rw [hCount, List.take_succ_cons, List.take_succ_cons, List.take_zero, List.reverse_cons, List.reverse_singleton,
      List.singleton_append, List.foldlM_cons] at hRecord
    obtain ⟨v, hFirst, hRest⟩ := bind_eq_ok.mp hRecord
    rw [List.foldlM_cons] at hRest
    obtain ⟨w, hSecond, hLast⟩ := bind_eq_ok.mp hRest
    obtain rfl := pure_eq_ok.mp hLast
    have hTail : WellFormed (out :: s.funds.facts) := by
      obtain _ | ⟨-, hTail⟩ := hWf
      exact hTail
    exact ((h.record hTail hFirst).1.record hWf hSecond).1

/-! ## Every reachable ledger -/

structure Ok (s : LodgingLedger) : Prop where
  funds : s.funds.Ok
  located : LocatedLedger s.funds.facts
  sourced : s.funds.Sourced
  recorded : s.Recorded s.funds.facts

theorem Ok.run (h : s.Ok) {desk : PaymentDesk} {stamp : FundsStamp} {command : FundsCommand}
    (hRun : s.run desk stamp command = .ok t) : t.Ok := by
  have hFunds : s.funds.run desk stamp command = .ok t.funds := by
    simp only [LodgingLedger.run, bind_eq_ok, pure_eq_ok] at hRun
    obtain ⟨funds, hFunds, u, -, rfl⟩ := hRun
    exact hFunds
  have hOk := h.funds.run hFunds
  have hWrites := h.funds.run_writes h.sourced hFunds
  exact ⟨hOk, FundsTables.LocatedLedger.run h.located hOk hWrites, h.sourced.run hWrites hFunds,
    h.recorded.run hRun hOk hWrites⟩

theorem Ok.changeOrder (h : s.Ok) (orderId : Nat) (row : FundsOrder) (revision : Option LodgingRevision) :
    (s.changeOrder orderId row revision).Ok := by
  have hKept : ∀ o, ∀ r ∈ s.revisions o, r ∈ (s.changeOrder orderId row revision).revisions o := by
    intro o r hr
    obtain rfl | hOther := Decidable.eq_or_ne o orderId
    · rw [LodgingLedger.changeOrder]
      dsimp only
      rw [Function.update_self]
      exact List.mem_append_left _ hr
    · rw [LodgingLedger.changeOrder]
      dsimp only
      rw [Function.update_of_ne hOther]
      exact hr
  refine ⟨⟨h.funds.ledger, h.funds.lots, h.funds.sources, h.funds.entries, h.funds.spent, h.funds.covered,
    h.funds.clean⟩, h.located, h.sourced, h.recorded.amount, fun f hf => ?_, fun f hf hType => ?_, h.recorded.about⟩
  · obtain ⟨r, hr, hId⟩ := h.recorded.revision f hf
    exact ⟨r, hKept _ r hr, hId⟩
  · obtain ⟨r, hr, hCurrency⟩ := h.recorded.collection f hf hType
    exact ⟨r, hKept _ r hr, hCurrency⟩

theorem reachable_ok (h : Reachable lodgingSystem s) : s.Ok := by
  refine h.invariant (P := Ok) ?_ ?_
  · rintro s ⟨hFacts, hLots, hEntries⟩
    have hFunds : s.funds.Ok := by
      refine ⟨by rw [hFacts]; exact .nil, ?_, ?_, ?_, ?_, ?_, ?_⟩
      all_goals simp [hFacts, hLots, hEntries]
    refine ⟨hFunds, by rw [hFacts]; exact .nil, ?_, ?_⟩
    · intro lot hLot
      rw [hLots] at hLot
      cases hLot
    · rw [hFacts]
      exact ⟨List.forall_mem_nil _, List.forall_mem_nil _, List.forall_mem_nil _, List.forall_mem_nil _⟩
  · rintro a e b - hOk hStep
    cases e with
    | command desk stamp command => exact hOk.run hStep
    | orderChanged orderId row revision =>
      obtain rfl := Except.ok.inj hStep
      exact hOk.changeOrder orderId row revision

/-! ## The check of an order -/

theorem orderFacts_eq (s : LodgingLedger) (orderId : Nat) :
    s.orderFacts orderId = ((ofOrder s.funds.facts orderId).map s.lodgingFact).reverse := rfl

theorem looks_orderFacts (h : (s.funds.facts.map CollectionFact.factId).Nodup) (orderId : Nat) :
    Looks s (s.orderFacts orderId) (ofOrder s.funds.facts orderId) := by
  intro g hg
  rw [MoneyScan.factById, Option.bind_some, orderFacts_eq]
  cases hFind : ((ofOrder s.funds.facts orderId).map s.lodgingFact).reverse.find? fun f => f.factId = g.factId with
  | none =>
    have hRow : s.lodgingFact g ∈ ((ofOrder s.funds.facts orderId).map s.lodgingFact).reverse :=
      List.mem_reverse.mpr (List.mem_map_of_mem hg)
    exact absurd (decide_eq_true rfl) (List.find?_eq_none.mp hFind _ hRow)
  | some row =>
    obtain ⟨x, hx, rfl⟩ := List.mem_map.mp (List.mem_reverse.mp (List.mem_of_find?_eq_some hFind))
    have hId : (s.lodgingFact x).factId = g.factId := by simpa using List.find?_some hFind
    rw [List.inj_on_of_nodup_map h (mem_ofOrder_iff.mp hx).1 (mem_ofOrder_iff.mp hg).1 hId]

theorem currency_of_collections (currency : CurrencyCode) (h : DirectLedger facts)
    (hAbout : ∀ f ∈ facts, ∀ g ∈ facts, f.About g → (s.recorded f.factId).currency = (s.recorded g.factId).currency)
    (hCollection : ∀ f ∈ facts, f.factType = .collection → (s.recorded f.factId).currency = currency) :
    ∀ f ∈ facts, (s.recorded f.factId).currency = currency := by
  induction h with
  | nil => exact List.forall_mem_nil _
  | @cons f rest hAppends hDirect _ ih =>
    have hRest := ih (fun v hv g hg => hAbout v (List.mem_cons_of_mem _ hv) g (List.mem_cons_of_mem _ hg))
      fun v hv => hCollection v (List.mem_cons_of_mem _ hv)
    have hOf : ∀ g ∈ rest, f.About g → (s.recorded f.factId).currency = currency := fun g hg hOn =>
      (hAbout f List.mem_cons_self g (List.mem_cons_of_mem _ hg) hOn).trans (hRest g hg)
    refine List.forall_mem_cons.mpr ⟨?_, hRest⟩
    obtain hType | hType | hType := hDirect.plain
    · exact hCollection f List.mem_cons_self hType
    · obtain ⟨g, hg, hRef, -⟩ := hDirect.refund hType
      exact hOf g hg (.inl ⟨hType, hRef⟩)
    · obtain ⟨-, g, hg, hRef, -⟩ := hDirect.reversal hType
      exact hOf g hg (.inr ⟨hType, hRef⟩)

structure ConsistentChain (order : LodgingOrder) (revisions : List LodgingRevision)
    (currentTimeline : List StayTimelineItem) (revision : LodgingRevision) : Prop where
  current : revisions.find? (fun r => order.currentRevisionId = some r.id) = some revision
  consistent : revisions.all (revisionConsistent order currentTimeline) = true
  currency : ∀ r ∈ revisions, r.currency = revision.currency

theorem Ok.inColumns (h : s.Ok) {order : LodgingOrder} {currentTimeline : List StayTimelineItem}
    {revision : LodgingRevision} (hChain : ConsistentChain order (s.revisions orderId) currentTimeline revision)
    (hDirect : DirectLedger (ofOrder s.funds.facts orderId)) :
    ∀ f ∈ ofOrder s.funds.facts orderId,
      InColumns s revision.currency ((s.revisions orderId).map LodgingRevision.id) f := by
  have hAll : ∀ f ∈ ofOrder s.funds.facts orderId, f ∈ s.funds.facts ∧ f.orderId = orderId :=
    fun f hf => mem_ofOrder_iff.mp hf
  have hCurrency := currency_of_collections revision.currency hDirect
    (fun f hf g hg => h.recorded.about f (hAll f hf).1 g (hAll g hg).1) fun f hf hType => by
      obtain ⟨r, hr, hSame⟩ := h.recorded.collection f (hAll f hf).1 hType
      rw [(hAll f hf).2] at hr
      rw [← hSame]
      exact hChain.currency r hr
  intro f hf
  obtain ⟨hMem, hOrder⟩ := hAll f hf
  obtain ⟨r, hr, hId⟩ := h.recorded.revision f hMem
  exact ⟨h.recorded.amount f hMem, hCurrency f hf, List.mem_map.mpr ⟨r, hOrder ▸ hr, hId⟩⟩

theorem scanFact_moves {rows : List LodgingFact} {revisionIds : List Nat} {currency : CurrencyCode}
    {a b : MoneyScan} (hMoves : f.Moves) (hForward : f.reversesFactId = none) :
    scanFact rows revisionIds currency a (s.lodgingFact f) ≠ .ok b := by
  intro h
  obtain ⟨_, -, h⟩ := bind_eq_ok.mp h
  have hReversal : a.reversal rows (s.lodgingFact f) = .ok b := by
    obtain hType | hType := hMoves
    · rw [show (s.lodgingFact f).factType = .reallocationIn from hType] at h
      exact h
    · rw [show (s.lodgingFact f).factType = .reallocationOut from hType] at h
      exact h
  obtain ⟨source, hSource, -⟩ := bind_eq_ok.mp hReversal
  rw [show (s.lodgingFact f).reversesFactId = none from hForward] at hSource
  cases hSource

end LodgingLedger

/-- The check of an order's money is passed, and reports arrears when the net is below the contract. -/
def MoneyAgrees (order : LodgingOrder) (revisions : List LodgingRevision) (facts : List LodgingFact)
    (currentTimeline : List StayTimelineItem) (revision : LodgingRevision) : Prop :=
  ∃ attention, ordinaryStayMoneyAttention order revisions facts currentTimeline = .ok attention ∧
    (attention = some .arrears ↔ netRecordedCollectionMinor facts < revision.currentContractAmountMinor)

theorem money_attention_agrees (s : LodgingLedger) (h : Reachable lodgingSystem s) (orderId : Nat)
    (order : LodgingOrder) (currentTimeline : List StayTimelineItem) (revision : LodgingRevision)
    (hChain : LodgingLedger.ConsistentChain order (s.revisions orderId) currentTimeline revision) :
    MoneyAgrees order (s.revisions orderId) (s.orderFacts orderId) currentTimeline revision ↔
      (∀ f ∈ s.orderFacts orderId, f.factType ≠ .reallocationIn ∧ f.factType ≠ .reallocationOut) ∧
        netRecordedCollectionMinor (s.orderFacts orderId) ≤ maxSafeInteger := by
  have hOk := LodgingLedger.reachable_ok h
  have hRows : ∀ f ∈ ofOrder s.funds.facts orderId, s.lodgingFact f ∈ s.orderFacts orderId :=
    fun f hf => List.mem_reverse.mpr (List.mem_map_of_mem hf)
  constructor
  case mp =>
    rintro ⟨attention, hCheck, -⟩
    simp only [ordinaryStayMoneyAttention, bind_eq_ok, require_eq_ok] at hCheck
    obtain ⟨_, -, _, -, scan, hScan, _, -, _, ⟨hSafe, -⟩, -⟩ := hCheck
    refine ⟨fun row hRow => ?_, (isSafeInteger_iff.mp hSafe).2⟩
    obtain ⟨f, hf, rfl⟩ := List.mem_map.mp (List.mem_reverse.mp hRow)
    obtain ⟨a, b, hStep⟩ := foldlM_eq_ok_mem hScan hRow
    by_contra hTypes
    have hMoves : f.Moves := by
      by_contra hStays
      exact hTypes ⟨fun hIn => hStays (.inl hIn), fun hOut => hStays (.inr hOut)⟩
    have hOther : f.factType ≠ .reversal := by rcases hMoves with hType | hType <;> simp [hType]
    have hForward := hOk.funds.ledger.forward f (mem_ofOrder_iff.mp hf).1 hOther
    exact LodgingLedger.scanFact_moves hMoves hForward hStep
  case mpr =>
    rintro ⟨hPlain, hSafe⟩
    have hDirect : DirectLedger (ofOrder s.funds.facts orderId) := hOk.located.ofOrder_direct fun f hf hMoves =>
      hMoves.elim (hPlain _ (hRows f hf)).1 (hPlain _ (hRows f hf)).2
    have hColumns := hOk.inColumns hChain hDirect
    obtain ⟨scan, hScan, hScanned⟩ := hDirect.scanned (LodgingLedger.looks_orderFacts hOk.funds.ledger.keys orderId)
      hColumns
    have hNet := hDirect.net_nonneg
    rw [← netRecorded_eq s] at hNet
    refine ⟨_, bind_eq_ok.mpr ⟨revision, expect_eq_ok.mpr hChain.current, bind_eq_ok.mpr ⟨(),
      require_eq_ok.mpr hChain.consistent, bind_eq_ok.mpr ⟨scan, hScan, bind_eq_ok.mpr ⟨(), require_eq_ok.mpr ?_,
        bind_eq_ok.mpr ⟨(), require_eq_ok.mpr ⟨isSafeInteger_iff.mpr ⟨?_, hSafe⟩, hNet⟩, rfl⟩⟩⟩⟩⟩, ?_⟩
    · refine List.all_eq_true.mpr fun row hRow => ?_
      obtain ⟨hMem, hType⟩ := List.mem_filter.mp hRow
      obtain ⟨c, hc, rfl⟩ := List.mem_map.mp (List.mem_reverse.mp hMem)
      exact hScanned.closes hDirect hColumns hc (of_decide_eq_true hType)
    · exact Int.le_trans (by decide) hNet
    · split
      · next hBelow => exact ⟨fun _ => hBelow, fun _ => rfl⟩
      · next hEnough => exact ⟨fun hSome => (by cases hSome), fun hBelow => absurd hBelow hEnough⟩

def lodgingCurrency : CurrencyCode := ⟨"CNY", currencyCode_cny⟩

def lodgingRevision : LodgingRevision where
  id := 1
  coverageSet := []
  cashLines := [.night 0 1 "night" ⟨lodgingCurrency, 80⟩]
  currency := lodgingCurrency
  policyVersionId := 1
  pricingBasis := .policy
  policyBaseAmountMinor := 80
  manualAdjustmentMinor := 0
  currentContractAmountMinor := 80

def lodgingOrder : LodgingOrder := ⟨some 1, 1⟩

def lodgingTimeline : List StayTimelineItem := [⟨0, 1⟩]

theorem lodgingChain : LodgingLedger.ConsistentChain lodgingOrder [lodgingRevision] lodgingTimeline lodgingRevision where
  current := rfl
  consistent := by decide
  currency := List.forall_mem_singleton.mpr rfl

def unfundedLedger : LodgingLedger where
  funds := { fundedTables with facts := [], retainedFunds := [], entries := [] }
  revisions _ := [lodgingRevision]
  recorded _ := ⟨lodgingCurrency, 0⟩

theorem unfundedLedger_runs {events : List LodgingEvent} {s : LodgingLedger}
    (h : events.foldlM LodgingLedger.apply unfundedLedger = .ok s) : Reachable lodgingSystem s :=
  ⟨unfundedLedger, events, ⟨rfl, rfl, rfl⟩, .of_foldlM (fun _ _ _ hStep => hStep) h⟩

def directCommands : List LodgingEvent :=
  [.command openDesk ⟨10, 0, 0⟩ (.recordCollection 2 50 .wecom (some 5)),
    .command openDesk ⟨11, 0, 0⟩ (.recordRefund 2 10 10 .wecom "R" (some 5)),
    .command openDesk ⟨12, 0, 0⟩ (.reverseFact 2 11 false)]

theorem money_attention_agrees_sample : ∃ s : LodgingLedger, (s.orderFacts 2).map (fun f => f.netEffectMinor) = [50, -10, 10] ∧
    MoneyAgrees lodgingOrder (s.revisions 2) (s.orderFacts 2) lodgingTimeline lodgingRevision := by
  obtain ⟨s, hRun, hNets, hTypes, hRevisions⟩ : ∃ s, directCommands.foldlM LodgingLedger.apply unfundedLedger = .ok s ∧
      (s.orderFacts 2).map (fun f => f.netEffectMinor) = [50, -10, 10] ∧
      (∀ f ∈ s.orderFacts 2, f.factType ≠ .reallocationIn ∧ f.factType ≠ .reallocationOut) ∧
      s.revisions 2 = [lodgingRevision] := ⟨_, rfl, rfl, by decide, rfl⟩
  refine ⟨s, hNets, (money_attention_agrees s (unfundedLedger_runs hRun) 2 lodgingOrder lodgingTimeline lodgingRevision
    (hRevisions ▸ lodgingChain)).mpr ⟨hTypes, ?_⟩⟩
  rw [netRecordedCollectionMinor, hNets]
  decide

/-- Order 1 collects 100 and keeps 30 of it, and order 2 is lent 20 of that. -/
def lendingCommands : List LodgingEvent :=
  [.command openDesk ⟨10, 0, 0⟩ (.recordCollection 1 100 .wecom (some 5)),
    .command openDesk ⟨0, 0, 1⟩ (.retainOrderFunds 1 30 10 "owner" "contact"),
    .command openDesk ⟨11, 12, 0⟩ (.applyRetainedFunds 2 20 1)]

theorem moved_funds_stop_the_check : ∃ s : LodgingLedger, Reachable lodgingSystem s ∧
    LodgingLedger.ConsistentChain lodgingOrder (s.revisions 2) lodgingTimeline lodgingRevision ∧
    ordinaryStayMoneyAttention lodgingOrder (s.revisions 2) (s.orderFacts 2) lodgingTimeline = .error fundsChainDamaged ∧
    ¬MoneyAgrees lodgingOrder (s.revisions 2) (s.orderFacts 2) lodgingTimeline lodgingRevision := by
  obtain ⟨s, hRun, hRevisions, hThrows⟩ : ∃ s, lendingCommands.foldlM LodgingLedger.apply unfundedLedger = .ok s ∧
      s.revisions 2 = [lodgingRevision] ∧
      ordinaryStayMoneyAttention lodgingOrder (s.revisions 2) (s.orderFacts 2) lodgingTimeline =
        .error fundsChainDamaged := ⟨_, rfl, rfl, rfl⟩
  refine ⟨s, unfundedLedger_runs hRun, hRevisions ▸ lodgingChain, hThrows, fun ⟨attention, hOk, _⟩ => ?_⟩
  rw [hThrows] at hOk
  cases hOk

end GreenPms
