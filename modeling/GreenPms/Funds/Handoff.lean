import GreenPms.Funds.Replay

/-! # When the replay agrees with the commands

A refund or a reversal stays within its order, so the facts of an order form a ledger of their own as
long as no money was moved between orders. A fact of such a move is taken for a reversal of nothing.
-/

namespace GreenPms

open Checked Totals TransitionSystem

variable {facts rest : List CollectionFact} {f g v : CollectionFact}

def CollectionFact.About (f g : CollectionFact) : Prop :=
  f.factType = .refund ∧ f.referencesFactId = some g.factId ∨ f.factType = .reversal ∧ f.reversesFactId = some g.factId

/-- A fact stays in the order of the fact that it is about, and fits it. -/
structure Located (rest : List CollectionFact) (f : CollectionFact) : Prop where
  order : ∀ g ∈ rest, f.About g → g.orderId = f.orderId
  refund : f.factType = .refund → ∀ g ∈ rest, f.referencesFactId = some g.factId →
    isReversed rest g.factId = false ∧ refundedMinor rest g.factId + f.amountMinor ≤ g.amountMinor
  reversal : f.factType = .reversal → f.referencesFactId = none ∧ ∀ g ∈ rest, f.reversesFactId = some g.factId →
    f.amountMinor = g.amountMinor ∧ (g.factType = .collection → refundedMinor rest g.factId = 0)

inductive LocatedLedger : List CollectionFact → Prop
  | nil : LocatedLedger []
  | cons {f : CollectionFact} {rest : List CollectionFact} : Appends rest f → Located rest f → LocatedLedger rest →
      LocatedLedger (f :: rest)

theorem LocatedLedger.wellFormed (h : LocatedLedger facts) : WellFormed facts := by
  induction h with
  | nil => exact .nil
  | cons hAppends _ _ ih => exact .cons hAppends ih

/-! ## The ledger of an order -/

theorem Appends.not_about (hAppends : Appends rest f) (h : WellFormed rest) (hv : v ∈ rest) : ¬v.About f := by
  rintro (⟨hType, hRef⟩ | ⟨-, hRef⟩)
  · obtain ⟨a, hSource, hMem⟩ := h.source hv (.inl (by simp [CollectionFact.isDraw, hType]))
    obtain ⟨g, hg, hId⟩ := List.mem_map.mp hMem
    rw [hRef, Option.some.injEq] at hSource
    exact hAppends.fresh g (List.mem_filter.mp hg).1 (hId.trans hSource.symm)
  · have hReversed : isReversed rest f.factId = true := List.any_eq_true.mpr ⟨v, hv, decide_eq_true hRef⟩
    rw [hAppends.unreversed h] at hReversed
    cases hReversed

theorem Appends.about_mem (hAppends : Appends rest f) (hAbout : f.About g) : ∃ r ∈ rest, r.factId = g.factId := by
  obtain ⟨hType, hRef⟩ | ⟨hType, hRef⟩ := hAbout
  · obtain ⟨r, hr, hSource, -⟩ := hAppends.source (.inl (by simp [CollectionFact.isDraw, hType]))
    exact ⟨r, hr, Option.some.inj (hSource.symm.trans hRef)⟩
  · obtain ⟨r, hr, hSource, -⟩ := hAppends.reversal hType
    exact ⟨r, hr, Option.some.inj (hSource.symm.trans hRef)⟩

theorem LocatedLedger.order (h : LocatedLedger facts) : ∀ v ∈ facts, ∀ g ∈ facts, v.About g → g.orderId = v.orderId := by
  induction h with
  | nil => exact List.forall_mem_nil _
  | @cons f rest hAppends hLocated hRest ih =>
    intro v hv g hg hAbout
    obtain rfl | hvOld := List.mem_cons.mp hv
    · obtain rfl | hgOld := List.mem_cons.mp hg
      · obtain ⟨r, hr, hId⟩ := hAppends.about_mem hAbout
        exact absurd hId (hAppends.fresh r hr)
      · exact hLocated.order g hgOld hAbout
    · obtain rfl | hgOld := List.mem_cons.mp hg
      · exact absurd hAbout (hAppends.not_about hRest.wellFormed hvOld)
      · exact ih v hvOld g hgOld hAbout

def ofOrder (facts : List CollectionFact) (orderId : Nat) : List CollectionFact :=
  facts.filter fun f => f.orderId = orderId

theorem mem_ofOrder_iff {orderId : Nat} : f ∈ ofOrder facts orderId ↔ f ∈ facts ∧ f.orderId = orderId := by
  rw [ofOrder, List.mem_filter, decide_eq_true_eq]

theorem LocatedLedger.isReversed_ofOrder (h : LocatedLedger facts) (hg : g ∈ facts) :
    isReversed (ofOrder facts g.orderId) g.factId = isReversed facts g.factId := by
  rw [Bool.eq_iff_iff, isReversed, isReversed, List.any_eq_true, List.any_eq_true]
  constructor
  · rintro ⟨v, hv, hRef⟩
    exact ⟨v, (mem_ofOrder_iff.mp hv).1, hRef⟩
  · rintro ⟨v, hv, hRef⟩
    have hTarget : v.reversesFactId = some g.factId := of_decide_eq_true hRef
    have hType : v.factType = .reversal := by
      by_contra hOther
      rw [h.wellFormed.forward v hv hOther] at hTarget
      cases hTarget
    exact ⟨v, mem_ofOrder_iff.mpr ⟨hv, (h.order v hv g hg (.inr ⟨hType, hTarget⟩)).symm⟩, hRef⟩

theorem LocatedLedger.refundedMinor_ofOrder (h : LocatedLedger facts) (hg : g ∈ facts) :
    refundedMinor (ofOrder facts g.orderId) g.factId = refundedMinor facts g.factId := by
  rw [refundedMinor, activeTotal, ofOrder, total_filter]
  refine total_congr (fun r hr => ?_) fun _ _ _ => rfl
  rw [Bool.eq_iff_iff]
  simp only [activeFact, Bool.and_eq_true, decide_eq_true_eq]
  constructor
  · rintro ⟨hOrder, ⟨hType, hActive⟩, hRef⟩
    have hSame := h.isReversed_ofOrder hr
    rw [hOrder] at hSame
    rw [show (facts.filter fun f => f.orderId = g.orderId) = ofOrder facts g.orderId from rfl, hSame] at hActive
    exact ⟨⟨hType, hActive⟩, hRef⟩
  · rintro ⟨⟨hType, hActive⟩, hRef⟩
    have hOrder := (h.order r hr g hg (.inl ⟨hType, hRef⟩)).symm
    have hSame := h.isReversed_ofOrder hr
    rw [hOrder] at hSame
    refine ⟨hOrder, ⟨hType, ?_⟩, hRef⟩
    rw [show (facts.filter fun f => f.orderId = g.orderId) = ofOrder facts g.orderId from rfl, hSame]
    exact hActive

def CollectionFact.Moves (f : CollectionFact) : Prop :=
  f.factType = .reallocationIn ∨ f.factType = .reallocationOut

theorem CollectionFact.plain_of_stays (h : ¬f.Moves) :
    f.factType = .collection ∨ f.factType = .refund ∨ f.factType = .reversal := by
  rw [CollectionFact.Moves] at h
  cases hType : f.factType <;> simp_all

theorem CollectionFact.refund_of_stays (h : ¬f.Moves) (hDraw : f.isDraw = true ∨ f.factType = .reallocationIn) :
    f.factType = .refund := by
  obtain hDraw | hIn := hDraw
  · rw [CollectionFact.isDraw, Bool.or_eq_true, decide_eq_true_eq, decide_eq_true_eq] at hDraw
    exact hDraw.resolve_right fun hOut => h (.inr hOut)
  · exact absurd (.inl hIn) h

theorem LocatedLedger.ofOrder_direct (h : LocatedLedger facts) {orderId : Nat}
    (hPlain : ∀ f ∈ ofOrder facts orderId, ¬f.Moves) : DirectLedger (ofOrder facts orderId) := by
  induction h with
  | nil => exact .nil
  | @cons f rest hAppends hLocated hRest ih =>
    have hTail := ih fun g hg => hPlain g (mem_ofOrder_iff.mpr
      ⟨List.mem_cons_of_mem _ (mem_ofOrder_iff.mp hg).1, (mem_ofOrder_iff.mp hg).2⟩)
    by_cases hOrder : f.orderId = orderId
    case neg =>
      rw [ofOrder, List.filter_cons_of_neg (by simpa using hOrder)]
      exact hTail
    case pos =>
      subst hOrder
      have hOwn := hPlain f (mem_ofOrder_iff.mpr ⟨List.mem_cons_self, rfl⟩)
      rw [ofOrder, List.filter_cons_of_pos (by simp)]
      have hAt : ∀ g ∈ rest, f.About g → g ∈ ofOrder rest f.orderId ∧
          isReversed (ofOrder rest f.orderId) g.factId = isReversed rest g.factId ∧
          refundedMinor (ofOrder rest f.orderId) g.factId = refundedMinor rest g.factId := by
        intro g hg hAbout
        have hSame := hLocated.order g hg hAbout
        have hReversed := hRest.isReversed_ofOrder hg
        have hRefunded := hRest.refundedMinor_ofOrder hg
        rw [hSame] at hReversed hRefunded
        exact ⟨mem_ofOrder_iff.mpr ⟨hg, hSame⟩, hReversed, hRefunded⟩
      have hShare : ∀ g ∈ ofOrder rest f.orderId, g.isShare = true → g.factType = .collection := by
        intro g hg hShare
        have hKeep := hPlain g (mem_ofOrder_iff.mpr ⟨List.mem_cons_of_mem _ (mem_ofOrder_iff.mp hg).1, (mem_ofOrder_iff.mp hg).2⟩)
        rw [CollectionFact.isShare, Bool.or_eq_true, decide_eq_true_eq, decide_eq_true_eq] at hShare
        exact hShare.resolve_right fun hIn => hKeep (.inl hIn)
      refine .cons ?_ ?_ hTail
      · constructor
        case fresh => exact fun g hg => hAppends.fresh g (mem_ofOrder_iff.mp hg).1
        case positive => exact hAppends.positive
        case net => exact hAppends.net
        case root => exact hAppends.root
        case forward => exact hAppends.forward
        case source =>
          intro hDraw
          obtain ⟨g, hg, hRef, hIs⟩ := hAppends.source hDraw
          exact ⟨g, (hAt g hg (.inl ⟨CollectionFact.refund_of_stays hOwn hDraw, hRef⟩)).1, hRef, hIs⟩
        case reversal =>
          intro hType
          obtain ⟨g, hg, hRef, hKind, hUnreversed, hBack⟩ := hAppends.reversal hType
          obtain ⟨hMem, hReversed, -⟩ := hAt g hg (.inr ⟨hType, hRef⟩)
          exact ⟨g, hMem, hRef, hKind, hReversed.trans hUnreversed, hBack⟩
      · constructor
        case plain => exact CollectionFact.plain_of_stays hOwn
        case refund =>
          intro hType
          obtain ⟨g, hg, hRef, hIs⟩ := hAppends.source (.inl (by simp [CollectionFact.isDraw, hType]))
          obtain ⟨hMem, hReversed, hRefunded⟩ := hAt g hg (.inl ⟨hType, hRef⟩)
          obtain ⟨hUnreversed, hFits⟩ := hLocated.refund hType g hg hRef
          exact ⟨g, hMem, hRef, hShare g hMem hIs, hReversed.trans hUnreversed, hRefunded.symm ▸ hFits⟩
        case reversal =>
          intro hType
          obtain ⟨g, hg, hRef, hKind, hUnreversed, hBack⟩ := hAppends.reversal hType
          obtain ⟨hMem, hReversed, hRefunded⟩ := hAt g hg (.inr ⟨hType, hRef⟩)
          obtain ⟨hNone, hTarget⟩ := hLocated.reversal hType
          obtain ⟨hAmount, hUnrefunded⟩ := hTarget g hg hRef
          exact ⟨hNone, g, hMem, hRef, hKind, hReversed.trans hUnreversed, hAmount, hBack,
            fun hCollection => hRefunded.trans (hUnrefunded hCollection)⟩

/-! ## What the commands write -/

theorem Located.moved {rest : List CollectionFact} (h : f.factType = .reallocationIn ∨ f.factType = .reallocationOut) :
    Located rest f := by
  have hOther : f.factType ≠ .refund ∧ f.factType ≠ .reversal := by rcases h with h | h <;> simp [h]
  exact ⟨fun g _ hAbout => hAbout.elim (fun hAbout => absurd hAbout.1 hOther.1) fun hAbout => absurd hAbout.1 hOther.2,
    fun hType => absurd hType hOther.1, fun hType => absurd hType hOther.2⟩

namespace FundsTables

variable {t t' : FundsTables} {desk : PaymentDesk} {stamp : FundsStamp} {orderId : Nat} {amountMinor : Int}

def Sourced (t : FundsTables) : Prop :=
  ∀ lot ∈ t.retainedFunds, ∃ g ∈ t.facts, g.factId = lot.sourceFactId ∧ g.orderId = lot.sourceOrderId

/-- A fact in the order of the fact that it is about; a reversal names that fact alone, with its amount. -/
structure Within (t : FundsTables) (f : CollectionFact) : Prop where
  order : ∀ g ∈ t.facts, f.About g → g.orderId = f.orderId
  reversal : f.factType = .reversal → f.referencesFactId = none ∧
    ∀ g ∈ t.facts, f.reversesFactId = some g.factId → f.amountMinor = g.amountMinor

/-- A command writes no fact, one within its order, or a move from one order to another. -/
inductive Writes (t t' : FundsTables) : Prop
  | none (hFacts : t'.facts = t.facts)
  | one (f : CollectionFact) (hFacts : t'.facts = f :: t.facts) (hWithin : t.Within f)
  | moved (out moved : CollectionFact) (hFacts : t'.facts = moved :: out :: t.facts) (hOut : out.factType = .reallocationOut)
      (hIn : moved.factType = .reallocationIn)

theorem Within.collection (h : f.factType = .collection) : t.Within f where
  order g _ hAbout := by
    obtain ⟨hType, -⟩ | ⟨hType, -⟩ := hAbout
    all_goals
      rw [h] at hType
      cases hType
  reversal hType := by
    rw [h] at hType
    cases hType

theorem Within.refund (hKeys : (t.facts.map CollectionFact.factId).Nodup) (hg : g ∈ t.facts) (h : f.factType = .refund)
    (hRef : f.referencesFactId = some g.factId) (hOrder : g.orderId = f.orderId) : t.Within f where
  order r hr hAbout := by
    obtain ⟨-, hSame⟩ | ⟨hType, -⟩ := hAbout
    · obtain rfl := List.inj_on_of_nodup_map hKeys hr hg (Option.some.inj (hSame.symm.trans hRef))
      exact hOrder
    · rw [h] at hType
      cases hType
  reversal hType := by
    rw [h] at hType
    cases hType

theorem Within.reverse (hKeys : (t.facts.map CollectionFact.factId).Nodup) (hg : g ∈ t.facts)
    (h : f.factType = .reversal) (hRef : f.reversesFactId = some g.factId) (hOrder : g.orderId = f.orderId)
    (hNone : f.referencesFactId = none) (hAmount : f.amountMinor = g.amountMinor) : t.Within f where
  order r hr hAbout := by
    obtain ⟨hType, -⟩ | ⟨-, hSame⟩ := hAbout
    · rw [h] at hType
      cases hType
    · obtain rfl := List.inj_on_of_nodup_map hKeys hr hg (Option.some.inj (hSame.symm.trans hRef))
      exact hOrder
  reversal _ := by
    refine ⟨hNone, fun r hr hSame => ?_⟩
    obtain rfl := List.inj_on_of_nodup_map hKeys hr hg (Option.some.inj (hSame.symm.trans hRef))
    exact hAmount

theorem Ok.run_writes (h : t.Ok) (hSourced : t.Sourced) {command : FundsCommand}
    (hRun : t.run desk stamp command = .ok t') : t.Writes t' := by
  cases command with
  | recordCollection =>
    simp only [FundsTables.run, FundsTables.recordCollection, bind_eq_ok] at hRun
    obtain ⟨_, -, _, -, _, -, _, -, hInsert⟩ := hRun
    obtain ⟨rfl, -⟩ := insertFact_eq_ok hInsert
    exact .one _ rfl (.collection rfl)
  | recordRefund =>
    simp only [FundsTables.run, FundsTables.recordRefund, bind_eq_ok, require_eq_ok, expect_eq_ok] at hRun
    obtain ⟨_, -, _, -, _, -, original, hFind, _, hOrder, _, -, _, -, _, -, _, -, _, -, _, -, hInsert⟩ := hRun
    obtain ⟨rfl, -⟩ := insertFact_eq_ok hInsert
    obtain ⟨hMem, rfl⟩ := mem_of_findFact hFind
    exact .one _ rfl (.refund h.ledger.keys hMem rfl rfl hOrder)
  | reverseFact =>
    simp only [FundsTables.run, FundsTables.reverseFact, bind_eq_ok, require_eq_ok, expect_eq_ok] at hRun
    obtain ⟨_, -, original, hFind, _, hOrder, _, -, _, -, _, -, hInsert⟩ := hRun
    obtain ⟨rfl, -⟩ := insertFact_eq_ok hInsert
    obtain ⟨hMem, rfl⟩ := mem_of_findFact hFind
    exact .one _ rfl (.reverse h.ledger.keys hMem rfl rfl hOrder rfl rfl)
  | retainOrderFunds =>
    simp only [FundsTables.run, FundsTables.retainOrderFunds, bind_eq_ok, pure_eq_ok] at hRun
    obtain ⟨_, -, _, -, _, -, _, -, _, -, _, -, _, -, _, -, _, -, _, -, _, -, rfl⟩ := hRun
    exact .none rfl
  | applyRetainedFunds =>
    obtain ⟨out, moved, hFacts, hOut, hIn, -⟩ := applyRetainedFunds_facts hRun
    exact .moved out moved hFacts hOut hIn
  | releaseRetainedFunds =>
    simp only [FundsTables.run, FundsTables.releaseRetainedFunds, bind_eq_ok, pure_eq_ok] at hRun
    obtain ⟨_, -, _, -, _, -, rfl⟩ := hRun
    exact .none rfl
  | refundRetainedFunds =>
    simp only [FundsTables.run, FundsTables.refundRetainedFunds, bind_eq_ok, require_eq_ok, pure_eq_ok] at hRun
    obtain ⟨⟨order, lot⟩, hOpen, _, -, _, -, refunded, hInsert, rfl⟩ := hRun
    obtain ⟨source, hOpened⟩ := openLot_eq_ok hOpen
    obtain ⟨rfl, -⟩ := insertFact_eq_ok hInsert
    obtain ⟨g, hg, hId, hOrder⟩ := hSourced lot hOpened.lot_mem
    exact .one _ rfl (.refund h.ledger.keys hg rfl (congrArg some hId.symm) hOrder)

theorem Writes.mem (h : t.Writes t') (hg : g ∈ t.facts) : g ∈ t'.facts := by
  cases h with
  | none hFacts => exact hFacts ▸ hg
  | one f hFacts => exact hFacts ▸ List.mem_cons_of_mem _ hg
  | moved out moved hFacts => exact hFacts ▸ List.mem_cons_of_mem _ (List.mem_cons_of_mem _ hg)

theorem retainedFunds_run {command : FundsCommand} (hRun : t.run desk stamp command = .ok t') :
    ∀ lot ∈ t'.retainedFunds, lot ∈ t.retainedFunds ∨
      ∃ g ∈ t.facts, g.factId = lot.sourceFactId ∧ g.orderId = lot.sourceOrderId := by
  cases command with
  | retainOrderFunds orderId amountMinor sourceFactId ownerName ownerContact =>
    simp only [run, FundsTables.retainOrderFunds, bind_eq_ok, require_eq_ok, pure_eq_ok] at hRun
    obtain ⟨_, -, _, -, _, -, _, -, source, hSource, _, -, _, ⟨hOrder, -⟩, _, -, _, -, _, -, _, -, rfl⟩ := hRun
    obtain ⟨hMem, -, -⟩ := fundingSource_eq_ok hSource
    exact List.forall_mem_cons.mpr ⟨.inr ⟨source, hMem, rfl, hOrder⟩, fun _ hLot => .inl hLot⟩
  | recordCollection =>
    simp only [run, FundsTables.recordCollection, bind_eq_ok] at hRun
    obtain ⟨_, -, _, -, _, -, _, -, hInsert⟩ := hRun
    obtain ⟨rfl, -⟩ := insertFact_eq_ok hInsert
    exact fun _ => .inl
  | recordRefund =>
    simp only [run, FundsTables.recordRefund, bind_eq_ok] at hRun
    obtain ⟨_, -, _, -, _, -, _, -, _, -, _, -, _, -, _, -, _, -, _, -, _, -, hInsert⟩ := hRun
    obtain ⟨rfl, -⟩ := insertFact_eq_ok hInsert
    exact fun _ => .inl
  | reverseFact =>
    simp only [run, FundsTables.reverseFact, bind_eq_ok] at hRun
    obtain ⟨_, -, _, -, _, -, _, -, _, -, _, -, hInsert⟩ := hRun
    obtain ⟨rfl, -⟩ := insertFact_eq_ok hInsert
    exact fun _ => .inl
  | applyRetainedFunds =>
    simp only [run, FundsTables.applyRetainedFunds, bind_eq_ok, pure_eq_ok] at hRun
    obtain ⟨⟨order, lot⟩, -, _, -, _, -, _, -, out, hOut, moved, hIn, rfl⟩ := hRun
    obtain ⟨rfl, -⟩ := insertFact_eq_ok hOut
    obtain ⟨rfl, -⟩ := insertFact_eq_ok hIn
    exact fun _ => .inl
  | releaseRetainedFunds =>
    simp only [run, FundsTables.releaseRetainedFunds, bind_eq_ok, pure_eq_ok] at hRun
    obtain ⟨_, -, _, -, _, -, rfl⟩ := hRun
    exact fun _ => .inl
  | refundRetainedFunds =>
    simp only [run, FundsTables.refundRetainedFunds, bind_eq_ok, pure_eq_ok] at hRun
    obtain ⟨_, -, _, -, _, -, _, hInsert, rfl⟩ := hRun
    obtain ⟨rfl, -⟩ := insertFact_eq_ok hInsert
    exact fun _ => .inl

theorem Sourced.run (h : t.Sourced) (hWrites : t.Writes t') {command : FundsCommand}
    (hRun : t.run desk stamp command = .ok t') : t'.Sourced := by
  intro lot hLot
  obtain ⟨g, hg, hSource⟩ : ∃ g ∈ t.facts, g.factId = lot.sourceFactId ∧ g.orderId = lot.sourceOrderId := by
    obtain hOld | hNew := retainedFunds_run hRun lot hLot
    · exact h lot hOld
    · exact hNew
  exact ⟨g, hWrites.mem hg, hSource⟩

theorem Ok.located (h : t'.Ok) (hFacts : t'.facts = f :: t.facts) (hWithin : t.Within f) : Located t.facts f := by
  have hWf := h.ledger
  have hCovered := h.covered
  have hClean := h.clean
  rw [hFacts] at hWf hCovered hClean
  obtain _ | ⟨hAppends, hRest⟩ := hWf
  have hNext := WellFormed.cons hAppends hRest
  refine ⟨hWithin.order, fun hType g hg hRef => ?_, fun hType => ⟨(hWithin.reversal hType).1, fun g hg hRef => ?_⟩⟩
  · have hShare : g.isShare = true := by
      obtain ⟨r, hr, hSource, hShare⟩ := hAppends.source (.inl (by simp [CollectionFact.isDraw, hType]))
      obtain rfl := List.inj_on_of_nodup_map hRest.keys hg hr (Option.some.inj (hRef.symm.trans hSource))
      exact hShare
    have hMem := List.mem_cons_of_mem f hg
    have hDrawn := refundedMinor_append hAppends hRest (by simp [hType]) g.factId
    have hReserved := h.reserved_nonneg g.factId
    have hMoved := hNext.moved_nonneg .reallocationOut g.factId
    have hBefore := hRest.refunded_nonneg g.factId
    have hLeft := hCovered g hMem hShare
    have hPositive := hAppends.positive
    rw [balanceMinor, transferredMinor] at hLeft
    simp only [hType, hRef, decide_true, Bool.and_self, if_true] at hDrawn
    refine ⟨?_, by omega⟩
    by_contra hReversed
    rw [Bool.not_eq_false] at hReversed
    obtain ⟨hWhole, -⟩ := hClean g hMem hShare ((hAppends.isReversed_same (by simp [hType]) _).trans hReversed)
    rw [balanceMinor, transferredMinor] at hWhole
    omega
  · refine ⟨(hWithin.reversal hType).2 g hg hRef, fun hCollection => ?_⟩
    obtain ⟨r, hr, hSource, -, hUnreversed, -⟩ := hAppends.reversal hType
    obtain rfl := List.inj_on_of_nodup_map hRest.keys hg hr (Option.some.inj (hRef.symm.trans hSource))
    have hSame := refundedMinor_reversal hRest hType hg hRef hUnreversed g.factId
    obtain ⟨hWhole, -⟩ := hClean g (List.mem_cons_of_mem _ hg) (by simp [CollectionFact.isShare, hCollection])
      (by simp [isReversed_reversal hRef])
    have hMoved := hNext.moved_nonneg .reallocationOut g.factId
    have hRefunded := hNext.refunded_nonneg g.factId
    simp only [hCollection, reduceCtorEq, decide_false, Bool.false_and, Bool.false_eq_true, if_false] at hSame
    rw [balanceMinor, transferredMinor] at hWhole
    omega

theorem LocatedLedger.run (h : LocatedLedger t.facts) (hOk : t'.Ok) (hWrites : t.Writes t') : LocatedLedger t'.facts := by
  have hWf := hOk.ledger
  cases hWrites with
  | none hFacts => exact hFacts ▸ h
  | one f hFacts hWithin =>
    rw [hFacts] at hWf ⊢
    obtain _ | ⟨hAppends, -⟩ := hWf
    exact .cons hAppends (hOk.located hFacts hWithin) h
  | moved out moved hFacts hOut hIn =>
    rw [hFacts] at hWf ⊢
    obtain _ | ⟨hMoved, hWf⟩ := hWf
    obtain _ | ⟨hAppends, -⟩ := hWf
    exact .cons hMoved (.moved (.inl hIn)) (.cons hAppends (.moved (.inr hOut)) h)

end FundsTables

end GreenPms
