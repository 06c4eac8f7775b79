import GreenPms.Funds.Attention
import GreenPms.Funds.Conservation

/-! # The replay accepts what the commands write

On facts that are collections, refunds and reversals alone the replay keeps, for each collection, the
refunds in force that the commands compute, and so passes every check that they have passed.
-/

namespace GreenPms

open Checked Totals

/-- A collection, a refund or a reversal, with what was checked of it against the earlier facts. -/
structure Direct (rest : List CollectionFact) (f : CollectionFact) : Prop where
  plain : f.factType = .collection ∨ f.factType = .refund ∨ f.factType = .reversal
  refund : f.factType = .refund → ∃ g ∈ rest, f.referencesFactId = some g.factId ∧ g.factType = .collection ∧
    isReversed rest g.factId = false ∧ refundedMinor rest g.factId + f.amountMinor ≤ g.amountMinor
  reversal : f.factType = .reversal → f.referencesFactId = none ∧ ∃ g ∈ rest, f.reversesFactId = some g.factId ∧
    (g.factType = .collection ∨ g.factType = .refund) ∧ isReversed rest g.factId = false ∧
    f.amountMinor = g.amountMinor ∧ f.netEffectMinor = -g.netEffectMinor ∧
    (g.factType = .collection → refundedMinor rest g.factId = 0)

inductive DirectLedger : List CollectionFact → Prop
  | nil : DirectLedger []
  | cons {f : CollectionFact} {rest : List CollectionFact} : Appends rest f → Direct rest f → DirectLedger rest →
      DirectLedger (f :: rest)

variable {facts rest : List CollectionFact} {f g : CollectionFact}

theorem DirectLedger.wellFormed (h : DirectLedger facts) : WellFormed facts := by
  induction h with
  | nil => exact .nil
  | cons hAppends _ _ ih => exact .cons hAppends ih

theorem WellFormed.forward (h : WellFormed facts) : ∀ f ∈ facts, f.factType ≠ .reversal → f.reversesFactId = none := by
  induction h with
  | nil => exact List.forall_mem_nil _
  | cons hAppends _ ih => exact List.forall_mem_cons.mpr ⟨hAppends.forward, ih⟩

theorem DirectLedger.plain (h : DirectLedger facts) : ∀ f ∈ facts,
    f.factType = .collection ∨ f.factType = .refund ∨ f.factType = .reversal := by
  induction h with
  | nil => exact List.forall_mem_nil _
  | cons _ hDirect _ ih => exact List.forall_mem_cons.mpr ⟨hDirect.plain, ih⟩

theorem DirectLedger.net_abs (h : DirectLedger facts) :
    ∀ f ∈ facts, f.netEffectMinor = f.amountMinor ∨ f.netEffectMinor = -f.amountMinor := by
  induction h with
  | nil => exact List.forall_mem_nil _
  | @cons f rest hAppends hDirect _ ih =>
    refine List.forall_mem_cons.mpr ⟨?_, ih⟩
    have hNet := hAppends.net
    rw [CollectionFact.NetOk] at hNet
    obtain hType | hType | hType := hDirect.plain
    · rw [hType] at hNet
      exact .inl hNet
    · rw [hType] at hNet
      exact .inr hNet
    · obtain ⟨-, g, hg, -, -, -, hAmount, hBack, -⟩ := hDirect.reversal hType
      have hSource := ih g hg
      omega

/-! ## The refunds of a collection -/

theorem refundedMinor_append (hAppends : Appends rest f) (h : WellFormed rest) (hType : f.factType ≠ .reversal)
    (factId : Nat) : refundedMinor (f :: rest) factId =
      (if f.factType = .refund && f.referencesFactId = some factId then f.amountMinor else 0) +
        refundedMinor rest factId :=
  activeTotal_append hAppends h hType ..

theorem refundedMinor_reversal (h : WellFormed rest) (hType : f.factType = .reversal) (hg : g ∈ rest)
    (hRef : f.reversesFactId = some g.factId) (hUnreversed : isReversed rest g.factId = false) (factId : Nat) :
    refundedMinor (f :: rest) factId = refundedMinor rest factId -
      if g.factType = .refund && g.referencesFactId = some factId then g.amountMinor else 0 :=
  activeTotal_reversal h hType hg hRef hUnreversed (by decide) _

theorem refundedMinor_fresh (h : WellFormed facts) (hFresh : ∀ g ∈ facts, g.factId ≠ f.factId) :
    refundedMinor facts f.factId = 0 := by
  have hBalance := h.balance_fresh hFresh
  have hRefunded := h.refunded_nonneg f.factId
  have hMoved := h.moved_nonneg .reallocationOut f.factId
  rw [balanceMinor, transferredMinor] at hBalance
  omega

theorem DirectLedger.bounded (h : DirectLedger facts) : ∀ c ∈ facts, c.factType = .collection →
    refundedMinor facts c.factId ≤ c.amountMinor ∧
      (isReversed facts c.factId = true → refundedMinor facts c.factId = 0) := by
  induction h with
  | nil => exact List.forall_mem_nil _
  | @cons f rest hAppends hDirect hRest ih =>
    have hWf := hRest.wellFormed
    intro c hc hCollection
    obtain rfl | hOld := List.mem_cons.mp hc
    · have hNone := refundedMinor_append hAppends hWf (by simp [hCollection]) c.factId
      rw [refundedMinor_fresh hWf hAppends.fresh] at hNone
      have hPositive := hAppends.positive
      simp only [hCollection, reduceCtorEq, decide_false, Bool.false_and, Bool.false_eq_true, if_false] at hNone
      omega
    · obtain ⟨hLimit, hClean⟩ := ih c hOld hCollection
      obtain hType | hType | hType := hDirect.plain
      case inl =>
        rw [refundedMinor_append hAppends hWf (by simp [hType]), hAppends.isReversed_same (by simp [hType])]
        simpa [hType] using ⟨hLimit, hClean⟩
      case inr.inl =>
        rw [refundedMinor_append hAppends hWf (by simp [hType]), hAppends.isReversed_same (by simp [hType])]
        obtain ⟨g, hg, hRef, -, hUnreversed, hFits⟩ := hDirect.refund hType
        by_cases hSame : g.factId = c.factId
        · obtain rfl := List.inj_on_of_nodup_map hWf.keys hg hOld hSame
          simp only [hType, hRef, decide_true, Bool.and_self, if_true, hUnreversed]
          exact ⟨by omega, nofun⟩
        · simpa [hRef, hSame] using ⟨hLimit, hClean⟩
      case inr.inr =>
        obtain ⟨-, g, hg, hRef, hKind, hUnreversed, -, -, hUnrefunded⟩ := hDirect.reversal hType
        have hNext := refundedMinor_reversal hWf hType hg hRef hUnreversed c.factId
        have hNonneg := (WellFormed.cons hAppends hWf).refunded_nonneg c.factId
        have hPositive := hWf.positive g hg
        refine ⟨by split at hNext <;> omega, fun hNow => ?_⟩
        rw [isReversed_reversal hRef, Bool.or_eq_true, decide_eq_true_eq] at hNow
        obtain hSame | hBefore := hNow
        · obtain rfl := List.inj_on_of_nodup_map hWf.keys hOld hg hSame
          have hNone := hUnrefunded hCollection
          split at hNext <;> omega
        · have hNone := hClean hBefore
          split at hNext <;> omega

theorem DirectLedger.refund_source (h : DirectLedger facts) (hg : g ∈ facts) (hType : g.factType = .refund) :
    ∃ c ∈ facts, g.referencesFactId = some c.factId ∧ c.factType = .collection := by
  induction h with
  | nil => cases hg
  | cons _ hDirect _ ih =>
    obtain rfl | hOld := List.mem_cons.mp hg
    · obtain ⟨c, hc, hRef, hKind, -⟩ := hDirect.refund hType
      exact ⟨c, List.mem_cons_of_mem _ hc, hRef, hKind⟩
    · obtain ⟨c, hc, hRef, hKind⟩ := ih hOld
      exact ⟨c, List.mem_cons_of_mem _ hc, hRef, hKind⟩

theorem DirectLedger.no_moves (h : DirectLedger facts) : movedTotal facts .reallocationIn = 0 ∧
    movedTotal facts .reallocationOut = 0 := by
  constructor
  · refine total_eq_zero fun f hf hType => ?_
    have hPlain := h.plain f hf
    simp_all
  · refine total_eq_zero fun f hf hType => ?_
    have hPlain := h.plain f hf
    simp_all

theorem DirectLedger.activeRefunds_eq (h : DirectLedger facts) :
    total CollectionFact.isShare (fun c => refundedMinor facts c.factId) facts = activeRefunds facts := by
  have hDraws : ∀ r ∈ facts, activeFact facts .refund r = true → r.isDraw = true ∨ r.factType = .reallocationIn := by
    intro r _ hr
    rw [activeFact, Bool.and_eq_true, decide_eq_true_eq] at hr
    exact .inl (by simp [CollectionFact.isDraw, hr.1])
  have hShares := draws_of_shares h.wellFormed hDraws fun _ => true
  simp only [Bool.and_true] at hShares
  refine hShares.trans (total_congr (fun r hr => ?_) fun _ _ _ => rfl)
  cases hActive : activeFact facts .refund r with
  | false => rfl
  | true =>
    obtain ⟨a, hRef, -⟩ := h.wellFormed.source hr (hDraws r hr hActive)
    simp [hRef]

theorem DirectLedger.net_nonneg (h : DirectLedger facts) : 0 ≤ netMinor facts := by
  have hHeld : total CollectionFact.isShare (fun c => refundedMinor facts c.factId) facts ≤ activeCollections facts := by
    refine total_le fun c hc => ?_
    obtain hType | hType | hType := h.plain c hc
    · obtain ⟨hLimit, hClean⟩ := h.bounded c hc hType
      cases hReversed : isReversed facts c.factId with
      | false => simpa [CollectionFact.isShare, activeFact, hType, hReversed] using hLimit
      | true => simp [CollectionFact.isShare, activeFact, hType, hReversed, hClean hReversed]
    · simp [CollectionFact.isShare, activeFact, hType]
    · simp [CollectionFact.isShare, activeFact, hType]
  obtain ⟨hIn, hOut⟩ := h.no_moves
  have hNet := h.wellFormed.net_eq
  rw [h.activeRefunds_eq] at hHeld
  omega

/-! ## The replay -/

structure Scanned (rest : List CollectionFact) (scan : MoneyScan) : Prop where
  active : ∀ c ∈ rest, c.factType = .collection →
    scan.activeRefundMinorByCollection c.factId = some (refundedMinor rest c.factId)
  untouched : ∀ factId, (∀ g ∈ rest, g.factId ≠ factId) → scan.activeRefundMinorByCollection factId = none
  reversed : ∀ factId, factId ∈ scan.reversedFactIds ↔ isReversed rest factId = true
  processed : ∀ factId, factId ∈ scan.processedFactIds ↔ ∃ g ∈ rest, g.factId = factId

theorem Scanned.start : Scanned [] MoneyScan.start where
  active := List.forall_mem_nil _
  untouched _ _ := rfl
  reversed _ := by simp [MoneyScan.start, isReversed]
  processed _ := by simp [MoneyScan.start]

variable {s : LodgingLedger} {rows : List LodgingFact} {scan : MoneyScan}

def Looks (s : LodgingLedger) (rows : List LodgingFact) (facts : List CollectionFact) : Prop :=
  ∀ g ∈ facts, MoneyScan.factById rows (some g.factId) = some (s.lodgingFact g)

theorem processed_cons (hScan : Scanned rest scan) (factId : Nat) :
    factId ∈ f.factId :: scan.processedFactIds ↔ ∃ g ∈ f :: rest, g.factId = factId := by
  rw [List.mem_cons, hScan.processed, List.exists_mem_cons_iff, eq_comm]

theorem Scanned.collection (hScan : Scanned rest scan) (hAppends : Appends rest f) (hRest : DirectLedger rest)
    (hType : f.factType = .collection) : ∃ next, scan.collection (s.lodgingFact f) = .ok next ∧
      Scanned (f :: rest) next := by
  have hNet := hAppends.net
  rw [CollectionFact.NetOk, hType] at hNet
  have hSame := refundedMinor_append hAppends hRest.wellFormed (by simp [hType])
  simp only [hType, reduceCtorEq, decide_false, Bool.false_and, Bool.false_eq_true, if_false, Int.zero_add] at hSame
  refine ⟨_, bind_eq_ok.mpr ⟨(), require_eq_ok.mpr ⟨hNet, hAppends.root hType, hAppends.forward (by simp [hType]),
    hScan.untouched f.factId hAppends.fresh⟩, rfl⟩, ?_⟩
  constructor
  case active =>
    intro c hc hCollection
    rw [hSame]
    obtain rfl | hOld := List.mem_cons.mp hc
    · rw [refundedMinor_fresh hRest.wellFormed hAppends.fresh]
      exact Function.update_self ..
    · exact (Function.update_of_ne (hAppends.fresh c hOld) ..).trans (hScan.active c hOld hCollection)
  case untouched =>
    intro factId hOther
    obtain ⟨hHead, hTail⟩ := List.forall_mem_cons.mp hOther
    exact (Function.update_of_ne (Ne.symm hHead) ..).trans (hScan.untouched factId hTail)
  case reversed =>
    intro factId
    rw [hAppends.isReversed_same (by simp [hType])]
    exact hScan.reversed factId
  case processed => exact processed_cons hScan

theorem Scanned.refund (hScan : Scanned rest scan) (hLooks : Looks s rows rest) (hAppends : Appends rest f)
    (hDirect : Direct rest f) (hRest : DirectLedger rest) (hType : f.factType = .refund)
    (hColumns : ∀ g ∈ rest, g.amountMinor ≤ postgresIntegerMaximum) :
    ∃ next, scan.refund rows (s.lodgingFact f) = .ok next ∧ Scanned (f :: rest) next := by
  obtain ⟨g, hg, hRef, hKind, hUnreversed, hFits⟩ := hDirect.refund hType
  have hWf := hRest.wellFormed
  have hNet := hAppends.net
  rw [CollectionFact.NetOk, hType] at hNet
  have hNext := refundedMinor_append hAppends hWf (by simp [hType])
  have hActive := hScan.active g hg hKind
  have hNonneg := hWf.refunded_nonneg g.factId
  have hPositive := hAppends.positive
  have hSource : MoneyScan.factById rows (s.lodgingFact f).referencesFactId = some (s.lodgingFact g) :=
    (congrArg _ hRef).trans (hLooks g hg)
  have hLimit := hColumns g hg
  have hSafe : isSafeInteger (refundedMinor rest g.factId + f.amountMinor) = true :=
    isSafeInteger_of_column (by rw [postgresIntegerMaximum]; omega) (by omega)
  have hPassed : g.factId ∉ scan.reversedFactIds := by
    rw [hScan.reversed, hUnreversed]
    exact Bool.false_ne_true
  refine ⟨_, bind_eq_ok.mpr ⟨_, expect_eq_ok.mpr hSource, bind_eq_ok.mpr ⟨_, expect_eq_ok.mpr hActive,
    bind_eq_ok.mpr ⟨(), require_eq_ok.mpr ⟨hNet, hAppends.forward (by simp [hType]), hKind,
      (hScan.processed _).mpr ⟨g, hg, rfl⟩, hPassed, hSafe, hFits⟩, rfl⟩⟩⟩, ?_⟩
  constructor
  case active =>
    intro c hc hCollection
    obtain rfl | hOld := List.mem_cons.mp hc
    · rw [hType] at hCollection
      cases hCollection
    · rw [hNext]
      by_cases hSame : c.factId = g.factId
      · rw [hSame, hType, hRef]
        simp only [decide_true, Bool.and_self, if_true]
        rw [Int.add_comm]
        exact Function.update_self ..
      · simp only [hRef, Option.some.injEq, Ne.symm hSame, decide_false, Bool.and_false, Bool.false_eq_true, if_false,
          Int.zero_add]
        exact (Function.update_of_ne hSame ..).trans (hScan.active c hOld hCollection)
  case untouched =>
    intro factId hOther
    obtain ⟨-, hTail⟩ := List.forall_mem_cons.mp hOther
    exact (Function.update_of_ne (Ne.symm (hTail g hg)) ..).trans (hScan.untouched factId hTail)
  case reversed =>
    intro factId
    rw [hAppends.isReversed_same (by simp [hType])]
    exact hScan.reversed factId
  case processed => exact processed_cons hScan

theorem Scanned.giveBack (hScan : Scanned rest scan) (hLooks : Looks s rows rest) (hAppends : Appends rest f)
    (hDirect : Direct rest f) (hRest : DirectLedger rest) (hType : f.factType = .reversal) (hg : g ∈ rest)
    (hRef : f.reversesFactId = some g.factId) (hColumns : ∀ g ∈ rest, g.amountMinor ≤ postgresIntegerMaximum) :
    ∃ active, scan.giveBack rows (s.lodgingFact g) = .ok active ∧
      (∀ c ∈ rest, c.factType = .collection → active c.factId = some (refundedMinor (f :: rest) c.factId)) ∧
      ∀ factId, (∀ c ∈ rest, c.factId ≠ factId) → active factId = none := by
  obtain ⟨-, r, hr, hSource, hKind, hUnreversed, -, -, hUnrefunded⟩ := hDirect.reversal hType
  have hWf := hRest.wellFormed
  obtain rfl : r = g := List.inj_on_of_nodup_map hWf.keys hr hg (Option.some.inj (hSource.symm.trans hRef))
  have hNext := refundedMinor_reversal hWf hType hr hRef hUnreversed
  rw [MoneyScan.giveBack]
  obtain hCollection | hRefund := hKind
  · rw [if_neg (show (s.lodgingFact r).factType ≠ .refund from fun hSame => by
      rw [show (s.lodgingFact r).factType = .collection from hCollection] at hSame
      cases hSame)]
    have hActive := hScan.active r hr hCollection
    rw [hUnrefunded hCollection] at hActive
    refine ⟨_, bind_eq_ok.mpr ⟨(), require_eq_ok.mpr hActive, rfl⟩, fun c hc hKind => ?_, hScan.untouched⟩
    rw [hScan.active c hc hKind, hNext, hCollection]
    simp
  · rw [if_pos (show (s.lodgingFact r).factType = .refund from hRefund)]
    obtain ⟨c, hc, hOf, hKind⟩ := hRest.refund_source hr hRefund
    have hFound : MoneyScan.factById rows (s.lodgingFact r).referencesFactId = some (s.lodgingFact c) :=
      (congrArg _ hOf).trans (hLooks c hc)
    have hLess := hNext c.factId
    rw [hRefund, hOf] at hLess
    simp only [decide_true, Bool.and_self, if_true] at hLess
    have hNonneg := (WellFormed.cons hAppends hWf).refunded_nonneg c.factId
    have hLimit := (hRest.bounded c hc hKind).1
    have hColumn := hColumns c hc
    have hPositive := hWf.positive r hr
    have hSafe : isSafeInteger (refundedMinor rest c.factId - r.amountMinor) = true :=
      isSafeInteger_of_column (by rw [postgresIntegerMaximum]; omega) (by omega)
    refine ⟨_, bind_eq_ok.mpr ⟨_, expect_eq_ok.mpr hFound, bind_eq_ok.mpr ⟨_,
      expect_eq_ok.mpr (hScan.active c hc hKind), bind_eq_ok.mpr ⟨(), require_eq_ok.mpr ⟨hKind, hSafe, ?_⟩, rfl⟩⟩⟩,
      fun d hd hOther => ?_, fun factId hOther => ?_⟩
    · change 0 ≤ refundedMinor rest c.factId - r.amountMinor
      omega
    · by_cases hSame : d.factId = c.factId
      · rw [hSame, hLess]
        exact Function.update_self ..
      · refine (Function.update_of_ne hSame ..).trans ?_
        rw [hScan.active d hd hOther, hNext, hOf]
        simp [Ne.symm hSame]
    · exact (Function.update_of_ne (Ne.symm (hOther c hc)) ..).trans (hScan.untouched factId hOther)

theorem Scanned.reversal (hScan : Scanned rest scan) (hLooks : Looks s rows rest) (hAppends : Appends rest f)
    (hDirect : Direct rest f) (hRest : DirectLedger rest) (hType : f.factType = .reversal)
    (hColumns : ∀ g ∈ rest, g.amountMinor ≤ postgresIntegerMaximum) :
    ∃ next, scan.reversal rows (s.lodgingFact f) = .ok next ∧ Scanned (f :: rest) next := by
  obtain ⟨hNone, g, hg, hRef, hKind, hUnreversed, hAmount, hBack, -⟩ := hDirect.reversal hType
  obtain ⟨active, hGiven, hActive, hUntouched⟩ := hScan.giveBack hLooks hAppends hDirect hRest hType hg hRef hColumns
  have hSource : MoneyScan.factById rows (s.lodgingFact f).reversesFactId = some (s.lodgingFact g) :=
    (congrArg _ hRef).trans (hLooks g hg)
  have hPlain : g.factType ≠ .reversal := by rcases hKind with hKind | hKind <;> simp [hKind]
  have hPassed : g.factId ∉ scan.reversedFactIds := by
    rw [hScan.reversed, hUnreversed]
    exact Bool.false_ne_true
  refine ⟨_, bind_eq_ok.mpr ⟨_, expect_eq_ok.mpr hSource, bind_eq_ok.mpr ⟨(), require_eq_ok.mpr ⟨hNone, hPlain, hAmount,
    hBack, hPassed, (hScan.processed _).mpr ⟨g, hg, rfl⟩⟩, bind_eq_ok.mpr ⟨active, hGiven, rfl⟩⟩⟩, ?_⟩
  constructor
  case active =>
    intro c hc hCollection
    obtain rfl | hOld := List.mem_cons.mp hc
    · rw [hType] at hCollection
      cases hCollection
    · exact hActive c hOld hCollection
  case untouched => exact fun factId hOther => hUntouched factId (List.forall_mem_cons.mp hOther).2
  case reversed =>
    intro factId
    rw [isReversed_reversal hRef, Bool.or_eq_true, decide_eq_true_eq, ← hScan.reversed]
    exact List.mem_cons
  case processed => exact processed_cons hScan

structure InColumns (s : LodgingLedger) (currency : CurrencyCode) (revisionIds : List Nat) (f : CollectionFact) :
    Prop where
  amount : f.amountMinor ≤ postgresIntegerMaximum
  currency : (s.recorded f.factId).currency = currency
  revision : (s.recorded f.factId).revisionId ∈ revisionIds

variable {currency : CurrencyCode} {revisionIds : List Nat}

theorem Scanned.next (hScan : Scanned rest scan) (hLooks : Looks s rows rest) (hAppends : Appends rest f)
    (hDirect : Direct rest f) (hRest : DirectLedger rest)
    (hColumns : ∀ g ∈ f :: rest, InColumns s currency revisionIds g) :
    ∃ next, scanFact rows revisionIds currency scan (s.lodgingFact f) = .ok next ∧ Scanned (f :: rest) next := by
  have hOwn := hColumns f List.mem_cons_self
  have hAmounts : ∀ g ∈ rest, g.amountMinor ≤ postgresIntegerMaximum :=
    fun g hg => (hColumns g (List.mem_cons_of_mem _ hg)).amount
  have hPositive := hAppends.positive
  have hNet := (DirectLedger.cons hAppends hDirect hRest).net_abs f List.mem_cons_self
  have hAmount := hOwn.amount
  have hFree : isSafeInteger f.amountMinor = true ∧ isSafeInteger f.netEffectMinor = true :=
    ⟨isSafeInteger_of_column (by rw [postgresIntegerMaximum]; omega) hAmount,
      isSafeInteger_of_column (by omega) (by omega)⟩
  have hCommon : require (((s.lodgingFact f).currency = currency ∧ isSafeInteger f.amountMinor = true ∧
      0 < f.amountMinor ∧ isSafeInteger f.netEffectMinor = true ∧
      (s.lodgingFact f).pricingRevisionId.any (fun id => id ∈ revisionIds) = true)) fundsChainDamaged = .ok () :=
    require_eq_ok.mpr ⟨hOwn.currency, hFree.1, hPositive, hFree.2, decide_eq_true hOwn.revision⟩
  obtain hType | hType | hType := hDirect.plain
  · obtain ⟨next, hNext, hScanned⟩ := hScan.collection hAppends hRest hType
    refine ⟨next, bind_eq_ok.mpr ⟨(), hCommon, ?_⟩, hScanned⟩
    rw [show (s.lodgingFact f).factType = .collection from hType]
    exact hNext
  · obtain ⟨next, hNext, hScanned⟩ := hScan.refund hLooks hAppends hDirect hRest hType hAmounts
    refine ⟨next, bind_eq_ok.mpr ⟨(), hCommon, ?_⟩, hScanned⟩
    rw [show (s.lodgingFact f).factType = .refund from hType]
    exact hNext
  · obtain ⟨next, hNext, hScanned⟩ := hScan.reversal hLooks hAppends hDirect hRest hType hAmounts
    refine ⟨next, bind_eq_ok.mpr ⟨(), hCommon, ?_⟩, hScanned⟩
    rw [show (s.lodgingFact f).factType = .reversal from hType]
    exact hNext

theorem DirectLedger.scanned (h : DirectLedger facts) (hLooks : Looks s rows facts)
    (hColumns : ∀ g ∈ facts, InColumns s currency revisionIds g) :
    ∃ scan, (facts.map s.lodgingFact).reverse.foldlM (scanFact rows revisionIds currency) MoneyScan.start = .ok scan ∧
      Scanned facts scan := by
  induction h with
  | nil => exact ⟨_, rfl, .start⟩
  | @cons f rest hAppends hDirect hRest ih =>
    have hRows : Looks s rows rest := fun g hg => hLooks g (List.mem_cons_of_mem _ hg)
    obtain ⟨scan, hPrefix, hScan⟩ := ih hRows fun g hg => hColumns g (List.mem_cons_of_mem _ hg)
    obtain ⟨next, hNext, hScanned⟩ := hScan.next hRows hAppends hDirect hRest hColumns
    refine ⟨next, ?_, hScanned⟩
    rw [List.map_cons, List.reverse_cons, List.foldlM_append, hPrefix]
    exact bind_eq_ok.mpr ⟨scan, rfl, bind_eq_ok.mpr ⟨next, hNext, rfl⟩⟩

theorem Scanned.closes (h : DirectLedger facts) (hScan : Scanned facts scan)
    (hColumns : ∀ g ∈ facts, InColumns s currency revisionIds g) {c : CollectionFact} (hc : c ∈ facts)
    (hType : c.factType = .collection) : scan.closes (s.lodgingFact c) = true := by
  obtain ⟨hLimit, hClean⟩ := h.bounded c hc hType
  have hNonneg := h.wellFormed.refunded_nonneg c.factId
  have hColumn := (hColumns c hc).amount
  have hActive : scan.activeRefundMinorByCollection (s.lodgingFact c).factId = some (refundedMinor facts c.factId) :=
    hScan.active c hc hType
  rw [MoneyScan.closes, hActive, Option.any_some, Bool.and_eq_true, Bool.and_eq_true, decide_eq_true_eq]
  refine ⟨⟨isSafeInteger_of_column (by rw [postgresIntegerMaximum]; omega) (by omega), hLimit⟩, ?_⟩
  rw [Bool.or_eq_true, decide_eq_true_eq, decide_eq_true_eq]
  by_cases hReversed : isReversed facts c.factId = true
  · exact .inr (hClean hReversed)
  · exact .inl fun hMem => hReversed ((hScan.reversed _).mp hMem)

theorem netRecorded_eq (s : LodgingLedger) (facts : List CollectionFact) :
    netRecordedCollectionMinor (facts.map s.lodgingFact).reverse = netMinor facts := by
  rw [netRecordedCollectionMinor, List.map_reverse, List.map_map, List.sum_reverse]
  rfl

end GreenPms
