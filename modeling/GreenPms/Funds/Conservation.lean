import GreenPms.Funds.Commands

/-! # Customer money is conserved

No share is drawn on or reserved for more than it holds. A command is a sequence of small
changes of the tables, an entry of a retained fund before the facts that it accounts for, and
each of them keeps this.
-/

namespace GreenPms

open Checked Totals TransitionSystem

namespace FundsTables

variable {t t' : FundsTables}

structure Ok (t : FundsTables) : Prop where
  ledger : WellFormed t.facts
  lots : (t.retainedFunds.map RetainedFund.id).Nodup
  sources : ∀ lot ∈ t.retainedFunds, ∃ f ∈ t.facts, f.factId = lot.sourceFactId
  entries : ∀ e ∈ t.entries, ∃ lot ∈ t.retainedFunds, lot.id = e.retainedFundId
  spent : ∀ lot ∈ t.retainedFunds, 0 ≤ t.lotRemaining lot
  covered : ∀ f ∈ t.facts, f.isShare = true → t.reservedMinor f.factId ≤ balanceMinor t.facts f
  clean : ∀ f ∈ t.facts, f.isShare = true → isReversed t.facts f.factId = true →
    balanceMinor t.facts f = f.amountMinor ∧ t.reservedMinor f.factId = 0

theorem Ok.reserved_nonneg (h : t.Ok) (factId : Nat) : 0 ≤ t.reservedMinor factId :=
  total_nonneg fun lot hLot _ => h.spent lot hLot

/-! ## Facts -/

def addFact (t : FundsTables) (f : CollectionFact) : FundsTables := { t with facts := f :: t.facts }

theorem insertFact_eq_ok {f : CollectionFact} (h : t.insertFact f = .ok t') :
    t' = t.addFact f ∧ ∀ g ∈ t.facts, g.factId ≠ f.factId := by
  simp only [insertFact, bind_eq_ok, require_eq_ok, pure_eq_ok] at h
  obtain ⟨_, hFresh, rfl⟩ := h
  exact ⟨rfl, hFresh⟩

theorem Ok.reserved_fresh (h : t.Ok) {f : CollectionFact} (hFresh : ∀ g ∈ t.facts, g.factId ≠ f.factId) :
    t.reservedMinor f.factId = 0 := by
  refine total_eq_zero fun lot hLot hSource => ?_
  obtain ⟨g, hg, hId⟩ := h.sources lot hLot
  exact absurd (hId.trans (by simpa using hSource)) (hFresh g hg)

theorem Ok.append (h : t.Ok) {f : CollectionFact} (hAppends : Appends t.facts f) (hType : f.factType ≠ .reversal)
    (hDraw : f.isDraw = true → ∀ g ∈ t.facts, f.referencesFactId = some g.factId →
      isReversed t.facts g.factId = false ∧ f.amountMinor ≤ balanceMinor t.facts g - t.reservedMinor g.factId) :
    (t.addFact f).Ok where
  ledger := .cons hAppends h.ledger
  lots := h.lots
  sources lot hLot := by
    obtain ⟨g, hg, hId⟩ := h.sources lot hLot
    exact ⟨g, List.mem_cons_of_mem _ hg, hId⟩
  entries := h.entries
  spent := h.spent
  covered := by
    intro g hg hShare
    change t.reservedMinor g.factId ≤ balanceMinor (f :: t.facts) g
    rw [balance_append hAppends h.ledger hType]
    obtain rfl | hg := List.mem_cons.mp hg
    · rw [h.reserved_fresh hAppends.fresh, h.ledger.balance_fresh hAppends.fresh]
      have hPositive := hAppends.positive
      split <;> omega
    · have hCovered := h.covered g hg hShare
      split
      · next hOn =>
        rw [Bool.and_eq_true, decide_eq_true_eq] at hOn
        have hFree := (hDraw hOn.1 g hg hOn.2).2
        omega
      · omega
  clean := by
    intro g hg hShare hNow
    change balanceMinor (f :: t.facts) g = g.amountMinor ∧ t.reservedMinor g.factId = 0
    have hRev : isReversed t.facts g.factId = true := (hAppends.isReversed_same hType g.factId).symm.trans hNow
    rw [balance_append hAppends h.ledger hType]
    obtain rfl | hg := List.mem_cons.mp hg
    · exact absurd ((hAppends.unreversed h.ledger).symm.trans hRev) Bool.false_ne_true
    · obtain ⟨hBalance, hReserved⟩ := h.clean g hg hShare hRev
      refine ⟨?_, hReserved⟩
      rw [if_neg, hBalance, Int.sub_zero]
      intro hOn
      rw [Bool.and_eq_true, decide_eq_true_eq] at hOn
      rw [(hDraw hOn.1 g hg hOn.2).1] at hRev
      cases hRev

theorem Ok.reverse (h : t.Ok) {f r : CollectionFact} (hAppends : Appends t.facts f)
    (hType : f.factType = .reversal) (hr : r ∈ t.facts) (hRef : f.reversesFactId = some r.factId)
    (hUnreversed : isReversed t.facts r.factId = false)
    (hFree : r.isShare = true → balanceMinor t.facts r = r.amountMinor ∧ t.reservedMinor r.factId = 0) :
    (t.addFact f).Ok where
  ledger := .cons hAppends h.ledger
  lots := h.lots
  sources lot hLot := by
    obtain ⟨g, hg, hId⟩ := h.sources lot hLot
    exact ⟨g, List.mem_cons_of_mem _ hg, hId⟩
  entries := h.entries
  spent := h.spent
  covered := by
    intro g hg hShare
    change t.reservedMinor g.factId ≤ balanceMinor (f :: t.facts) g
    rw [balance_reversal h.ledger hType hr hRef hUnreversed]
    have hPositive := h.ledger.positive r hr
    obtain rfl | hg := List.mem_cons.mp hg
    · simp [CollectionFact.isShare, hType] at hShare
    · have hCovered := h.covered g hg hShare
      split <;> omega
  clean := by
    intro g hg hShare hNow
    have hRev : isReversed (f :: t.facts) g.factId = true := hNow
    change balanceMinor (f :: t.facts) g = g.amountMinor ∧ t.reservedMinor g.factId = 0
    have hNext : WellFormed (f :: t.facts) := .cons hAppends h.ledger
    have hRefunded := hNext.refunded_nonneg g.factId
    have hMoved := hNext.moved_nonneg .reallocationOut g.factId
    have hUpper : balanceMinor (f :: t.facts) g ≤ g.amountMinor := by
      rw [balanceMinor, transferredMinor]
      omega
    rw [balance_reversal h.ledger hType hr hRef hUnreversed] at hUpper ⊢
    have hBack : 0 ≤ if r.factType = .refund && r.referencesFactId = some g.factId then r.amountMinor else 0 := by
      have hPositive := h.ledger.positive r hr
      split <;> omega
    obtain rfl | hg := List.mem_cons.mp hg
    · simp [CollectionFact.isShare, hType] at hShare
    · rw [isReversed_reversal hRef, Bool.or_eq_true, decide_eq_true_eq] at hRev
      have hOld : balanceMinor t.facts g = g.amountMinor ∧ t.reservedMinor g.factId = 0 := by
        obtain hSame | hOld := hRev
        · obtain rfl := List.inj_on_of_nodup_map h.ledger.keys hg hr hSame
          exact hFree hShare
        · exact h.clean g hg hShare hOld
      exact ⟨by omega, hOld.2⟩

/-! ## Retained funds and entries -/

def addLot (t : FundsTables) (lot : RetainedFund) : FundsTables :=
  { t with retainedFunds := lot :: t.retainedFunds }

theorem Ok.retain (h : t.Ok) {lot : RetainedFund} (hFresh : ∀ l ∈ t.retainedFunds, l.id ≠ lot.id)
    {f : CollectionFact} (hf : f ∈ t.facts) (hSource : f.factId = lot.sourceFactId)
    (hUnreversed : isReversed t.facts f.factId = false) (hPositive : 0 < lot.amountMinor)
    (hFree : lot.amountMinor ≤ balanceMinor t.facts f - t.reservedMinor f.factId) : (t.addLot lot).Ok := by
  have hUnspent : t.spentMinor lot.id = 0 := by
    refine total_eq_zero fun e he hLot => ?_
    obtain ⟨l, hl, hId⟩ := h.entries e he
    exact absurd (hId.trans (by simpa using hLot)) (hFresh l hl)
  have hReserved : ∀ factId, (t.addLot lot).reservedMinor factId =
      (if lot.sourceFactId = factId then lot.amountMinor else 0) + t.reservedMinor factId := by
    intro factId
    have hCons := total_cons (fun l => l.sourceFactId = factId) t.lotRemaining lot t.retainedFunds
    simp only [decide_eq_true_eq] at hCons
    rw [lotRemaining, hUnspent, Int.sub_zero] at hCons
    exact hCons
  constructor
  case ledger => exact h.ledger
  case lots =>
    refine List.nodup_cons.mpr ⟨fun hMem => ?_, h.lots⟩
    obtain ⟨l, hl, hId⟩ := List.mem_map.mp hMem
    exact hFresh l hl hId
  case sources => exact List.forall_mem_cons.mpr ⟨⟨f, hf, hSource⟩, h.sources⟩
  case entries =>
    intro e he
    obtain ⟨l, hl, hId⟩ := h.entries e he
    exact ⟨l, List.mem_cons_of_mem _ hl, hId⟩
  case spent =>
    refine List.forall_mem_cons.mpr ⟨?_, h.spent⟩
    change 0 ≤ lot.amountMinor - t.spentMinor lot.id
    omega
  case covered =>
    intro g hg hShare
    rw [hReserved]
    have hCovered := h.covered g hg hShare
    change _ ≤ balanceMinor t.facts g
    split
    · next hHere =>
      obtain rfl := List.inj_on_of_nodup_map h.ledger.keys hg hf (hHere.symm.trans hSource.symm)
      omega
    · omega
  case clean =>
    intro g hg hShare hRev
    obtain ⟨hBalance, hNone⟩ := h.clean g hg hShare hRev
    refine ⟨hBalance, ?_⟩
    rw [hReserved, if_neg, hNone, Int.add_zero]
    intro hHere
    obtain rfl := List.inj_on_of_nodup_map h.ledger.keys hg hf (hHere.symm.trans hSource.symm)
    exact absurd (hUnreversed.symm.trans hRev) Bool.false_ne_true

theorem Ok.reserved_entry (h : t.Ok) {lot : RetainedFund} (hLot : lot ∈ t.retainedFunds) {e : RetainedFundEntry}
    (hId : e.retainedFundId = lot.id) (factId : Nat) :
    (t.insertEntry e).reservedMinor factId =
      t.reservedMinor factId - if lot.sourceFactId = factId then e.amountMinor else 0 := by
  have hRemaining : ∀ l, (t.insertEntry e).lotRemaining l =
      t.lotRemaining l - if lot.id = l.id then e.amountMinor else 0 := by
    intro l
    have hCons := total_cons (fun x => x.retainedFundId = l.id) RetainedFundEntry.amountMinor e t.entries
    simp only [hId, decide_eq_true_eq] at hCons
    simp only [lotRemaining, spentMinor, insertEntry, hCons]
    omega
  have hChange := total_change (p := fun l => l.sourceFactId = factId) (q := fun l => l.sourceFactId = factId)
    (v := (t.insertEntry e).lotRemaining) (w := t.lotRemaining) h.lots hLot
    fun l _ hOther => by simp [hRemaining, Ne.symm hOther]
  simp only [hRemaining lot, if_true, decide_eq_true_eq] at hChange
  change total _ (t.insertEntry e).lotRemaining t.retainedFunds = _
  unfold reservedMinor
  split at hChange
  · next hHere =>
    rw [if_pos hHere]
    omega
  · next hOther =>
    rw [if_neg hOther]
    omega

/-- An entry of a fund with at least that much left. -/
theorem Ok.entry (h : t.Ok) {lot : RetainedFund} (hLot : lot ∈ t.retainedFunds) {e : RetainedFundEntry}
    (hId : e.retainedFundId = lot.id) (hPositive : 0 < e.amountMinor) (hLeft : e.amountMinor ≤ t.lotRemaining lot) :
    (t.insertEntry e).Ok := by
  have hSpent : ∀ l ∈ t.retainedFunds, 0 ≤ (t.insertEntry e).lotRemaining l := by
    intro l hl
    have hCons := total_cons (fun x => x.retainedFundId = l.id) RetainedFundEntry.amountMinor e t.entries
    have hOld := h.spent l hl
    simp only [lotRemaining, spentMinor, insertEntry, hCons, hId, decide_eq_true_eq] at hOld hLeft ⊢
    split
    · next hHere =>
      obtain rfl := List.inj_on_of_nodup_map h.lots hLot hl hHere
      omega
    · omega
  have hLess : ∀ factId, (t.insertEntry e).reservedMinor factId ≤ t.reservedMinor factId := by
    intro factId
    rw [h.reserved_entry hLot hId]
    split <;> omega
  constructor
  case ledger => exact h.ledger
  case lots => exact h.lots
  case sources => exact h.sources
  case entries => exact List.forall_mem_cons.mpr ⟨⟨lot, hLot, hId.symm⟩, h.entries⟩
  case spent => exact hSpent
  case covered =>
    intro f hf hShare
    exact Int.le_trans (hLess f.factId) (h.covered f hf hShare)
  case clean =>
    intro f hf hShare hRev
    obtain ⟨hBalance, hNone⟩ := h.clean f hf hShare hRev
    have hNonneg : 0 ≤ (t.insertEntry e).reservedMinor f.factId := total_nonneg fun l hl _ => hSpent l hl
    have hUpper := hLess f.factId
    exact ⟨hBalance, by omega⟩

/-! ## What an accepted command does -/

variable {desk : PaymentDesk} {stamp : FundsStamp} {orderId : Nat} {amountMinor : Int}

theorem fundingSource_eq_ok {factId : Nat} {f : CollectionFact} (hSource : t.fundingSource factId = .ok f) :
    f ∈ t.facts ∧ f.factId = factId ∧ f.isShare = true := by
  simp only [fundingSource, expect_eq_ok, Option.filter_eq_some_iff] at hSource
  obtain ⟨hFind, hShare⟩ := hSource
  obtain ⟨hMem, hId⟩ := mem_of_findFact hFind
  exact ⟨hMem, hId, hShare⟩

/-- The fund of a command, its source and what they still hold. -/
structure Opened (t : FundsTables) (amountMinor : Int) (lot : RetainedFund) (source : CollectionFact) : Prop where
  lot_mem : lot ∈ t.retainedFunds
  mem : source ∈ t.facts
  sourceId : source.factId = lot.sourceFactId
  share : source.isShare = true
  positive : 0 < amountMinor
  left : amountMinor ≤ t.lotRemaining lot
  unreversed : isReversed t.facts source.factId = false

theorem openLot_eq_ok {retainedFundId : Nat} {order : FundsOrder} {lot : RetainedFund}
    (hOpen : t.openLot desk orderId amountMinor retainedFundId = .ok (order, lot)) :
    ∃ source, t.Opened amountMinor lot source := by
  simp only [openLot, retainedAmountOk, bind_eq_ok, require_eq_ok, expect_eq_ok, pure_eq_ok, Prod.mk.injEq] at hOpen
  obtain ⟨_, _, _, ⟨hPositive, -⟩, _, _, _, hLot, _, hLeft, source, hSource, _, ⟨hUnreversed, -⟩, rfl, rfl⟩ := hOpen
  obtain ⟨hMem, hId, hShare⟩ := fundingSource_eq_ok hSource
  exact ⟨source, List.mem_of_find?_eq_some hLot, hMem, hId, hShare, hPositive, hLeft, hUnreversed⟩

theorem Opened.draw (h : t.Ok) {lot : RetainedFund} {source : CollectionFact}
    (hOpen : t.Opened amountMinor lot source) {e : RetainedFundEntry} (hLot : e.retainedFundId = lot.id)
    (hEntry : e.amountMinor = amountMinor) {f : CollectionFact} (hFresh : ∀ g ∈ t.facts, g.factId ≠ f.factId)
    (hType : f.factType = .refund ∨ f.factType = .reallocationOut) (hAmount : f.amountMinor = amountMinor)
    (hNet : f.netEffectMinor = -amountMinor) (hRef : f.referencesFactId = some lot.sourceFactId)
    (hForward : f.reversesFactId = none) : ((t.insertEntry e).addFact f).Ok := by
  have hEntryOk : (t.insertEntry e).Ok :=
    h.entry hOpen.lot_mem hLot (by rw [hEntry]; exact hOpen.positive) (by rw [hEntry]; exact hOpen.left)
  have hReserved := h.reserved_entry hOpen.lot_mem hLot source.factId
  rw [if_pos hOpen.sourceId.symm, hEntry] at hReserved
  have hCovered := h.covered source hOpen.mem hOpen.share
  have hNotReversal : f.factType ≠ .reversal := by rcases hType with hType | hType <;> simp [hType]
  refine hEntryOk.append ?_ hNotReversal fun _ g hg hOn => ?_
  · constructor
    case fresh => exact hFresh
    case positive => exact hAmount ▸ hOpen.positive
    case net => rcases hType with hType | hType <;> simp [CollectionFact.NetOk, hType, hNet, hAmount]
    case source => exact fun _ => ⟨source, hOpen.mem, by rw [hRef, hOpen.sourceId], hOpen.share⟩
    case root => rcases hType with hType | hType <;> simp [hType]
    case forward => exact fun _ => hForward
    case reversal => exact fun hReversal => absurd hReversal hNotReversal
  · rw [hRef, Option.some.injEq, ← hOpen.sourceId] at hOn
    obtain rfl := List.inj_on_of_nodup_map h.ledger.keys hg hOpen.mem hOn.symm
    refine ⟨hOpen.unreversed, ?_⟩
    change f.amountMinor ≤ balanceMinor t.facts g - _
    omega

theorem Ok.recordCollection (h : t.Ok) {method : FundsMethod} {billId : Option Nat}
    (hRun : t.recordCollection desk stamp orderId amountMinor method billId = .ok t') : t'.Ok := by
  simp only [FundsTables.recordCollection, bind_eq_ok, require_eq_ok] at hRun
  obtain ⟨_, -, _, hPositive, _, -, _, -, hInsert⟩ := hRun
  obtain ⟨rfl, hFresh⟩ := insertFact_eq_ok hInsert
  refine h.append ?_ (by simp) (by simp [CollectionFact.isDraw])
  constructor
  case fresh => exact hFresh
  case positive => exact hPositive
  all_goals simp [CollectionFact.NetOk, CollectionFact.isDraw]

theorem Ok.recordRefund (h : t.Ok) {referencesFactId : Nat} {method : FundsMethod} {refundReference : String}
    {billId : Option Nat}
    (hRun : t.recordRefund desk stamp orderId amountMinor referencesFactId method refundReference billId = .ok t') :
    t'.Ok := by
  simp only [FundsTables.recordRefund, bind_eq_ok, require_eq_ok, expect_eq_ok] at hRun
  obtain ⟨_, -, _, hPositive, _, -, original, -, _, -, _, -, _, -, _, hUnreversed, source, hSource, _, hFree, _, -,
    hInsert⟩ := hRun
  obtain ⟨rfl, hFresh⟩ := insertFact_eq_ok hInsert
  obtain ⟨hMem, rfl, hShare⟩ := fundingSource_eq_ok hSource
  refine h.append ?_ (by simp) fun _ g hg hOn => ?_
  · constructor
    case fresh => exact hFresh
    case positive => exact hPositive
    case source => exact fun _ => ⟨source, hMem, rfl, hShare⟩
    all_goals simp [CollectionFact.NetOk]
  · obtain rfl := List.inj_on_of_nodup_map h.ledger.keys hg hMem (Option.some.inj hOn).symm
    rw [remainingMinor, hUnreversed] at hFree
    exact ⟨hUnreversed, hFree⟩

theorem assertReversible_eq_ok {original : CollectionFact} {releaseAllocation : Bool} {u : Unit}
    (hCheck : t.assertReversible desk original releaseAllocation = .ok u) :
    (original.factType = .collection ∨ original.factType = .refund) ∧
      (original.factType = .collection → t.reservedMinor original.factId ≤ 0 ∧
        transferredMinor t.facts original.factId ≤ 0) := by
  simp only [assertReversible, bind_eq_ok, require_eq_ok] at hCheck
  obtain ⟨_, hType, _, hMoved, _, hFree, -⟩ := hCheck
  constructor
  · cases hKind : original.factType <;> simp_all
  · intro hCollection
    obtain ⟨hReserved, hOut⟩ := hFree hCollection
    exact ⟨Int.not_lt.mp hReserved, Int.not_lt.mp hOut⟩

theorem Ok.reverseFact (h : t.Ok) {reversesFactId : Nat} {releaseAllocation : Bool}
    (hRun : t.reverseFact desk stamp orderId reversesFactId releaseAllocation = .ok t') : t'.Ok := by
  simp only [FundsTables.reverseFact, bind_eq_ok, require_eq_ok, expect_eq_ok] at hRun
  obtain ⟨_, -, original, hFind, _, -, _, hCheck, _, hUnreversed, _, hRefunds, hInsert⟩ := hRun
  obtain ⟨rfl, hFresh⟩ := insertFact_eq_ok hInsert
  obtain ⟨hMem, rfl⟩ := mem_of_findFact hFind
  obtain ⟨hKind, hFree⟩ := assertReversible_eq_ok hCheck
  refine h.reverse (r := original) ?_ rfl hMem rfl hUnreversed fun hShare => ?_
  · constructor
    case fresh => exact hFresh
    case positive => exact h.ledger.positive original hMem
    case reversal => exact fun _ => ⟨original, hMem, rfl, hKind, hUnreversed, rfl⟩
    all_goals simp [CollectionFact.NetOk, CollectionFact.isDraw]
  · have hCollection : original.factType = .collection := by
      obtain hKind | hKind := hKind
      · exact hKind
      · simp [CollectionFact.isShare, hKind] at hShare
    have hRefunded := Int.not_lt.mp (hRefunds hCollection)
    obtain ⟨hReserved, hMoved⟩ := hFree hCollection
    have hRefundedNonneg := h.ledger.refunded_nonneg original.factId
    have hMovedNonneg := h.ledger.moved_nonneg .reallocationOut original.factId
    have hReservedNonneg := h.reserved_nonneg original.factId
    rw [balanceMinor]
    simp only [activeRefundedAmount, transferredMinor] at hRefunded hMoved ⊢
    omega

theorem Ok.retainOrderFunds (h : t.Ok) {sourceFactId : Nat} {ownerName ownerContact : String}
    (hRun : t.retainOrderFunds desk stamp orderId amountMinor sourceFactId ownerName ownerContact = .ok t') :
    t'.Ok := by
  simp only [FundsTables.retainOrderFunds, retainedAmountOk, bind_eq_ok, require_eq_ok, pure_eq_ok] at hRun
  obtain ⟨_, -, _, ⟨hPositive, -⟩, order, -, _, -, source, hSource, billId, -, _, ⟨-, hUnreversed⟩, _, -, _, -, _,
    hAvailable, _, hFresh, rfl⟩ := hRun
  obtain ⟨hMem, rfl, -⟩ := fundingSource_eq_ok hSource
  refine h.retain hFresh hMem rfl hUnreversed hPositive ?_
  refine Int.le_trans hAvailable (Int.le_trans (Int.min_le_left _ _) ?_)
  rw [remainingMinor, hUnreversed]
  exact Int.le_refl _

theorem Ok.applyRetainedFunds (h : t.Ok) {retainedFundId : Nat}
    (hRun : t.applyRetainedFunds desk stamp orderId amountMinor retainedFundId = .ok t') : t'.Ok := by
  simp only [FundsTables.applyRetainedFunds, bind_eq_ok, require_eq_ok, pure_eq_ok] at hRun
  obtain ⟨⟨order, lot⟩, hOpen, _, -, _, -, _, -, out, hOut, moved, hIn, rfl⟩ := hRun
  obtain ⟨source, hOpened⟩ := openLot_eq_ok hOpen
  obtain ⟨rfl, hOutFresh⟩ := insertFact_eq_ok hOut
  obtain ⟨rfl, hInFresh⟩ := insertFact_eq_ok hIn
  refine (hOpened.draw h (e := ⟨lot.id, .use, amountMinor, some orderId, some stamp.factId, some stamp.inFactId, none⟩)
    rfl rfl hOutFresh (.inr rfl) rfl rfl rfl rfl).append ?_ (by simp) (by simp [CollectionFact.isDraw])
  constructor
  case fresh => exact hInFresh
  case positive => exact hOpened.positive
  case source =>
    exact fun _ => ⟨source, List.mem_cons_of_mem _ hOpened.mem, by rw [hOpened.sourceId], hOpened.share⟩
  all_goals simp [CollectionFact.NetOk]

theorem Ok.releaseRetainedFunds (h : t.Ok) {retainedFundId : Nat}
    (hRun : t.releaseRetainedFunds desk orderId amountMinor retainedFundId = .ok t') : t'.Ok := by
  simp only [FundsTables.releaseRetainedFunds, bind_eq_ok, require_eq_ok, pure_eq_ok] at hRun
  obtain ⟨⟨order, lot⟩, hOpen, _, -, _, -, rfl⟩ := hRun
  obtain ⟨source, hOpened⟩ := openLot_eq_ok hOpen
  exact h.entry hOpened.lot_mem rfl hOpened.positive hOpened.left

theorem Ok.refundRetainedFunds (h : t.Ok) {retainedFundId billId : Nat}
    (hRun : t.refundRetainedFunds desk stamp orderId amountMinor retainedFundId billId = .ok t') : t'.Ok := by
  simp only [FundsTables.refundRetainedFunds, bind_eq_ok, require_eq_ok, pure_eq_ok] at hRun
  obtain ⟨⟨order, lot⟩, hOpen, _, -, _, -, refunded, hInsert, rfl⟩ := hRun
  obtain ⟨source, hOpened⟩ := openLot_eq_ok hOpen
  obtain ⟨rfl, hFresh⟩ := insertFact_eq_ok hInsert
  exact hOpened.draw h (e := ⟨lot.id, .refund, amountMinor, none, none, none, some stamp.factId⟩)
    rfl rfl hFresh (.inl rfl) rfl rfl rfl rfl

theorem Ok.run (h : t.Ok) {command : FundsCommand} (hRun : t.run desk stamp command = .ok t') : t'.Ok := by
  cases command with
  | recordCollection => exact h.recordCollection hRun
  | recordRefund => exact h.recordRefund hRun
  | reverseFact => exact h.reverseFact hRun
  | retainOrderFunds => exact h.retainOrderFunds hRun
  | applyRetainedFunds => exact h.applyRetainedFunds hRun
  | releaseRetainedFunds => exact h.releaseRetainedFunds hRun
  | refundRetainedFunds => exact h.refundRetainedFunds hRun

/-! ## Moves between orders -/

theorem paired_plain {facts : List CollectionFact} {f : CollectionFact} (h : Paired facts)
    (hOut : f.factType ≠ .reallocationOut) (hIn : f.factType ≠ .reallocationIn) : Paired (f :: facts) := by
  intro factId
  rw [movedMinor_cons, movedMinor_cons, h factId]
  simp [hOut, hIn]

theorem paired_moved {facts : List CollectionFact} {out moved : CollectionFact} (h : Paired facts)
    (hOut : out.factType = .reallocationOut) (hIn : moved.factType = .reallocationIn)
    (hSource : moved.referencesFactId = out.referencesFactId) (hAmount : moved.amountMinor = out.amountMinor) :
    Paired (moved :: out :: facts) := by
  intro factId
  simp only [movedMinor_cons, h factId, hOut, hIn, hSource, hAmount]
  simp

theorem applyRetainedFunds_facts {retainedFundId : Nat}
    (hRun : t.applyRetainedFunds desk stamp orderId amountMinor retainedFundId = .ok t') :
    ∃ out moved, t'.facts = moved :: out :: t.facts ∧ out.factType = .reallocationOut ∧
      moved.factType = .reallocationIn ∧ out.amountMinor = amountMinor ∧ moved.amountMinor = amountMinor ∧
      moved.referencesFactId = out.referencesFactId ∧ moved.netEffectMinor = -out.netEffectMinor := by
  simp only [FundsTables.applyRetainedFunds, bind_eq_ok, require_eq_ok, pure_eq_ok] at hRun
  obtain ⟨⟨order, lot⟩, -, _, -, _, -, _, -, out, hOut, moved, hIn, rfl⟩ := hRun
  obtain ⟨rfl, -⟩ := insertFact_eq_ok hOut
  obtain ⟨rfl, -⟩ := insertFact_eq_ok hIn
  exact ⟨_, _, rfl, rfl, rfl, rfl, rfl, rfl, by simp⟩

theorem paired_run (h : Paired t.facts) {command : FundsCommand} (hRun : t.run desk stamp command = .ok t') :
    Paired t'.facts := by
  cases command with
  | applyRetainedFunds =>
    obtain ⟨out, moved, hFacts, hOut, hIn, hOutAmount, hInAmount, hSource, -⟩ := applyRetainedFunds_facts hRun
    rw [hFacts]
    exact paired_moved h hOut hIn hSource (hInAmount.trans hOutAmount.symm)
  | recordCollection =>
    simp only [run, FundsTables.recordCollection, bind_eq_ok] at hRun
    obtain ⟨_, -, _, -, _, -, _, -, hInsert⟩ := hRun
    obtain ⟨rfl, -⟩ := insertFact_eq_ok hInsert
    exact paired_plain h (by simp) (by simp)
  | recordRefund =>
    simp only [run, FundsTables.recordRefund, bind_eq_ok] at hRun
    obtain ⟨_, -, _, -, _, -, _, -, _, -, _, -, _, -, _, -, _, -, _, -, _, -, hInsert⟩ := hRun
    obtain ⟨rfl, -⟩ := insertFact_eq_ok hInsert
    exact paired_plain h (by simp) (by simp)
  | reverseFact =>
    simp only [run, FundsTables.reverseFact, bind_eq_ok] at hRun
    obtain ⟨_, -, _, -, _, -, _, -, _, -, _, -, hInsert⟩ := hRun
    obtain ⟨rfl, -⟩ := insertFact_eq_ok hInsert
    exact paired_plain h (by simp) (by simp)
  | retainOrderFunds =>
    simp only [run, FundsTables.retainOrderFunds, bind_eq_ok, pure_eq_ok] at hRun
    obtain ⟨_, -, _, -, _, -, _, -, _, -, _, -, _, -, _, -, _, -, _, -, _, -, rfl⟩ := hRun
    exact h
  | releaseRetainedFunds =>
    simp only [run, FundsTables.releaseRetainedFunds, bind_eq_ok, pure_eq_ok] at hRun
    obtain ⟨_, -, _, -, _, -, rfl⟩ := hRun
    exact h
  | refundRetainedFunds =>
    simp only [run, FundsTables.refundRetainedFunds, bind_eq_ok, pure_eq_ok] at hRun
    obtain ⟨_, -, _, -, _, -, _, hInsert, rfl⟩ := hRun
    obtain ⟨rfl, -⟩ := insertFact_eq_ok hInsert
    exact paired_plain h (by simp) (by simp)

/-! ## Every reachable state -/

theorem reachable_ok (h : Reachable fundsSystem t) : t.Ok ∧ Paired t.facts := by
  refine h.invariant (P := fun t => t.Ok ∧ Paired t.facts) ?_ ?_
  · rintro s ⟨hFacts, hLots, hEntries⟩
    refine ⟨⟨by rw [hFacts]; exact .nil, ?_, ?_, ?_, ?_, ?_, ?_⟩, fun _ => by rw [hFacts]; rfl⟩
    all_goals simp [hFacts, hLots, hEntries]
  · rintro a e b - ⟨hOk, hPaired⟩ hStep
    cases e with
    | command desk stamp command => exact ⟨hOk.run hStep, paired_run hPaired hStep⟩
    | orderChanged orderId row =>
      obtain rfl : b = _ := hStep
      exact ⟨⟨hOk.ledger, hOk.lots, hOk.sources, hOk.entries, hOk.spent, hOk.covered, hOk.clean⟩, hPaired⟩

structure Conserved (t : FundsTables) : Prop where
  shares : ∀ f ∈ t.facts, f.isShare = true →
    0 ≤ t.reservedMinor f.factId ∧ t.reservedMinor f.factId ≤ t.remainingMinor f
  funds : ∀ lot ∈ t.retainedFunds, t.spentMinor lot.id ≤ lot.amountMinor
  reversed : ∀ f ∈ t.facts, f.factType = .collection → isReversed t.facts f.factId = true →
    (∀ r ∈ t.facts, r.referencesFactId = some f.factId → activeFact t.facts .refund r = false) ∧
      (∀ r ∈ t.facts, r.referencesFactId = some f.factId → r.factType ≠ .reallocationOut) ∧
      t.reservedMinor f.factId = 0
  net : netMinor t.facts = activeCollections t.facts - activeRefunds t.facts
  roots : ∀ f ∈ t.facts, f.factType = .collection → drawnFrom t.facts f.factId ≤ f.amountMinor

theorem Ok.balance_nonneg (h : t.Ok) {f : CollectionFact} (hf : f ∈ t.facts) (hShare : f.isShare = true) :
    0 ≤ balanceMinor t.facts f :=
  Int.le_trans (h.reserved_nonneg f.factId) (h.covered f hf hShare)

/-- Nothing is drawn from a share whose balance is its amount. -/
theorem Ok.undrawn (h : t.Ok) {f : CollectionFact} (hBalance : balanceMinor t.facts f = f.amountMinor)
    {r : CollectionFact} (hr : r ∈ t.facts) (hRef : r.referencesFactId = some f.factId) :
    activeFact t.facts .refund r = false ∧ r.factType ≠ .reallocationOut := by
  have hRefunded := h.ledger.refunded_nonneg f.factId
  have hMoved := h.ledger.moved_nonneg .reallocationOut f.factId
  rw [balanceMinor, transferredMinor] at hBalance
  have hPositive : ∀ x ∈ t.facts, 0 ≤ x.amountMinor := fun x hx => Int.le_of_lt (h.ledger.positive x hx)
  constructor
  · by_contra hActive
    rw [Bool.not_eq_false] at hActive
    have hDrawn : 0 < refundedMinor t.facts f.factId :=
      total_pos (fun x hx _ => hPositive x hx) hr (by simp [hActive, hRef]) (h.ledger.positive r hr)
    omega
  · intro hOut
    have hDrawn : 0 < movedMinor t.facts .reallocationOut f.factId :=
      total_pos (fun x hx _ => hPositive x hx) hr (by simp [hOut, hRef]) (h.ledger.positive r hr)
    omega

theorem Ok.conserved (h : t.Ok) (hPaired : Paired t.facts) : t.Conserved where
  shares := by
    intro f hf hShare
    refine ⟨h.reserved_nonneg f.factId, ?_⟩
    rw [remainingMinor]
    split
    · next hRev => exact Int.le_of_eq (h.clean f hf hShare hRev).2
    · exact h.covered f hf hShare
  funds := by
    intro lot hLot
    have hSpent := h.spent lot hLot
    rw [lotRemaining] at hSpent
    omega
  reversed := by
    intro f hf hType hRev
    obtain ⟨hBalance, hReserved⟩ := h.clean f hf (by simp [CollectionFact.isShare, hType]) hRev
    exact ⟨fun r hr hRef => (h.undrawn hBalance hr hRef).1, fun r hr hRef => (h.undrawn hBalance hr hRef).2,
      hReserved⟩
  net := net_of_paired h.ledger hPaired
  roots _ hf hType := drawnFrom_le h.ledger hPaired (fun _ hg hShare => h.balance_nonneg hg hShare) hf hType

end FundsTables

/-- In every reachable state customer money is conserved, and every accepted use of a retained fund
moves the same amount out of one order and into another. -/
theorem customer_money_conserved (t : FundsTables) (h : Reachable fundsSystem t) :
    t.Conserved ∧ ∀ desk stamp orderId amountMinor retainedFundId t',
      t.run desk stamp (.applyRetainedFunds orderId amountMinor retainedFundId) = .ok t' →
      ∃ out moved, t'.facts = moved :: out :: t.facts ∧ out.factType = .reallocationOut ∧
        moved.factType = .reallocationIn ∧ out.amountMinor = amountMinor ∧ moved.amountMinor = amountMinor ∧
        moved.referencesFactId = out.referencesFactId ∧ moved.netEffectMinor = -out.netEffectMinor := by
  obtain ⟨hOk, hPaired⟩ := FundsTables.reachable_ok h
  exact ⟨hOk.conserved hPaired, fun _ _ _ _ _ _ hRun => FundsTables.applyRetainedFunds_facts hRun⟩

def openDesk : PaymentDesk where
  allocationEnabled := true
  basisOk := true
  unassignedRefund _ := false
  refundReferenceTaken _ := false
  hasAllocation _ := false
  openAllocation _ := none

def fundedOrders (orderId : Nat) : Option FundsOrder :=
  if orderId = 1 then some ⟨.checkedOut, 60, true, true⟩
  else if orderId = 2 then some ⟨.reserved, 80, true, true⟩
  else none

/-- Order 1 collects 100, keeps 30 of it as a retained fund and lends 20 of that to order 2. -/
def fundedTables : FundsTables where
  facts := [⟨12, 2, .reallocationIn, 20, 20, some 10, none, .wecom, some 5⟩,
    ⟨11, 1, .reallocationOut, 20, -20, some 10, none, .wecom, some 5⟩,
    ⟨10, 1, .collection, 100, 100, none, none, .wecom, some 5⟩]
  retainedFunds := [⟨1, 1, 10, 5, "owner", "contact", 30⟩]
  entries := [⟨1, .use, 20, some 2, some 11, some 12, none⟩]
  orders := fundedOrders

theorem accepted_step {t t' : FundsTables} {desk : PaymentDesk} {stamp : FundsStamp} {command : FundsCommand}
    (h : t.run desk stamp command = .ok t') : fundsSystem.step t (.command desk stamp command) t' := h

theorem fundedTables_reachable : Reachable fundsSystem fundedTables := by
  have hCollect : ({ fundedTables with facts := [], retainedFunds := [], entries := [] } : FundsTables).run openDesk
      ⟨10, 0, 0⟩ (.recordCollection 1 100 .wecom (some 5)) =
      .ok { fundedTables with facts := fundedTables.facts.drop 2, retainedFunds := [], entries := [] } := rfl
  have hRetain : ({ fundedTables with facts := fundedTables.facts.drop 2, retainedFunds := [], entries := [] } :
      FundsTables).run openDesk ⟨0, 0, 1⟩ (.retainOrderFunds 1 30 10 "owner" "contact") =
      .ok { fundedTables with facts := fundedTables.facts.drop 2, entries := [] } := rfl
  have hApply : ({ fundedTables with facts := fundedTables.facts.drop 2, entries := [] } : FundsTables).run
      openDesk ⟨11, 12, 0⟩ (.applyRetainedFunds 2 20 1) = .ok fundedTables := rfl
  have hRun := Run.cons (accepted_step hCollect) (.cons (accepted_step hRetain) (.single (accepted_step hApply)))
  exact ⟨_, _, ⟨rfl, rfl, rfl⟩, hRun⟩

theorem customer_money_conserved_sample : fundedTables.Conserved :=
  (customer_money_conserved fundedTables fundedTables_reachable).1

end GreenPms
