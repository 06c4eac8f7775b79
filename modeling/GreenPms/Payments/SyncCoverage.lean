import Mathlib
import GreenPms.Payments.SyncRuns
import GreenPms.Payments.Rereads

/-! # The sync leaves no gap

The windows of a run follow one another from a point that was reached before, so the committed
windows cover everything up to the checkpoint, in the middle of a run and after a failure as well.
-/

namespace GreenPms

open Checked TransitionSystem

/-! ## The bills that are kept -/

namespace PaymentTables

variable {s s' : PaymentTables}

def keys (s : PaymentTables) : List (Nat × Nat × PaymentKind × String) := s.bills.map ExternalPaymentBill.referenceKey

theorem updateBill_keys (id : Nat) (c : ExternalPaymentBill → BillColumns) : (s.updateBill id c).keys = s.keys :=
  map_updated (fun _ _ => rfl) id c s.bills

theorem upsertBill_keys {bill : WecomBill} {newId id : Nat} (h : s.upsertBill bill newId = .ok (id, s')) :
    s.keys ⊆ s'.keys ∧ bill.referenceKey ∈ s'.keys := by
  rw [upsertBill] at h
  split at h
  case h_1 hNone =>
    simp only [bind_eq_ok, pure_eq_ok, Prod.mk.injEq] at h
    obtain ⟨t, hInsert, rfl, rfl⟩ := h
    rw [insertBill] at hInsert
    split at hInsert
    case isTrue =>
      obtain rfl := Except.ok.inj hInsert
      exact ⟨List.subset_cons_self _ _, List.mem_cons_self⟩
    case isFalse => cases hInsert
  case h_2 old hSome =>
    obtain ⟨hOld, hKey⟩ := stored?_eq_some hSome
    obtain ⟨-, rfl⟩ := Prod.mk.inj (Except.ok.inj h)
    have hStored : bill.referenceKey ∈ s.keys := hKey ▸ List.mem_map_of_mem hOld
    split
    case isTrue =>
      rw [updateBill_keys]
      exact ⟨List.Subset.refl _, hStored⟩
    case isFalse => exact ⟨List.Subset.refl _, hStored⟩

theorem LinksBill.keys_eq {bill : ExternalPaymentBill} (h : s.LinksBill bill s') : s'.keys = s.keys := by
  cases h with
  | kept => rfl
  | reviewed => exact updateBill_keys bill.id PaymentTables.reviewed
  | linked _ _ _ hMatches => exact congrArg (List.map _) hMatches.bills

theorem persistBill_keys {stamp : BillStamp} {bill : WecomBill} {announce : Bool} {dispatch : Option Nat}
    (h : s.persistBill stamp bill announce = .ok (dispatch, s')) : s.keys ⊆ s'.keys ∧ bill.referenceKey ∈ s'.keys := by
  simp only [persistBill, bind_eq_ok, pure_eq_ok, Prod.mk.injEq] at h
  obtain ⟨⟨id, w⟩, hUpsert, ⟨n, linked⟩, hLink, -, rfl⟩ := h
  obtain ⟨row, -, -, hLinks⟩ := linkHistorical_eq_ok hLink
  dsimp only
  rw [hLinks.keys_eq]
  exact upsertBill_keys hUpsert

theorem bindWhole_keys {factId legacyId billId : Nat} {reference : String} {funds : FundsTables}
    (h : s.bindWhole factId legacyId billId reference funds = .ok s') : s'.keys = s.keys := by
  obtain ⟨hMatches, -⟩ := insertMatch_eq_ok h
  exact congrArg (List.map _) hMatches.bills

theorem apply_keys {settings : PaymentSettings} {e : PaymentStep} (h : s.apply settings e = .ok s') :
    s.keys ⊆ s'.keys := by
  cases e with
  | read stamp bill announce =>
    obtain ⟨⟨dispatch, t⟩, hRun, rfl⟩ := map_eq_ok.mp h
    exact (persistBill_keys hRun).1
  | collect factId allocationId effect =>
    obtain ⟨ledger, -, hLedger⟩ := bind_eq_ok.mp h
    obtain rfl := pure_eq_ok.mp hLedger
    exact List.Subset.refl _
  | refund factId allocationId effect referencesFactId =>
    obtain ⟨ledger, -, hLedger⟩ := bind_eq_ok.mp h
    obtain rfl := pure_eq_ok.mp hLedger
    exact List.Subset.refl _
  | collectWhole factId legacyId orderId amountMinor reference =>
    simp only [apply, recordWholeCollection, bind_eq_ok] at h
    obtain ⟨_, -, _, -, h⟩ := h
    rw [bindWhole_keys h]
    exact List.Subset.refl _
  | refundWhole factId legacyId orderId amountMinor reference referencesFactId =>
    simp only [apply, recordWholeRefund, bind_eq_ok] at h
    obtain ⟨_, -, _, -, _, -, h⟩ := h
    rw [bindWhole_keys h]
    exact List.Subset.refl _
  | reverse factId orderId reversesFactId =>
    obtain ⟨ledger, -, hLedger⟩ := bind_eq_ok.mp h
    obtain rfl := pure_eq_ok.mp hLedger
    exact List.Subset.refl _

end PaymentTables

theorem persistBills_keys {stamps : Nat → PaymentTables.BillStamp} {announce : Bool} {n : Nat} {bills : List WecomBill}
    {s s' : PaymentTables} {discoveries : List Nat} (h : persistBills stamps announce n bills s = .ok (discoveries, s')) :
    s.keys ⊆ s'.keys ∧ ∀ b ∈ bills, b.referenceKey ∈ s'.keys := by
  induction bills generalizing n s discoveries with
  | nil =>
    obtain ⟨-, rfl⟩ := Prod.mk.inj (Except.ok.inj h)
    exact ⟨List.Subset.refl _, List.forall_mem_nil _⟩
  | cons bill rest ih =>
    simp only [persistBills, bind_eq_ok, pure_eq_ok, Prod.mk.injEq] at h
    obtain ⟨⟨dispatch, written⟩, hFirst, ⟨later, last⟩, hRest, -, rfl⟩ := h
    obtain ⟨hKept, hBill⟩ := PaymentTables.persistBill_keys hFirst
    obtain ⟨hKeptLater, hLater⟩ := ih hRest
    exact ⟨List.Subset.trans hKept hKeptLater, List.forall_mem_cons.mpr ⟨hKeptLater hBill, hLater⟩⟩

variable {accounts : List PaymentAccount} {sourceId : Nat} {s t : SyncState}

/-! ## The windows that are committed -/

def readInstants (committed : List CommittedWindow) : Set Int := {i | ∃ w ∈ committed, i ∈ Set.Ico w.start w.finish}

theorem readInstants_cons {w : CommittedWindow} {committed : List CommittedWindow} :
    readInstants (w :: committed) = Set.Ico w.start w.finish ∪ readInstants committed := by
  ext i
  simp only [readInstants, Set.mem_ofPred_eq, List.mem_cons, exists_eq_or_imp, Set.mem_union]

theorem readInstants_further {w : CommittedWindow} {committed : List CommittedWindow} {a b : Int}
    (h : Set.Ico a b ⊆ readInstants committed) (hFrom : w.start ≤ b) : Set.Ico a w.finish ⊆ readInstants (w :: committed) := by
  rw [readInstants_cons]
  calc Set.Ico a w.finish ⊆ Set.Ico a w.start ∪ Set.Ico w.start w.finish := Set.Ico_subset_Ico_union_Ico
    _ ⊆ Set.Ico w.start w.finish ∪ readInstants committed := by
      rw [Set.union_comm]
      exact Set.union_subset_union_right _ ((Set.Ico_subset_Ico_right hFrom).trans h)

def CommittedWindow.Stored (accounts : List PaymentAccount) (sourceId : Nat) (s : PaymentTables) (w : CommittedWindow) :
    Prop :=
  ∀ b ∈ w.held, w.start ≤ b.occurredAt → b.occurredAt < w.finish →
    (propertyOfMerchant accounts sourceId b.merchantId).isSome = true →
      (sourceId, b.merchantId, b.kind, b.reference) ∈ s.keys

theorem CommittedWindow.Stored.kept {w : CommittedWindow} {a b : PaymentTables} (h : w.Stored accounts sourceId a)
    (hKept : a.keys ⊆ b.keys) : w.Stored accounts sourceId b :=
  fun bill hHeld hStart hFinish hMapped => hKept (h bill hHeld hStart hFinish hMapped)

namespace SyncState

theorem runWindow_eq_ok {run : SyncRun} {w : SyncWindow} {client : PaymentClient}
    {stamps : Nat → PaymentTables.BillStamp} (h : s.runWindow accounts sourceId run w client stamps = .ok t) :
    ∃ bills, readWindow client w.start w.finish = .ok bills ∧ s.tables.keys ⊆ t.tables.keys ∧
      (∀ b ∈ mappedBills accounts sourceId bills, b.referenceKey ∈ t.tables.keys) ∧
      t.source = s.source.after run.now w ∧ t.committed = s.committed := by
  simp only [runWindow, bind_eq_ok, mapError_eq_ok, pure_eq_ok] at h
  obtain ⟨bills, hRead, ⟨discoveries, tables⟩, hPersist, events, -, rfl⟩ := h
  obtain ⟨hKept, hWritten⟩ := persistBills_keys hPersist
  exact ⟨bills, hRead, hKept, hWritten, rfl, rfl⟩

theorem runWindow_stores {run : SyncRun} {w : SyncWindow} {client : PaymentClient} {held : Set WecomBill}
    {stamps : Nat → PaymentTables.BillStamp} (hServes : client.Serves held)
    (h : s.runWindow accounts sourceId run w client stamps = .ok t) (target : Int) :
    CommittedWindow.Stored accounts sourceId t.tables ⟨w, target, held⟩ := by
  obtain ⟨bills, hRead, -, hWritten, -⟩ := runWindow_eq_ok h
  intro b hHeld hStart hFinish hMapped
  have hBill : b ∈ bills := hServes w.start w.finish bills hRead b hHeld hStart hFinish
  exact hWritten { b with sourceId } (List.mem_map_of_mem (List.mem_filter.mpr ⟨hBill, hMapped⟩))

theorem advance_cases (accounts : List PaymentAccount) (sourceId : Nat) (s : SyncState) (run : SyncRun) (client : PaymentClient) (held : Set WecomBill)
    (stamps : Nat → PaymentTables.BillStamp) (oldest : Nat) :
    (∃ code, s.advance accounts sourceId run client held stamps oldest = s.failed code) ∨
    (run.window sourceId s.tables oldest = none ∧
      s.advance accounts sourceId run client held stamps oldest = s.proceed run) ∨
    ∃ w u, run.window sourceId s.tables oldest = some w ∧ s.runWindow accounts sourceId run w client stamps = .ok u ∧
      s.advance accounts sourceId run client held stamps oldest =
        { u with committed := ⟨w, SyncRun.target run.now, held⟩ :: u.committed }.proceed run := by
  rw [advance]
  cases hWindow : run.window sourceId s.tables oldest with
  | none => exact .inr (.inl ⟨rfl, rfl⟩)
  | some w =>
    dsimp only
    cases hRun : s.runWindow accounts sourceId run w client stamps with
    | error code => exact .inl ⟨code, rfl⟩
    | ok u => exact .inr (.inr ⟨w, u, rfl, hRun, rfl⟩)

/-- The windows that a run has yet to read follow one another from a point that is reached. -/
def Follows (s : SyncState) (run : SyncRun) : Prop :=
  ∀ windows, run.stage = .recent windows → ∃ start n, Set.Ico s.source.importSince start ⊆ readInstants s.committed ∧
    windows = paymentWindows start (SyncRun.target run.now) n

structure Ok (accounts : List PaymentAccount) (sourceId : Nat) (s : SyncState) : Prop where
  read : Set.Ico s.source.importSince (s.source.syncedUntil.getD s.source.importSince) ⊆ readInstants s.committed
  stored : ∀ w ∈ s.committed, w.Stored accounts sourceId s.tables
  baseline : s.source.baselineComplete = true → ∃ w ∈ s.committed, w.target ≤ w.finish ∧
    Set.Ico s.source.importSince w.target ⊆ readInstants s.committed
  running : ∀ run, s.run = some run → s.Follows run

theorem Unsynced.ok (h : s.Unsynced) : s.Ok accounts sourceId where
  read := by
    rw [h.syncedUntil, Option.getD_none, Set.Ico_self]
    exact Set.empty_subset _
  stored w hw := by
    rw [h.committed] at hw
    cases hw
  baseline hComplete := by
    rw [h.baselineComplete] at hComplete
    cases hComplete
  running run hRun := by
    rw [h.run] at hRun
    cases hRun

structure Keeps (s t : SyncState) : Prop where
  committed : t.committed = s.committed
  importSince : t.source.importSince = s.source.importSince
  syncedUntil : t.source.syncedUntil = s.source.syncedUntil
  baselineComplete : t.source.baselineComplete = s.source.baselineComplete
  keys : s.tables.keys ⊆ t.tables.keys

theorem Ok.keep (h : s.Ok accounts sourceId) (hKeeps : s.Keeps t) (hRun : ∀ run, t.run = some run → s.Follows run) :
    t.Ok accounts sourceId where
  read := by
    rw [hKeeps.importSince, hKeeps.syncedUntil, hKeeps.committed]
    exact h.read
  stored w hw := by
    rw [hKeeps.committed] at hw
    exact (h.stored w hw).kept hKeeps.keys
  baseline hComplete := by
    rw [hKeeps.baselineComplete] at hComplete
    rw [hKeeps.importSince, hKeeps.committed]
    exact h.baseline hComplete
  running run hSome := by
    rw [Follows, hKeeps.importSince, hKeeps.committed]
    exact hRun run hSome

theorem Ok.failed (h : s.Ok accounts sourceId) (code : String) : (s.failed code).Ok accounts sourceId :=
  h.keep ⟨rfl, rfl, rfl, rfl, List.Subset.refl _⟩ fun _ hSome => nomatch hSome

theorem Ok.first_reached (h : s.Ok accounts sourceId) :
    Set.Ico s.source.importSince (SyncRun.first s.source) ⊆ readInstants s.committed := by
  have hRead := h.read
  rw [SyncRun.first]
  cases hSynced : s.source.syncedUntil with
  | none =>
    dsimp only
    rw [Set.Ico_self]
    exact Set.empty_subset _
  | some syncedUntil =>
    rw [hSynced, Option.getD_some] at hRead
    intro i hi
    obtain ⟨hImport, hFirst⟩ := Set.mem_Ico.mp hi
    refine hRead (Set.mem_Ico.mpr ⟨hImport, ?_⟩)
    obtain hBefore | hOverlap := lt_max_iff.mp hFirst
    · exact absurd hBefore (Int.not_lt.mpr hImport)
    · rw [overlapMs] at hOverlap
      omega

theorem Ok.begin (h : s.Ok accounts sourceId) (now : Int) : (s.begin accounts sourceId now).Ok accounts sourceId := by
  rw [SyncState.begin]
  split
  case isTrue => exact h
  case isFalse =>
    split
    case isTrue =>
      refine h.keep ⟨rfl, rfl, rfl, rfl, List.Subset.refl _⟩ fun run hSome windows hStage => ?_
      obtain rfl := Option.some.inj hSome
      obtain rfl := SyncStage.recent.inj hStage
      exact ⟨_, 7, h.first_reached, rfl⟩
    case isFalse => exact h.failed _

theorem Ok.proceed (h : s.Ok accounts sourceId) {run : SyncRun} {oldest : Nat}
    (hWindow : run.window sourceId s.tables oldest = none) : (s.proceed run).Ok accounts sourceId := by
  refine h.keep ⟨rfl, rfl, rfl, rfl, List.Subset.refl _⟩ fun next hNext windows hStage => ?_
  obtain ⟨stage, hAfter, rfl⟩ := Option.map_eq_some_iff.mp hNext
  obtain rfl : stage = .recent windows := hStage
  obtain ⟨now, source, stage⟩ := run
  cases stage with
  | recent waiting =>
    cases waiting with
    | nil => cases hAfter
    | cons _ _ => cases hWindow
  | repair => cases hAfter
  | reconcile => cases hAfter

theorem paymentWindows_eq_cons {start finish : Int} {n : Nat} {w : Int × Int} {rest : List (Int × Int)}
    (h : w :: rest = paymentWindows start finish n) :
    w.1 = start ∧ w.2 ≤ finish ∧ ∃ m, rest = paymentWindows w.2 finish m := by
  cases n with
  | zero => cases h
  | succ n =>
    rw [paymentWindows] at h
    split at h
    case isFalse => cases h
    case isTrue =>
      obtain ⟨rfl, rfl⟩ := List.cons.inj h
      refine ⟨rfl, min_le_right _ _, ?_⟩
      obtain hDay | hLast := Int.le_total (start + dayMs) finish
      · exact ⟨n, by rw [min_eq_left hDay]⟩
      · -- The last window ends the list, wherever the next one would start.
        refine ⟨0, ?_⟩
        cases n with
        | zero => rfl
        | succ n => exact if_neg (Int.not_lt.mpr hLast)

/-- A window of the recent pass is the next of the run; the other passes leave no such window. -/
theorem window_cases {run : SyncRun} {w : SyncWindow} {oldest : Nat}
    (h : run.window sourceId s.tables oldest = some w) :
    (∃ rest, run.stage = .recent ((w.start, w.finish) :: rest) ∧ w.checkpoint = .recent) ∨
      w.checkpoint ≠ .recent ∧ ∀ windows, run.stage.after ≠ some (.recent windows) := by
  rw [SyncRun.window] at h
  split at h
  case h_1 => cases h
  case h_2 start finish rest hStage =>
    obtain rfl := Option.some.inj h
    exact .inl ⟨rest, hStage, rfl⟩
  case h_3 hStage =>
    rw [hStage]
    split at h
    case isTrue =>
      obtain ⟨p, -, rfl⟩ := Option.map_eq_some_iff.mp h
      exact .inr ⟨nofun, nofun⟩
    case isFalse => cases h
  case h_4 hStage =>
    rw [hStage]
    split at h
    case isTrue =>
      obtain rfl := Option.some.inj h
      exact .inr ⟨nofun, nofun⟩
    case isFalse => cases h

/-- The other passes move neither the checkpoint nor the baseline. -/
theorem after_other (source : PaymentSource) (now : Int) {w : SyncWindow} (h : w.checkpoint ≠ .recent) :
    (source.after now w).importSince = source.importSince ∧ (source.after now w).syncedUntil = source.syncedUntil ∧
      (source.after now w).baselineComplete = source.baselineComplete := by
  rw [PaymentSource.after]
  split
  case h_1 hRecent => exact absurd hRecent h
  case h_2 => exact ⟨rfl, rfl, rfl⟩
  case h_3 => exact ⟨rfl, rfl, rfl⟩

theorem after_recent (source : PaymentSource) (now : Int) {w : SyncWindow} (h : w.checkpoint = .recent) :
    (source.after now w).importSince = source.importSince ∧ (source.after now w).syncedUntil = some w.finish ∧
      ((source.after now w).baselineComplete = true → source.baselineComplete = true ∨ SyncRun.target now ≤ w.finish) := by
  rw [PaymentSource.after, h]
  refine ⟨rfl, rfl, fun hComplete => ?_⟩
  simpa only [Bool.or_eq_true, decide_eq_true_eq] using hComplete

theorem Ok.commit (h : s.Ok accounts sourceId) {run : SyncRun} {w : SyncWindow} {client : PaymentClient}
    {held : Set WecomBill} {stamps : Nat → PaymentTables.BillStamp} {oldest : Nat} (hRun : s.run = some run)
    (hServes : client.Serves held) (hWindow : run.window sourceId s.tables oldest = some w)
    (hOk : s.runWindow accounts sourceId run w client stamps = .ok t) :
    (({ t with committed := ⟨w, SyncRun.target run.now, held⟩ :: t.committed } : SyncState).proceed run).Ok
      accounts sourceId := by
  have hNew := runWindow_stores hServes hOk (SyncRun.target run.now)
  obtain ⟨_, -, hKept, -, hSource, hCommitted⟩ := runWindow_eq_ok hOk
  have hGrows : readInstants s.committed ⊆ readInstants (⟨w, SyncRun.target run.now, held⟩ :: s.committed) := by
    rw [readInstants_cons]
    exact Set.subset_union_right
  have hStored : ∀ x ∈ (⟨w, SyncRun.target run.now, held⟩ :: s.committed : List CommittedWindow),
      x.Stored accounts sourceId t.tables :=
    List.forall_mem_cons.mpr ⟨hNew, fun x hx => (h.stored x hx).kept hKept⟩
  have hBaseline : s.source.baselineComplete = true → ∃ x ∈ (⟨w, SyncRun.target run.now, held⟩ :: s.committed :
      List CommittedWindow), x.target ≤ x.finish ∧
        Set.Ico s.source.importSince x.target ⊆ readInstants (⟨w, SyncRun.target run.now, held⟩ :: s.committed) := by
    intro hComplete
    obtain ⟨x, hx, hTarget, hCover⟩ := h.baseline hComplete
    exact ⟨x, List.mem_cons_of_mem _ hx, hTarget, hCover.trans hGrows⟩
  obtain ⟨rest, hStage, hRecent⟩ | ⟨hOther, hAfter⟩ := window_cases hWindow
  case inl =>
    obtain ⟨hImport, hSynced, hComplete⟩ := after_recent s.source run.now hRecent
    obtain ⟨start, n, hReached, hWindows⟩ := h.running run hRun _ hStage
    obtain ⟨hStart, hFinish, m, hRest⟩ := paymentWindows_eq_cons hWindows
    have hFurther := readInstants_further (w := ⟨w, SyncRun.target run.now, held⟩) hReached hStart.le
    constructor
    case read =>
      rw [SyncState.proceed, hSource, hImport, hSynced, hCommitted]
      exact hFurther
    case stored =>
      rw [SyncState.proceed, hCommitted]
      exact hStored
    case baseline =>
      rw [SyncState.proceed, hSource, hImport, hCommitted]
      intro hNow
      obtain hOld | hTarget := hComplete hNow
      · exact hBaseline hOld
      · exact ⟨_, List.mem_cons_self, hTarget, (Set.Ico_subset_Ico_right hTarget).trans hFurther⟩
    case running =>
      intro next hNext windows hStage'
      obtain ⟨stage, hAfter, rfl⟩ := Option.map_eq_some_iff.mp hNext
      rw [hStage, SyncStage.after, Option.some.injEq] at hAfter
      obtain rfl := SyncStage.recent.inj (hAfter.trans hStage')
      rw [SyncState.proceed, hSource, hImport, hCommitted]
      exact ⟨w.finish, m, hFurther, hRest⟩
  case inr =>
    obtain ⟨hImport, hSynced, hComplete⟩ := after_other s.source run.now hOther
    constructor
    case read =>
      rw [SyncState.proceed, hSource, hImport, hSynced, hCommitted]
      exact h.read.trans hGrows
    case stored =>
      rw [SyncState.proceed, hCommitted]
      exact hStored
    case baseline =>
      rw [SyncState.proceed, hSource, hImport, hCommitted, hComplete]
      exact hBaseline
    case running =>
      intro next hNext windows hStage
      obtain ⟨stage, hStep, rfl⟩ := Option.map_eq_some_iff.mp hNext
      exact absurd (hStep.trans (congrArg some hStage)) (hAfter windows)

theorem Ok.step (h : s.Ok accounts sourceId) {e : SyncEvent} (hStep : SyncStep accounts sourceId s e t) :
    t.Ok accounts sourceId := by
  cases hStep with
  | begin now => exact h.begin now
  | @advance run client held stamps oldest hRun hServes =>
    obtain ⟨code, hFailed⟩ | ⟨hNone, hProceeds⟩ | ⟨w, u, hWindow, hOk, hCommits⟩ :=
      advance_cases accounts sourceId s run client held stamps oldest
    · rw [hFailed]
      exact h.failed code
    · rw [hProceeds]
      exact h.proceed hNone
    · rw [hCommits]
      exact h.commit hRun hServes hWindow hOk
  | crash => exact h.keep ⟨rfl, rfl, rfl, rfl, List.Subset.refl _⟩ fun _ hSome => nomatch hSome
  | enable on => exact h.keep ⟨rfl, rfl, rfl, rfl, List.Subset.refl _⟩ h.running
  | pay _ hApply => exact h.keep ⟨rfl, rfl, rfl, rfl, PaymentTables.apply_keys hApply⟩ h.running

theorem reachable_ok (h : Reachable (syncSystem accounts sourceId) s) : s.Ok accounts sourceId :=
  h.invariant (P := Ok accounts sourceId) (fun _ => Unsynced.ok) fun _ _ _ _ hOk hStep => hOk.step hStep

/-- Every instant up to the checkpoint was read, every bill that was then there is stored, and the
baseline is complete only once the committed windows reached the target of a run. -/
structure Complete (accounts : List PaymentAccount) (sourceId : Nat) (s : SyncState) : Prop where
  read : ∀ syncedUntil, s.source.syncedUntil = some syncedUntil → ∀ i, s.source.importSince ≤ i → i < syncedUntil →
    ∃ w ∈ s.committed, w.start ≤ i ∧ i < w.finish
  stored : ∀ w ∈ s.committed, ∀ b ∈ w.held, w.start ≤ b.occurredAt → b.occurredAt < w.finish →
    (propertyOfMerchant accounts sourceId b.merchantId).isSome = true →
      ∃ row ∈ s.tables.bills, row.referenceKey = (sourceId, b.merchantId, b.kind, b.reference)
  baseline : s.source.baselineComplete = true → ∃ w ∈ s.committed, w.target ≤ w.finish ∧
    ∀ i, s.source.importSince ≤ i → i < w.target → ∃ x ∈ s.committed, x.start ≤ i ∧ i < x.finish

theorem Ok.complete (h : s.Ok accounts sourceId) : s.Complete accounts sourceId where
  read syncedUntil hSynced i hImport hBefore := by
    have hRead := h.read
    rw [hSynced, Option.getD_some] at hRead
    exact hRead ⟨hImport, hBefore⟩
  stored w hw b hHeld hStart hFinish hMapped := List.mem_map.mp (h.stored w hw b hHeld hStart hFinish hMapped)
  baseline hComplete := by
    obtain ⟨w, hw, hTarget, hCover⟩ := h.baseline hComplete
    exact ⟨w, hw, hTarget, fun i hImport hBefore => hCover ⟨hImport, hBefore⟩⟩

structure Unchanged (s t : SyncState) : Prop where
  tables : t.tables = s.tables
  events : t.events = s.events
  source : { t.source with lastErrorCode := s.source.lastErrorCode } = s.source

theorem Unchanged.refl (s : SyncState) : s.Unchanged s := ⟨rfl, rfl, rfl⟩

theorem failed_unchanged (s : SyncState) (code : String) : s.Unchanged (s.failed code) := ⟨rfl, rfl, rfl⟩

theorem uncommitted_unchanged {e : SyncEvent} (hStep : SyncStep accounts sourceId s e t) (hRun : e.OfRun)
    (h : t.committed = s.committed) : s.Unchanged t := by
  cases hStep with
  | begin now =>
    rw [SyncState.begin]
    split
    · exact .refl s
    · split
      · exact ⟨rfl, rfl, rfl⟩
      · exact failed_unchanged s _
  | @advance run client held stamps oldest =>
    obtain ⟨code, hFailed⟩ | ⟨-, hProceeds⟩ | ⟨w, u, -, hOk, hCommits⟩ :=
      advance_cases accounts sourceId s run client held stamps oldest
    · rw [hFailed]
      exact failed_unchanged s code
    · rw [hProceeds]
      exact ⟨rfl, rfl, rfl⟩
    · obtain ⟨_, -, -, -, -, hSame⟩ := runWindow_eq_ok hOk
      rw [hCommits] at h
      exact absurd (h.trans hSame.symm) (List.cons_ne_self _ _)
  | crash => exact ⟨rfl, rfl, rfl⟩
  | enable => exact hRun.elim
  | pay => exact hRun.elim

theorem sync_leaves_no_gap (accounts : List PaymentAccount) (sourceId : Nat) :
    (∀ s, Reachable (syncSystem accounts sourceId) s → s.Complete accounts sourceId) ∧
    (∀ s e t, SyncStep accounts sourceId s e t → e.OfRun → t.committed = s.committed → s.Unchanged t) ∧
    ∀ (s : SyncState) run client held stamps oldest w code, run.window sourceId s.tables oldest = some w →
      s.runWindow accounts sourceId run w client stamps = .error code →
        (s.advance accounts sourceId run client held stamps oldest).committed = s.committed := by
  refine ⟨fun _ h => (reachable_ok h).complete, fun _ _ _ => uncommitted_unchanged, ?_⟩
  intro s run client held stamps oldest w code hWindow hError
  rw [advance, hWindow]
  dsimp only
  rw [hError]
  rfl

end SyncState

def sampleAccounts : List PaymentAccount := [⟨1, 1, "P"⟩]

def sampleUnsynced : SyncState where
  source := ⟨true, 0, 0, none, false, none, none, none, none⟩
  tables := PaymentTables.sampleUnread
  events := .empty
  run := none
  committed := []

def sampleClient : PaymentClient := fun _ _ _ => .ok ⟨[PaymentTables.sampleBill], none⟩

theorem sampleClient_serves : sampleClient.Serves {PaymentTables.sampleBill} := by
  intro start finish bills hRead b hb _ _
  obtain rfl : [PaymentTables.sampleBill] = bills := Except.ok.inj hRead
  exact List.mem_singleton.mpr hb

def sampleFailingClient : PaymentClient := fun _ _ _ => .error "WECOM_NETWORK_ERROR"

/-- The first window of a run fails, or is read and committed. -/
theorem sync_leaves_no_gap_sample : ∃ s t u : SyncState, Reachable (syncSystem sampleAccounts 1) s ∧
    t.source.lastErrorCode = some "WECOM_NETWORK_ERROR" ∧ s.Unchanged t ∧ u.source.syncedUntil = some 5000 ∧
    u.source.baselineComplete = true ∧ u.tables.bills = [PaymentTables.sampleBill.row 7] ∧ u.Complete sampleAccounts 1 := by
  have hStart : Reachable (syncSystem sampleAccounts 1) sampleUnsynced := .of_init ⟨rfl, rfl, rfl, rfl⟩
  have hBegun := hStart.step (.begin sampleUnsynced 5000)
  have hServes : sampleFailingClient.Serves ∅ := fun _ _ _ hRead => nomatch hRead
  have hFails : SyncStep sampleAccounts 1 (sampleUnsynced.begin sampleAccounts 1 5000) _ _ :=
    .advance (fun _ => ⟨7, 0⟩) 0 rfl hServes
  have hCommits := hBegun.step (.advance (fun _ => ⟨7, 0⟩) 0 rfl sampleClient_serves)
  obtain ⟨hComplete, hUnchanged, hSame⟩ := SyncState.sync_leaves_no_gap sampleAccounts 1
  exact ⟨_, _, _, hBegun, rfl, hUnchanged _ _ _ hFails trivial (hSame _ _ _ _ _ _ _ _ rfl rfl), rfl, rfl, rfl,
    hComplete _ hCommits⟩

end GreenPms
