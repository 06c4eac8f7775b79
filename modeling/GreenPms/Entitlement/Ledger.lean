import GreenPms.Entitlement.Tables

/-! # What the ledger says of a coverage item

An item takes one night from its lot while it is held or consumed and not restored, and afterwards
none, unless its lot had expired when it was released: then the night lapses. Each write is about one
item, and every operation is a sequence of writes.
-/

namespace GreenPms

open Checked Totals

namespace EntitlementTables

variable {t : EntitlementTables} {c : CoverageItem} {f : LedgerFact}

def consumption : List LedgerEntryType := [.consume, .conversionConsume]

def live (t : EntitlementTables) (c : CoverageItem) : Bool := c.isActive && t.entries c.id [.restore] = 0

def coverageDelta (t : EntitlementTables) (coverageId : Nat) : Int :=
  total (fun f => f.coverageId = some coverageId) LedgerFact.quantityDelta t.ledger

structure ItemOk (t : EntitlementTables) (c : CoverageItem) : Prop where
  delta : t.coverageDelta c.id = if t.live c then -1 else -(t.entries c.id [.expire] : Int)
  consumed : t.entries c.id consumption ≤ 1
  restored : t.entries c.id [.restore] ≤ 1
  held : c.status = .held → t.entries c.id consumption = 0 ∧ t.entries c.id [.restore] = 0
  lapsed : t.entries c.id [.expire] ≤ 1
  kept : c.isActive = true → t.entries c.id [.expire] = 0

structure Ok (t : EntitlementTables) : Prop where
  bounded : ∀ c ∈ t.coverage, c.id < t.coverage.length
  keys : (t.coverage.map CoverageItem.id).Nodup
  items : ∀ c ∈ t.coverage, t.ItemOk c
  facts : ∀ f ∈ t.ledger, ∀ id ∈ f.coverageId, ∃ c ∈ t.coverage, c.id = id ∧ c.lotId = f.lotId
  covered : ∀ f ∈ t.ledger, f.entryType = .adjust → f.coverageId = none
  lapsed : ∀ f ∈ t.ledger, f.entryType = .expire → f.coverageId.isSome = true → f.quantityDelta = -1
  plain : ∀ f ∈ t.ledger, f.coverageId = none → f.entryType = .adjust ∨ f.entryType = .expire ∨
    (f.entryType = .conversionConsume ∧ f.quantityDelta = -1)
  single : ∀ c ∈ t.coverage, ∀ d ∈ t.coverage, c.orderId = d.orderId → c.serviceDate = d.serviceDate →
    c.isActive = true → d.isActive = true → c = d

/-- Only the ledger is read. -/
theorem ItemOk.congr {u : EntitlementTables} (h : t.ItemOk c) (hLedger : u.ledger = t.ledger) : u.ItemOk c := by
  have hEntries : ∀ types, u.entries c.id types = t.entries c.id types := fun types => by
    rw [entries, hLedger, entries]
  have hDelta : u.coverageDelta c.id = t.coverageDelta c.id := by rw [coverageDelta, hLedger, coverageDelta]
  constructor
  · rw [hDelta, h.delta, live, live, hEntries, hEntries]
  · rw [hEntries]
    exact h.consumed
  · rw [hEntries]
    exact h.restored
  · rw [hEntries, hEntries]
    exact h.held
  · rw [hEntries]
    exact h.lapsed
  · rw [hEntries]
    exact h.kept

/-! ## One more entry -/

theorem entries_record (t : EntitlementTables) (f : LedgerFact) (id : Nat) (types : List LedgerEntryType) :
    (t.record f).entries id types =
      t.entries id types + if f.coverageId = some id && types.contains f.entryType then 1 else 0 := by
  simp [entries, record, List.countP_cons]

theorem coverageDelta_record (t : EntitlementTables) (f : LedgerFact) (id : Nat) :
    (t.record f).coverageDelta id =
      (if f.coverageId = some id then f.quantityDelta else 0) + t.coverageDelta id := by
  rw [coverageDelta, record, total_cons]
  simp only [decide_eq_true_eq, coverageDelta]

theorem ItemOk.record (h : t.ItemOk c) (hOther : f.coverageId ≠ some c.id) : (t.record f).ItemOk c := by
  have hEntries : ∀ types, (t.record f).entries c.id types = t.entries c.id types := by
    intro types
    rw [entries_record, if_neg, Nat.add_zero]
    rintro hIn
    simp only [Bool.and_eq_true, decide_eq_true_eq] at hIn
    exact hOther hIn.1
  have hDelta : (t.record f).coverageDelta c.id = t.coverageDelta c.id := by
    rw [coverageDelta_record, if_neg hOther, Int.zero_add]
  constructor
  · rw [hDelta, h.delta, live, live, hEntries, hEntries]
  · rw [hEntries]
    exact h.consumed
  · rw [hEntries]
    exact h.restored
  · rw [hEntries, hEntries]
    exact h.held
  · rw [hEntries]
    exact h.lapsed
  · rw [hEntries]
    exact h.kept

/-- Apart from a lapse the entries of an item are those of a night that is taken or given back. -/
theorem Ok.taken (h : t.Ok) (hc : c ∈ t.coverage) :
    total (fun f => f.coverageId = some c.id && f.entryType ≠ .expire) LedgerFact.quantityDelta t.ledger =
      if t.live c then -1 else 0 := by
  have hItem := h.items c hc
  have hSplit := total_split (fun f => decide (f.coverageId = some c.id)) (fun f : LedgerFact => f.entryType ≠ .expire)
    LedgerFact.quantityDelta t.ledger
  have hLapses : total (fun f => decide (f.coverageId = some c.id) && !decide (f.entryType ≠ .expire))
      LedgerFact.quantityDelta t.ledger = -(t.entries c.id [.expire] : Int) := by
    have hConst := total_const (fun f => decide (f.coverageId = some c.id) && [LedgerEntryType.expire].contains f.entryType) (-1)
      t.ledger
    rw [total_congr (v := LedgerFact.quantityDelta) (fun f _ => ?_) (fun f hf hIn => ?_), hConst, entries]
    · omega
    · simp
    · simp only [Bool.and_eq_true, decide_eq_true_eq, Bool.not_eq_true', decide_eq_false_iff_not, not_not] at hIn
      exact h.lapsed f hf hIn.2 (by rw [hIn.1]; rfl)
  have hDelta := hItem.delta
  rw [coverageDelta, hSplit, hLapses] at hDelta
  split
  case isTrue hLive =>
    have hActive : c.isActive = true := (Bool.and_eq_true_iff.mp hLive).1
    rw [if_pos hLive, hItem.kept hActive] at hDelta
    omega
  case isFalse hGone =>
    rw [if_neg hGone] at hDelta
    omega

/-! ## One item -/

theorem update_same (c : CoverageItem) (status : CoverageStatus) :
    CoverageItem.update c.id status c = { c with status := status } := if_pos rfl

theorem update_other {id : Nat} {status : CoverageStatus} (h : c.id ≠ id) : CoverageItem.update id status c = c :=
  if_neg h

@[simp] theorem update_id (id : Nat) (status : CoverageStatus) (c : CoverageItem) :
    (CoverageItem.update id status c).id = c.id := by
  unfold CoverageItem.update
  split <;> rfl

theorem mem_setStatus {id : Nat} {status : CoverageStatus} :
    c ∈ (t.setStatus id status).coverage ↔ ∃ d ∈ t.coverage, CoverageItem.update id status d = c :=
  List.mem_map

theorem mem_setStatus_other {id : Nat} {status : CoverageStatus} (hc : c ∈ t.coverage) (h : c.id ≠ id) :
    c ∈ (t.setStatus id status).coverage :=
  mem_setStatus.mpr ⟨c, hc, update_other h⟩

theorem Ok.eq_of_id (h : t.Ok) {d : CoverageItem} (hc : c ∈ t.coverage) (hd : d ∈ t.coverage) (hId : c.id = d.id) :
    c = d :=
  List.inj_on_of_nodup_map h.keys hc hd hId

theorem Ok.touch (h : t.Ok) (hc : c ∈ t.coverage) {status : CoverageStatus} (hId : f.coverageId = some c.id)
    (hLot : f.lotId = c.lotId) (hType : f.entryType ≠ .adjust) (hLapse : f.entryType = .expire → f.quantityDelta = -1)
    (hActive : status ≠ .released → c.isActive = true)
    (hItem : (t.record f).ItemOk { c with status := status }) : ((t.setStatus c.id status).record f).Ok := by
  have hCases : ∀ d ∈ ((t.setStatus c.id status).record f).coverage,
      d = { c with status := status } ∨ (d ∈ t.coverage ∧ d.id ≠ c.id) := by
    intro d hd
    obtain ⟨x, hx, rfl⟩ := mem_setStatus.mp hd
    by_cases hSame : x.id = c.id
    · obtain rfl := h.eq_of_id hx hc hSame
      exact .inl (update_same x status)
    · rw [update_other hSame]
      exact .inr ⟨hx, hSame⟩
  constructor
  case bounded =>
    intro d hd
    obtain ⟨x, hx, rfl⟩ := mem_setStatus.mp hd
    simpa [record, setStatus] using h.bounded x hx
  case keys => simpa [record, setStatus, Function.comp_def] using h.keys
  case items =>
    intro d hd
    obtain rfl | ⟨hd, hOther⟩ := hCases d hd
    · exact hItem.congr rfl
    · exact ((h.items d hd).record (by rw [hId]; simpa using Ne.symm hOther)).congr rfl
  case facts =>
    intro g hg id hMem
    have hSource : ∃ x ∈ t.coverage, x.id = id ∧ x.lotId = g.lotId := by
      obtain rfl | hg := List.mem_cons.mp hg
      · rw [hId, Option.mem_some_iff] at hMem
        exact ⟨c, hc, hMem, hLot.symm⟩
      · exact h.facts g hg id hMem
    obtain ⟨x, hx, hXId, hXLot⟩ := hSource
    refine ⟨_, mem_setStatus.mpr ⟨x, hx, rfl⟩, by rw [update_id, hXId], ?_⟩
    rw [← hXLot, CoverageItem.update]
    split <;> rfl
  case covered => exact List.forall_mem_cons.mpr ⟨fun hAdjust => absurd hAdjust hType, h.covered⟩
  case lapsed => exact List.forall_mem_cons.mpr ⟨fun hExpire _ => hLapse hExpire, h.lapsed⟩
  case plain =>
    intro g hg hNone
    obtain rfl | hg := List.mem_cons.mp hg
    · rw [hId] at hNone
      cases hNone
    · exact h.plain g hg hNone
  case single =>
    have hOne : ∀ d ∈ t.coverage, d.id ≠ c.id → d.isActive = true → d.orderId = c.orderId →
        d.serviceDate = c.serviceDate → status = .released := by
      intro d hd hOther hd' hOrder hDate
      by_contra hStatus
      exact hOther (congrArg CoverageItem.id (h.single d hd c hc hOrder hDate hd' (hActive hStatus)))
    intro d hd e he hOrder hDate hdActive heActive
    obtain rfl | ⟨hd, hdOther⟩ := hCases d hd <;> obtain rfl | ⟨he, heOther⟩ := hCases e he
    · rfl
    · have hGone := hOne e he heOther heActive hOrder.symm hDate.symm
      simp [CoverageItem.isActive, hGone] at hdActive
    · have hGone := hOne d hd hdOther hdActive hOrder hDate
      simp [CoverageItem.isActive, hGone] at heActive
    · exact h.single d hd e he hOrder hDate hdActive heActive

theorem setStatus_self (h : t.Ok) (hc : c ∈ t.coverage) : t.setStatus c.id c.status = t := by
  have hSame : t.coverage.map (CoverageItem.update c.id c.status) = t.coverage := by
    refine (List.map_congr_left fun d hd => ?_).trans (List.map_id _)
    by_cases hId : d.id = c.id
    · obtain rfl := h.eq_of_id hd hc hId
      exact update_same d d.status
    · exact update_other hId
  rw [setStatus, hSame]

theorem Ok.lapse (h : t.Ok) (hc : c ∈ t.coverage) (hReleased : c.status = .released)
    (hKept : t.entries c.id [.expire] = 0) (reason : String) (commandId : Nat) :
    (t.record (c.fact .expire (-1) reason commandId)).Ok := by
  have hItem := h.items c hc
  have hDelta := hItem.delta
  have hConsumed := hItem.consumed
  have hRestored := hItem.restored
  rw [consumption] at hConsumed
  simp only [live, CoverageItem.isActive, hReleased, hKept] at hDelta
  have hSelf := setStatus_self h hc
  rw [← hSelf]
  refine h.touch hc rfl rfl (by simp [CoverageItem.fact]) (fun _ => rfl) (fun hOther => absurd hReleased hOther) ?_
  constructor
  case delta =>
    simp [coverageDelta_record, entries_record, CoverageItem.fact, hDelta, hKept, live, CoverageItem.isActive, hReleased]
  case held => exact fun hHeld => absurd (hReleased.symm.trans hHeld) (by decide)
  case kept => simp [CoverageItem.isActive, hReleased]
  case consumed => simpa [entries_record, CoverageItem.fact, consumption] using hConsumed
  case restored => simpa [entries_record, CoverageItem.fact] using hRestored
  case lapsed => simp [entries_record, CoverageItem.fact, hKept]

/-! ## The writes of the operations -/

theorem Ok.release (h : t.Ok) (hc : c ∈ t.coverage) (hHeld : c.status = .held) (commandId : Nat)
    (lapses : CoverageItem → Bool) : (t.release commandId lapses c).Ok := by
  have hItem := h.items c hc
  obtain ⟨hConsumed, hRestored⟩ := hItem.held hHeld
  have hKept := hItem.kept (by simp [CoverageItem.isActive, hHeld])
  rw [consumption] at hConsumed
  have hReleased : ((t.setStatus c.id .released).record
      (c.fact .release 1 "ORDER_COVERAGE_RELEASE" commandId)).Ok := by
    refine h.touch hc rfl rfl (by simp [CoverageItem.fact]) (by simp [CoverageItem.fact])
      (fun hOther => absurd rfl hOther) ?_
    constructor
    case delta =>
      have hDelta := hItem.delta
      simp only [live, CoverageItem.isActive, hHeld, hRestored] at hDelta
      simp [coverageDelta_record, entries_record, CoverageItem.fact, hDelta, hKept, live, CoverageItem.isActive]
    case held => exact fun hStatus => nomatch hStatus
    all_goals simp [entries_record, CoverageItem.fact, hConsumed, hRestored, hKept, consumption]
  unfold EntitlementTables.release
  split
  · refine hReleased.lapse (c := { c with status := .released })
      (mem_setStatus.mpr ⟨c, hc, update_same c .released⟩) rfl ?_ "RELEASE_AFTER_EXPIRY" commandId
    have hNone := entries_record (t.setStatus c.id .released) (c.fact .release 1 "ORDER_COVERAGE_RELEASE" commandId) c.id
      [.expire]
    rw [if_neg (by simp [CoverageItem.fact]), Nat.add_zero] at hNone
    exact hNone.trans hKept
  · exact hReleased

theorem Ok.consume (h : t.Ok) (hc : c ∈ t.coverage) (hHeld : c.status = .held) (commandId : Nat) (reason : String) :
    (t.consume commandId reason c).Ok := by
  have hItem := h.items c hc
  obtain ⟨hConsumed, hRestored⟩ := hItem.held hHeld
  have hKept := hItem.kept (by simp [CoverageItem.isActive, hHeld])
  rw [consumption] at hConsumed
  have hDelta := hItem.delta
  simp only [live, CoverageItem.isActive, hHeld, hRestored] at hDelta
  refine h.touch hc rfl rfl (by simp [CoverageItem.fact]) (by simp [CoverageItem.fact])
    (fun _ => by simp [CoverageItem.isActive, hHeld]) ?_
  constructor
  case delta =>
    simp [coverageDelta_record, CoverageItem.fact, hDelta, live, CoverageItem.isActive, entries_record, hRestored]
  case held => exact fun hStatus => nomatch hStatus
  all_goals simp [entries_record, CoverageItem.fact, hConsumed, hRestored, hKept, consumption]

theorem ItemOk.restore (h : t.ItemOk c) (hStatus : c.status = .consumed) (hRestored : t.entries c.id [.restore] = 0)
    (status : CoverageStatus) (hNotHeld : status ≠ .held) (commandId : Nat) (reason : String) :
    (t.record (c.fact .restore 1 reason commandId)).ItemOk { c with status := status } := by
  have hDelta := h.delta
  have hConsumed := h.consumed
  have hKept := h.kept (by simp [CoverageItem.isActive, hStatus])
  simp only [live, CoverageItem.isActive, hStatus, hRestored] at hDelta
  constructor
  case delta =>
    simp [coverageDelta_record, CoverageItem.fact, hDelta, live, CoverageItem.isActive, entries_record, hRestored, hKept]
  case held => exact fun hHeld => absurd hHeld hNotHeld
  case consumed => simpa [entries_record, CoverageItem.fact, consumption] using hConsumed
  case restored => simp [entries_record, CoverageItem.fact, hRestored]
  all_goals simp [entries_record, CoverageItem.fact, hKept]

theorem Ok.restore (h : t.Ok) (hc : c ∈ t.coverage) (hStatus : c.status = .consumed)
    (hRestored : t.entries c.id [.restore] = 0) (commandId : Nat) : (t.restore commandId c).Ok := by
  have hItem := (h.items c hc).restore hStatus hRestored c.status (by simp [hStatus]) commandId
    "REVOKE_CHECK_IN_ENTITLEMENT_RESTORED"
  have hTouch := h.touch hc (f := c.fact .restore 1 "REVOKE_CHECK_IN_ENTITLEMENT_RESTORED" commandId) rfl rfl
    (by simp [CoverageItem.fact]) (by simp [CoverageItem.fact]) (fun _ => by simp [CoverageItem.isActive, hStatus]) hItem
  rwa [setStatus_self h hc] at hTouch

theorem Ok.restoreFuture (h : t.Ok) (hc : c ∈ t.coverage) (hStatus : c.status = .consumed)
    (hRestored : t.entries c.id [.restore] = 0) (commandId : Nat) : (t.restoreFuture commandId c).Ok :=
  h.touch hc rfl rfl (by simp [CoverageItem.fact]) (by simp [CoverageItem.fact]) (fun hOther => absurd rfl hOther)
    ((h.items c hc).restore hStatus hRestored .released (by decide) commandId _)

/-- Nothing has been entered for an item that does not exist yet. -/
theorem Ok.fresh (h : t.Ok) : ∀ f ∈ t.ledger, f.coverageId ≠ some t.coverage.length := by
  intro f hf hId
  obtain ⟨c, hc, hEq, -⟩ := h.facts f hf _ hId
  have hBound := h.bounded c hc
  omega

theorem Ok.insert (h : t.Ok) {orderId contractId : Nat} {night : CoveredNight} {status : CoverageStatus}
    (hFree : ∀ c ∈ t.coverage, c.orderId = orderId → c.serviceDate = night.serviceDate → c.isActive = false)
    (hFact : f = (t.newItem orderId contractId night status).fact f.entryType (-1) f.reason f.commandId)
    (hType : (status = .held ∧ f.entryType = .hold) ∨ (status = .consumed ∧ f.entryType = .conversionConsume)) :
    (t.insert (t.newItem orderId contractId night status) f).Ok := by
  have hNone : ∀ types, t.entries t.coverage.length types = 0 := by
    intro types
    rw [entries, List.countP_eq_zero]
    intro g hg hIn
    simp only [Bool.and_eq_true, decide_eq_true_eq] at hIn
    exact h.fresh g hg hIn.1
  have hZero : t.coverageDelta t.coverage.length = 0 :=
    total_eq_zero fun g hg hIn => absurd (of_decide_eq_true hIn) (h.fresh g hg)
  have hId : f.coverageId = some t.coverage.length := by rw [hFact]; rfl
  have hDelta : f.quantityDelta = -1 := by rw [hFact]; rfl
  have hLot : f.lotId = night.entitlementLotId := by rw [hFact]; rfl
  constructor
  case bounded =>
    intro c hc
    obtain rfl | hc := List.mem_cons.mp hc
    · exact Nat.lt_succ_self _
    · exact Nat.lt_succ_of_lt (h.bounded c hc)
  case keys =>
    refine List.nodup_cons.mpr ⟨fun hMem => ?_, h.keys⟩
    obtain ⟨c, hc, hEq⟩ := List.mem_map.mp hMem
    exact Nat.lt_irrefl _ (hEq ▸ h.bounded c hc)
  case items =>
    intro c hc
    obtain rfl | hc := List.mem_cons.mp hc
    · refine ItemOk.congr (t := t.record f) ?_ rfl
      obtain ⟨rfl, hHold⟩ | ⟨rfl, hHold⟩ := hType <;>
        constructor <;>
        simp [coverageDelta_record, entries_record, hNone, hZero, hId, hDelta, hHold, live,
          CoverageItem.isActive, newItem, consumption]
    · refine ((h.items c hc).record fun hSame => ?_).congr rfl
      rw [hId, Option.some.injEq] at hSame
      exact Nat.lt_irrefl _ (hSame ▸ h.bounded c hc)
  case facts =>
    intro g hg id hMem
    obtain rfl | hg := List.mem_cons.mp hg
    · rw [hId, Option.mem_some_iff] at hMem
      exact ⟨_, List.mem_cons_self, hMem, hLot.symm⟩
    · obtain ⟨c, hc, hEq⟩ := h.facts g hg id hMem
      exact ⟨c, List.mem_cons_of_mem _ hc, hEq⟩
  case covered =>
    refine List.forall_mem_cons.mpr ⟨fun hAdjust => ?_, h.covered⟩
    obtain ⟨-, hHold⟩ | ⟨-, hHold⟩ := hType <;> rw [hHold] at hAdjust <;> cases hAdjust
  case lapsed => exact List.forall_mem_cons.mpr ⟨fun _ _ => hDelta, h.lapsed⟩
  case plain =>
    intro g hg hPlain
    obtain rfl | hg := List.mem_cons.mp hg
    · rw [hId] at hPlain
      cases hPlain
    · exact h.plain g hg hPlain
  case single =>
    have hOld : ∀ c ∈ t.coverage, (t.newItem orderId contractId night status).orderId = c.orderId →
        (t.newItem orderId contractId night status).serviceDate = c.serviceDate → c.isActive = false :=
      fun c hc hOrder hDate => hFree c hc hOrder.symm hDate.symm
    intro c hc d hd hOrder hDate hcActive hdActive
    obtain rfl | hc := List.mem_cons.mp hc <;> obtain rfl | hd := List.mem_cons.mp hd
    · rfl
    · rw [hOld d hd hOrder hDate] at hdActive
      cases hdActive
    · rw [hOld c hc hOrder.symm hDate.symm] at hcActive
      cases hcActive
    · exact h.single c hc d hd hOrder hDate hcActive hdActive

theorem Ok.hold (h : t.Ok) {orderId : Nat} {night : CoveredNight}
    (hFree : ∀ c ∈ t.coverage, c.orderId = orderId → c.serviceDate = night.serviceDate → c.isActive = false)
    (contractId commandId : Nat) : (t.hold orderId contractId commandId night).Ok :=
  h.insert hFree rfl (.inl ⟨rfl, rfl⟩)

end EntitlementTables

end GreenPms
