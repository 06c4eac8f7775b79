import GreenPms.Command.Reachable
import GreenPms.Command.Progress

/-! # At most once, and the fence of a resolved key

The history of commits gives what "applied" means: the business tables are the effects of the
history, performed in order. From the invariant, a Preview is confirmed once, a key has one
execution with one immutable receipt, and a key closed by a resolution never applies anything.
-/

namespace GreenPms

open TransitionSystem

variable {β δ : Type} {env : Environment β δ}

def AppliedEffect.perform (merge : β → δ → β) (business : β) (e : AppliedEffect δ) : β :=
  match e.delta with
  | some delta => merge business delta
  | none => business

def EffectSource.confirmed? : EffectSource → Option Nat
  | .confirmed previewId => some previewId
  | .created _ | .quoted => none

namespace State

/-- The effects of the committed transactions, in the order of their commits. -/
def effects (env : Environment β δ) (s : State β δ) : List (AppliedEffect δ) :=
  s.history.filterMap fun rec => (rec.writes env).effect

/-- The Previews whose business effect was applied, once for each application. -/
def confirmedPreviews (env : Environment β δ) (s : State β δ) : List Nat :=
  (s.effects env).filterMap fun e => e.source.confirmed?

/-- One commit wrote the execution, its receipt and the effect of that command. -/
def AppliedWith (env : Environment β δ) (s : State β δ) (x : Execution) (r : Receipt) : Prop :=
  ∃ rec ∈ s.history, (rec.writes env).execution = some x ∧ (rec.writes env).receipt = some r ∧
    ∃ e, (rec.writes env).effect = some e ∧ e.commandId = x.id

end State

/-! ## One commit -/

theorem CommitRecord.confirms_iff {rec : CommitRecord β δ} {pid : Nat} :
    rec.Confirms env pid ↔ ((rec.writes env).effect.bind fun e => e.source.confirmed?) = some pid := by
  unfold CommitRecord.Confirms
  cases (rec.writes env).effect with
  | none => simp
  | some e => cases hSource : e.source <;> simp [EffectSource.confirmed?, hSource]

/-- A committed execution is applied together with its receipt and its effect, or not at all. -/
theorem Phase.commitPoint_applied {φ : Phase δ} {call : Call} {r : Receipt} {x : Execution}
    (h : φ.commitPoint = some (call, r)) (hx : (φ.writes env).execution = some x) :
    (x.state = .applied ∧ r.executionStatus = .executed ∧ r.businessCommitted = true ∧
        ∃ e, (φ.writes env).effect = some e ∧ e.commandId = x.id) ∨
      (x.state = .rejected ∧ r.executionStatus = .notExecuted ∧ r.businessCommitted = false ∧
        (φ.writes env).effect = none) := by
  cases φ with
  | previewInserted | quoteInserted | confirmApplied =>
    simp only [Phase.commitPoint, Option.some.injEq, Prod.mk.injEq] at h
    simp only [Phase.writes, Option.some.injEq] at hx
    obtain ⟨-, rfl⟩ := h
    subst hx
    exact .inl ⟨rfl, rfl, rfl, _, rfl, rfl⟩
  | rejectInserted | resolveInserted =>
    simp only [Phase.commitPoint, Option.some.injEq, Prod.mk.injEq] at h
    simp only [Phase.writes, Option.some.injEq] at hx
    obtain ⟨-, rfl⟩ := h
    subst hx
    exact .inr ⟨rfl, rfl, rfl, rfl⟩
  | _ => simp [Phase.commitPoint] at h

theorem RecordOk.writes {rec : CommitRecord β δ} (h : RecordOk env rec) :
    ∃ x r, (rec.writes env).execution = some x ∧ (rec.writes env).receipt = some r ∧
      r.commandId = x.id := by
  obtain ⟨call, r, hPoint⟩ := h.point
  obtain ⟨x, hx, hr, hId, -⟩ := Phase.commitPoint_writes env hPoint
  exact ⟨x, r, hx, hr, hId⟩

theorem RecordOk.applied {rec : CommitRecord β δ} {x : Execution} {r : Receipt} (h : RecordOk env rec)
    (hx : (rec.writes env).execution = some x) (hr : (rec.writes env).receipt = some r) :
    (x.state = .applied ∧ r.executionStatus = .executed ∧ r.businessCommitted = true ∧
        ∃ e, (rec.writes env).effect = some e ∧ e.commandId = x.id) ∨
      (x.state = .rejected ∧ r.executionStatus = .notExecuted ∧ r.businessCommitted = false ∧
        (rec.writes env).effect = none) := by
  obtain ⟨call, r', hPoint⟩ := h.point
  obtain ⟨-, -, hr', -⟩ := Phase.commitPoint_writes env hPoint
  obtain rfl : r' = r := Option.some.inj (hr'.symm.trans hr)
  exact Phase.commitPoint_applied hPoint hx

/-! ## The committed rows -/

theorem Invariant.receipts_commandId {s : State β δ} (hs : Invariant env s) :
    s.tables.receipts.map Receipt.commandId = s.tables.executions.map Execution.id := by
  rw [hs.executions_eq, hs.receipts_eq, List.map_filterMap, List.map_filterMap]
  refine List.filterMap_congr fun rec hRec => ?_
  obtain ⟨x, r, hx, hr, hId⟩ := (hs.records rec hRec).writes
  simp [hx, hr, hId]

theorem Invariant.record_unique {s : State β δ} (hs : Invariant env s) {a b : CommitRecord β δ}
    {x y : Execution} (ha : a ∈ s.history) (hb : b ∈ s.history)
    (hx : (a.writes env).execution = some x) (hy : (b.writes env).execution = some y)
    (h : x.key = y.key ∨ x.id = y.id) : a = b := by
  have hApart := hs.executions
  rw [hs.executions_eq, List.pairwise_filterMap] at hApart
  have : Std.Symm fun a b : CommitRecord β δ => ∀ x, (a.writes env).execution = some x →
      ∀ y, (b.writes env).execution = some y → x.key ≠ y.key ∧ x.id ≠ y.id :=
    ⟨fun _ _ hNe x hx y hy => ⟨(hNe y hy x hx).1.symm, (hNe y hy x hx).2.symm⟩⟩
  by_contra hne
  obtain ⟨hKey, hId⟩ := hApart.forall ha hb hne x hx y hy
  exact h.elim hKey hId

theorem Invariant.mem_executions {s : State β δ} (hs : Invariant env s) {x : Execution} :
    x ∈ s.tables.executions ↔ ∃ rec ∈ s.history, (rec.writes env).execution = some x := by
  rw [hs.executions_eq]
  exact List.mem_filterMap

theorem Invariant.receipt_record {s : State β δ} (hs : Invariant env s) {x : Execution} {r : Receipt}
    (hx : x ∈ s.tables.executions) (hr : r ∈ s.tables.receipts) (hId : r.commandId = x.id) :
    ∃ rec ∈ s.history, (rec.writes env).execution = some x ∧ (rec.writes env).receipt = some r := by
  rw [hs.receipts_eq] at hr
  obtain ⟨a, ha, hReceipt⟩ := List.mem_filterMap.mp hr
  obtain ⟨b, hb, hExecution⟩ := hs.mem_executions.mp hx
  obtain ⟨y, r', hy, hr', hOwn⟩ := (hs.records a ha).writes
  obtain rfl : r' = r := Option.some.inj (hr'.symm.trans hReceipt)
  obtain rfl := hs.record_unique ha hb hy hExecution (.inr (hOwn.symm.trans hId))
  exact ⟨a, ha, hExecution, hReceipt⟩

theorem Invariant.receipt_applied {s : State β δ} (hs : Invariant env s) {x : Execution} {r : Receipt}
    (hx : x ∈ s.tables.executions) (hr : r ∈ s.tables.receipts) (hId : r.commandId = x.id) :
    (r.executionStatus = .executed ↔ x.state = .applied ∧ s.AppliedWith env x r) ∧
      (r.businessCommitted = true ↔ x.state = .applied ∧ s.AppliedWith env x r) := by
  obtain ⟨rec, hRec, hExecution, hReceipt⟩ := hs.receipt_record hx hr hId
  obtain ⟨hState, hStatus, hCommitted, hEffect⟩ | ⟨hState, hStatus, hCommitted, -⟩ :=
    (hs.records rec hRec).applied hExecution hReceipt
  · have hWith : s.AppliedWith env x r := ⟨rec, hRec, hExecution, hReceipt, hEffect⟩
    exact ⟨iff_of_true hStatus ⟨hState, hWith⟩, iff_of_true hCommitted ⟨hState, hWith⟩⟩
  · simp [hState, hStatus, hCommitted]

theorem Invariant.mem_confirmedPreviews {s : State β δ} (hs : Invariant env s) {p : Preview}
    (hp : p ∈ s.tables.previews) : p.id ∈ s.confirmedPreviews env ↔ p.status = .used := by
  have hMem : p.id ∈ s.confirmedPreviews env ↔ ∃ rec ∈ s.history, rec.Confirms env p.id := by
    simp only [State.confirmedPreviews, State.effects, List.filterMap_filterMap, List.mem_filterMap,
      CommitRecord.confirms_iff]
  rw [hMem]
  constructor
  · rintro ⟨rec, hRec, hConfirms⟩
    obtain ⟨q, hq, hId, hUsed⟩ := hs.confirmed rec hRec p.id hConfirms
    rwa [Tables.preview_unique hs.previews hp hq hId.symm]
  · exact hs.used p hp

theorem Invariant.confirmedPreviews_nodup {s : State β δ} (hs : Invariant env s) :
    (s.confirmedPreviews env).Nodup := by
  unfold State.confirmedPreviews State.effects
  rw [List.filterMap_filterMap, List.Nodup, List.pairwise_filterMap]
  refine hs.confirmedOnce.imp fun {a b} hOnce pid ha pid' hb hSame => ?_
  exact hOnce pid (CommitRecord.confirms_iff.mpr ha) (CommitRecord.confirms_iff.mpr (hSame ▸ hb))

/-! ## Runs -/

theorem Step.history_extends {s t : State β δ} {e : Event} (h : Step env s e t) :
    s.history <+: t.history := by
  cases h with
  | commit | lostCommit => exact List.prefix_append ..
  | advance | lockLost | tick => exact List.prefix_rfl

theorem run_history_extends {s t : State β δ} {es : List Event}
    (hReach : Reachable (commandProtocol env) s) (hRun : Run (commandProtocol env) s es t) :
    s.history <+: t.history :=
  hRun.monotone (R := fun a b => a.history <+: b.history) (fun _ => List.prefix_rfl)
    (fun _ _ _ => List.IsPrefix.trans) (fun _ _ _ _ h => Step.history_extends h) hReach

theorem State.effects_commit (s : State β δ) (sid : Nat) (φ : Phase δ) (locks : Nat → Option Nat) :
    (s.commit env sid φ locks).effects env =
      s.effects env ++ ((s.sessions sid).writes env).effect.toList := by
  simp only [effects, commit, List.filterMap_append]
  cases h : ((s.sessions sid).writes env).effect <;> simp [CommitRecord.writes, h]

theorem Step.business_eq {s t : State β δ} {e : Event} {business : β} (h : Step env s e t)
    (hs : s.tables.business = (s.effects env).foldl (AppliedEffect.perform env.merge) business) :
    t.tables.business = (t.effects env).foldl (AppliedEffect.perform env.merge) business := by
  have hCommit : ∀ sid φ locks, (s.commit env sid φ locks).tables.business =
      ((s.commit env sid φ locks).effects env).foldl (AppliedEffect.perform env.merge) business := by
    intro sid φ locks
    rw [State.effects_commit, List.foldl_append, ← hs]
    cases hEffect : ((s.sessions sid).writes env).effect with
    | none => simp [State.commit, Tables.commit, hEffect]
    | some e =>
      cases hDelta : e.delta <;>
        simp [State.commit, Tables.commit, AppliedEffect.perform, hEffect, hDelta]
  cases h with
  | commit | lostCommit => exact hCommit ..
  | advance | lockLost | tick => exact hs

theorem run_business_eq {s : State β δ} {es : List Event} {business : β}
    (hRun : Run (commandProtocol env) (initialState business) es s) :
    s.tables.business = (s.effects env).foldl (AppliedEffect.perform env.merge) business :=
  hRun.induct_reachable (P := fun s => s.tables.business =
    (s.effects env).foldl (AppliedEffect.perform env.merge) business)
    (.of_init ⟨business, rfl⟩) rfl fun _ _ _ _ hs hStep => Step.business_eq hStep hs

theorem run_receipts_stable {s t : State β δ} {es : List Event}
    (hReach : Reachable (commandProtocol env) s) (hRun : Run (commandProtocol env) s es t)
    {x : Execution} (hx : x ∈ s.tables.executions) :
    x ∈ t.tables.executions ∧
      ∀ r, r.commandId = x.id → (r ∈ t.tables.receipts ↔ r ∈ s.tables.receipts) := by
  have hs := reachable_invariant hReach
  have ht := reachable_invariant (hReach.run hRun)
  have hPrefix := run_history_extends hReach hRun
  obtain ⟨b, hb, hExecution⟩ := hs.mem_executions.mp hx
  have hxt := ht.mem_executions.mpr ⟨b, hPrefix.subset hb, hExecution⟩
  refine ⟨hxt, fun r hId => ⟨fun hr => ?_, fun hr => ?_⟩⟩
  · obtain ⟨a, ha, hx', hr'⟩ := ht.receipt_record hxt hr hId
    obtain rfl := ht.record_unique ha (hPrefix.subset hb) hx' hExecution (.inl rfl)
    rw [hs.receipts_eq]
    exact List.mem_filterMap.mpr ⟨a, hb, hr'⟩
  · rw [hs.receipts_eq] at hr
    rw [ht.receipts_eq]
    obtain ⟨a, ha, hr'⟩ := List.mem_filterMap.mp hr
    exact List.mem_filterMap.mpr ⟨a, hPrefix.subset ha, hr'⟩

/-- In every reachable state a Preview's effect was applied at most once, and exactly when the
Preview is `used`; a key has one execution with at most one receipt, which reports a committed
effect exactly when the execution was applied with that effect; later steps keep the receipts. -/
theorem preview_effect_applied_once {business : β} {es : List Event} {s : State β δ}
    (hRun : Run (commandProtocol env) (initialState business) es s) :
    s.tables.business = (s.effects env).foldl (AppliedEffect.perform env.merge) business ∧
      (s.confirmedPreviews env).Nodup ∧
      (∀ p ∈ s.tables.previews, p.id ∈ s.confirmedPreviews env ↔ p.status = .used) ∧
      (s.tables.executions.map Execution.key).Nodup ∧
      (s.tables.receipts.map Receipt.commandId).Nodup ∧
      (∀ x ∈ s.tables.executions, ∀ r ∈ s.tables.receipts, r.commandId = x.id →
        (r.executionStatus = .executed ↔ x.state = .applied ∧ s.AppliedWith env x r) ∧
          (r.businessCommitted = true ↔ x.state = .applied ∧ s.AppliedWith env x r)) ∧
      ∀ t fs, Run (commandProtocol env) s fs t → ∀ x ∈ s.tables.executions,
        x ∈ t.tables.executions ∧
          ∀ r, r.commandId = x.id → (r ∈ t.tables.receipts ↔ r ∈ s.tables.receipts) := by
  have hReach : Reachable (commandProtocol env) s := ⟨_, es, ⟨business, rfl⟩, hRun⟩
  have hs := reachable_invariant hReach
  refine ⟨run_business_eq hRun, hs.confirmedPreviews_nodup, fun p hp => hs.mem_confirmedPreviews hp,
    ?_, ?_, fun x hx r hr hId => hs.receipt_applied hx hr hId, fun t fs hMore x hx => ?_⟩
  · exact List.pairwise_map.mpr (hs.executions.imp fun h => h.1)
  · rw [hs.receipts_commandId]
    exact List.pairwise_map.mpr (hs.executions.imp fun h => h.2)
  · exact run_receipts_stable hReach hMore hx

theorem preview_effect_applied_once_sample :
    sampleConfirmed.tables.business = 5000 ∧ (sampleConfirmed.confirmedPreviews (sampleEnvironment none)).Nodup ∧
      ∀ p ∈ sampleConfirmed.tables.previews,
        p.id ∈ sampleConfirmed.confirmedPreviews (sampleEnvironment none) ↔ p.status = .used := by
  obtain ⟨es, hRun⟩ := sampleConfirmed_reached
  obtain ⟨-, hOnce, hUsed, -⟩ := preview_effect_applied_once hRun
  exact ⟨rfl, hOnce, hUsed⟩

/-! ## Resolution -/

theorem Invariant.resolved_record {s : State β δ} (hs : Invariant env s) {sid : Nat} {q : ResolveCall}
    {r : Receipt} (hDone : s.sessions sid = .finished (.resolve q) (.receipt r)) :
    ∃ rec ∈ s.history, ∃ x, (rec.writes env).execution = some x ∧ x.key = q.key ∧
      (rec.writes env).receipt = some r := by
  have hOk := hs.ok sid
  rw [hDone] at hOk
  obtain ⟨x, hx, hKey, hId, hr⟩ := hOk
  obtain ⟨rec, hRec, hExecution, hReceipt⟩ := hs.receipt_record hx hr hId.symm
  exact ⟨rec, hRec, x, hExecution, hKey, hReceipt⟩

/-- After a resolution returned NOT_EXECUTED for a key, no commit under that key has an effect in
any continuation; and where a commit under the key had one, the only receipt that a resolution
returns is the receipt of that commit. -/
theorem resolved_key_closed {s : State β δ} {sid : Nat} {q : ResolveCall} {response : Response}
    (hReach : Reachable (commandProtocol env) s)
    (hDone : s.sessions sid = .finished (.resolve q) response) :
    (∀ r, response = .receipt r → r.executionStatus = .notExecuted →
      ∀ t es, Run (commandProtocol env) s es t → ∀ rec ∈ t.history, ∀ x,
        (rec.writes env).execution = some x → x.key = q.key → (rec.writes env).effect = none) ∧
      ∀ rec ∈ s.history, ∀ x, (rec.writes env).execution = some x → x.key = q.key →
        (rec.writes env).effect.isSome = true → ∀ r, response = .receipt r →
          (rec.writes env).receipt = some r ∧ r.executionStatus = .executed := by
  have hs := reachable_invariant hReach
  constructor
  · rintro r rfl hStatus t es hRun rec hRec x hx hKey
    obtain ⟨closing, hClosing, y, hy, hyKey, hReceipt⟩ := hs.resolved_record hDone
    have ht := reachable_invariant (hReach.run hRun)
    have hLater := (run_history_extends hReach hRun).subset hClosing
    obtain rfl := ht.record_unique hRec hLater hx hy (.inl (hKey.trans hyKey.symm))
    obtain ⟨-, hExecuted, -⟩ | ⟨-, -, -, hNone⟩ := (hs.records rec hClosing).applied hy hReceipt
    · rw [hStatus] at hExecuted
      cases hExecuted
    · exact hNone
  · rintro rec hRec x hx hKey hEffect r rfl
    obtain ⟨closing, hClosing, y, hy, hyKey, hReceipt⟩ := hs.resolved_record hDone
    obtain rfl := hs.record_unique hRec hClosing hx hy (.inl (hKey.trans hyKey.symm))
    obtain ⟨-, hExecuted, -⟩ | ⟨-, -, -, hNone⟩ := (hs.records rec hClosing).applied hy hReceipt
    · exact ⟨hReceipt, hExecuted⟩
    · rw [hNone] at hEffect
      cases hEffect

theorem resolved_key_closed_sample :
    sampleResolved.sessions 1 = .finished (.resolve sampleResolveCall) (.receipt (rejectedReceipt 2 fenceError)) ∧
    ∀ t es, Run (commandProtocol (sampleEnvironment none)) sampleResolved es t → ∀ rec ∈ t.history, ∀ x,
      (rec.writes (sampleEnvironment none)).execution = some x → x.key = sampleResolveCall.key →
        (rec.writes (sampleEnvironment none)).effect = none := by
  have hStart : Reachable (commandProtocol (sampleEnvironment none)) (initialState 0) :=
    .of_init ⟨0, rfl⟩
  have hDone : sampleResolved.sessions 1 =
      .finished (.resolve sampleResolveCall) (.receipt (rejectedReceipt 2 fenceError)) := rfl
  exact ⟨hDone, (resolved_key_closed (hStart.reaches sampleResolved_reached) hDone).1 _ rfl rfl⟩

end GreenPms
