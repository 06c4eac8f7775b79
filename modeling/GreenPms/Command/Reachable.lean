import Mathlib.Data.List.Pairwise
import GreenPms.Command.Invariant

/-! # The invariant of the command protocol

The committed rows are exactly what the commits of the history wrote, every key and every
command identity is held once among the committed rows and the transactions in flight, a locked
Preview row has one holder, and a Preview is `used` exactly when a commit confirmed it.
-/

namespace GreenPms

open TransitionSystem

variable {β δ : Type} {env : Environment β δ}

def CommitRecord.writes (env : Environment β δ) (rec : CommitRecord β δ) : WriteSet δ :=
  rec.phase.writes env

def CommitRecord.Confirms (env : Environment β δ) (rec : CommitRecord β δ) (previewId : Nat) : Prop :=
  ∃ e, (rec.writes env).effect = some e ∧ e.source = .confirmed previewId

structure RecordOk (env : Environment β δ) (rec : CommitRecord β δ) : Prop where
  point : ∃ call r, rec.phase.commitPoint = some (call, r)
  ok : PhaseOk env rec.before rec.phase
  after_eq : rec.after = rec.before.commit env.merge (rec.writes env)
  built : ∀ p ∈ rec.before.previews, PreviewBuilt env p

structure Invariant (env : Environment β δ) (s : State β δ) : Prop where
  ok : ∀ sid, PhaseOk env s.tables (s.sessions sid)
  pending : ∀ sid x, ((s.sessions sid).writes env).execution = some x →
    x.id < s.nextId ∧ ∀ y ∈ s.tables.executions, y.key ≠ x.key ∧ y.id ≠ x.id
  pendingApart : ∀ sid sid' x x', sid ≠ sid' → ((s.sessions sid).writes env).execution = some x →
    ((s.sessions sid').writes env).execution = some x' → x.key ≠ x'.key ∧ x.id ≠ x'.id
  executionIds : ∀ x ∈ s.tables.executions, x.id < s.nextId
  executions : s.tables.executions.Pairwise fun x y => x.key ≠ y.key ∧ x.id ≠ y.id
  newPreview : ∀ sid p, ((s.sessions sid).writes env).newPreview = some p →
    p.id < s.nextId ∧ ∀ q ∈ s.tables.previews, q.id ≠ p.id
  newPreviewApart : ∀ sid sid' p p', sid ≠ sid' → ((s.sessions sid).writes env).newPreview = some p →
    ((s.sessions sid').writes env).newPreview = some p' → p.id ≠ p'.id
  previewIds : ∀ p ∈ s.tables.previews, p.id < s.nextId
  previews : s.tables.previews.Pairwise fun p q => p.id ≠ q.id
  rows : ∀ sid sid' pid, sid ≠ sid' → (s.sessions sid).rowLock = some pid →
    (s.sessions sid').rowLock ≠ some pid
  executions_eq : s.tables.executions = s.history.filterMap fun rec => (rec.writes env).execution
  receipts_eq : s.tables.receipts = s.history.filterMap fun rec => (rec.writes env).receipt
  records : ∀ rec ∈ s.history, RecordOk env rec
  built : ∀ p ∈ s.tables.previews, PreviewBuilt env p
  used : ∀ p ∈ s.tables.previews, p.status = .used → ∃ rec ∈ s.history, rec.Confirms env p.id
  confirmed : ∀ rec ∈ s.history, ∀ pid, rec.Confirms env pid →
    ∃ p ∈ s.tables.previews, p.id = pid ∧ p.status = .used
  confirmedOnce : s.history.Pairwise fun a b => ∀ pid, a.Confirms env pid → ¬ b.Confirms env pid
  settled : ∀ rec ∈ s.history, (s.sessions rec.session).callOf = rec.phase.callOf ∧
    ∀ x, (rec.writes env).execution = some x → (s.sessions rec.session).Settled x.key
  sessionOnce : s.history.Pairwise fun a b => a.session ≠ b.session

theorem initialState_invariant (business : β) :
    Invariant env (initialState business : State β δ) := by
  constructor <;> simp [initialState, PhaseOk, Phase.writes, Phase.rowLock]

/-! ## Committed tables -/

@[simp] theorem Tables.setStatus_id (id : Nat) (status : PreviewStatus) (p : Preview) :
    (setStatus id status p).id = p.id := by
  unfold setStatus
  split <;> rfl

theorem Tables.setStatus_of_ne {id : Nat} {p : Preview} (status : PreviewStatus) (h : p.id ≠ id) :
    setStatus id status p = p := if_neg h

def Tables.rewritten (w : WriteSet δ) (p : Preview) : Preview :=
  match w.previewStatus with
  | some (id, status) => setStatus id status p
  | none => p

@[simp] theorem Tables.rewritten_id (w : WriteSet δ) (p : Preview) :
    (rewritten w p).id = p.id := by
  unfold rewritten
  split
  · exact setStatus_id ..
  · rfl

theorem Tables.commit_previews (merge : β → δ → β) (t : Tables β) (w : WriteSet δ) :
    (t.commit merge w).previews = t.previews.map (rewritten w) ++ w.newPreview.toList := by
  unfold commit rewritten
  cases w.previewStatus with
  | none => simp
  | some change => rfl

theorem Tables.preview?_some {t : Tables β} {id : Nat} {p : Preview} (h : t.preview? id = some p) :
    p ∈ t.previews ∧ p.id = id :=
  ⟨List.mem_of_find?_eq_some h, by simpa using List.find?_some h⟩

theorem Tables.preview?_commit {merge : β → δ → β} {t : Tables β} {w : WriteSet δ} {id : Nat}
    {p : Preview} (h : t.preview? id = some p) :
    (t.commit merge w).preview? id = some (rewritten w p) := by
  have hComp : (fun q : Preview => decide (q.id = id)) ∘ rewritten w = fun q => decide (q.id = id) := by
    funext q
    simp
  unfold preview? at h ⊢
  rw [commit_previews, List.find?_append, List.find?_map, hComp, h]
  rfl

theorem Tables.rewritten_subjectId (w : WriteSet δ) (p : Preview) :
    (rewritten w p).subjectId = p.subjectId := by
  unfold rewritten setStatus
  split
  · split <;> rfl
  · rfl

theorem ConfirmCall.key_rewritten (c : ConfirmCall) (w : WriteSet δ) (p : Preview) :
    c.key (Tables.rewritten w p) = c.key p := by
  unfold Tables.rewritten Tables.setStatus
  split
  · split <;> rfl
  · rfl

theorem Identified.commit {merge : β → δ → β} {t : Tables β} {w : WriteSet δ} {c : ConfirmCall}
    {key : CommandKey} (h : Identified t c key) : Identified (t.commit merge w) c key := by
  obtain ⟨p, hp, hSubject, hKey⟩ := h
  refine ⟨Tables.rewritten w p, Tables.preview?_commit hp, ?_, ?_⟩
  · rw [Tables.rewritten_subjectId, hSubject]
  · rw [ConfirmCall.key_rewritten, hKey]

theorem Identified.closable_eq {t : Tables β} {c : ConfirmCall} {key : CommandKey} {p : Preview}
    (h : Identified t c key) (hp : t.preview? c.previewId = some p) :
    closable t c key = decide (p.status = .opened) := by
  obtain ⟨q, hq, hSubject, rfl⟩ := h
  obtain rfl : p = q := Option.some.inj (hp.symm.trans hq)
  simp [closable, hp, hSubject, ConfirmCall.key]

theorem rewritten_eq {w : WriteSet δ} {p : Preview}
    (h : ∀ id status, w.previewStatus = some (id, status) → p.id ≠ id) : Tables.rewritten w p = p := by
  unfold Tables.rewritten
  split
  · exact Tables.setStatus_of_ne _ (h _ _ ‹_›)
  · rfl

theorem Tables.rewritten_not_opened {w : WriteSet δ} {p : Preview}
    (hStatus : ∀ id status, w.previewStatus = some (id, status) → status ≠ .opened)
    (h : p.status ≠ .opened) : (rewritten w p).status ≠ .opened := by
  unfold rewritten setStatus
  cases hChange : w.previewStatus with
  | none => exact h
  | some change =>
    by_cases hId : p.id = change.1
    · simpa [hId] using hStatus _ _ hChange
    · simpa [hId] using h

/-- The commit of a transaction that does not hold the row of a phase keeps what the phase knows. -/
theorem PhaseOk.commit {t : Tables β} {w : WriteSet δ} {φ : Phase δ} (h : PhaseOk env t φ)
    (hStatus : ∀ id status, w.previewStatus = some (id, status) → status ≠ .opened)
    (hRow : ∀ id status, w.previewStatus = some (id, status) → φ.rowLock ≠ some id) :
    PhaseOk env (t.commit env.merge w) φ := by
  have hGated : ∀ {c : ConfirmCall} {p : Preview}, φ.rowLock = some c.previewId →
      t.preview? c.previewId = some p → (t.commit env.merge w).preview? c.previewId = some p := by
    intro c p hLock hp
    rw [Tables.preview?_commit hp, rewritten_eq]
    intro id status hChange hId
    rw [(Tables.preview?_some hp).2] at hId
    exact hRow id status hChange (hId ▸ hLock)
  have hClosed : ∀ {c : ConfirmCall} {key : CommandKey} {e : Thrown} {closed : Bool},
      Identified t c key → closed = (closesPreview e && closable t c key) →
      (closed = true → φ.rowLock = some c.previewId) →
      closed = (closesPreview e && closable (t.commit env.merge w) c key) := by
    intro c key e closed hId hEq hLock
    obtain ⟨p, hp, -⟩ := id hId
    rw [hId.commit.closable_eq (Tables.preview?_commit hp)]
    rw [hId.closable_eq hp] at hEq
    by_cases hOpened : p.status = .opened
    · cases hCloses : closesPreview e with
      | false => simpa [hCloses] using hEq
      | true =>
        have hSame := hGated (hLock (by simp [hEq, hCloses, hOpened])) hp
        rw [Tables.preview?_commit hp] at hSame
        rw [Option.some.inj hSame, hEq, hCloses]
    · have := Tables.rewritten_not_opened hStatus hOpened
      simpa [hOpened, this] using hEq
  cases φ with
  | confirmGated c key _ _ p =>
    obtain ⟨hId, hp, hOpened⟩ := h
    exact ⟨hId.commit, hGated rfl hp, hOpened⟩
  | confirmApplied c key _ _ p _ _ =>
    obtain ⟨⟨hId, hp, hOpened⟩, hApplied⟩ := h
    exact ⟨⟨hId.commit, hGated rfl hp, hOpened⟩, hApplied⟩
  | rejectClosed c key e closed =>
    exact ⟨h.1.commit, hClosed h.1 h.2 fun hc => by simp [Phase.rowLock, hc]⟩
  | rejectInserted c key e closed _ =>
    exact ⟨h.1.commit, hClosed h.1 h.2 fun hc => by simp [Phase.rowLock, hc]⟩
  | confirmIdentified _ _ _ | confirmLocked _ _ _ | confirmChecked _ _ _ | confirmInserted _ _ _ _
  | confirmFailed _ _ _ _ | rejecting _ _ _ => exact Identified.commit h
  | finished call response =>
    cases call with
    | resolve q =>
      cases response with
      | receipt r =>
        obtain ⟨x, hx, hKey, hId, hr⟩ := h
        exact ⟨x, List.mem_append_left _ hx, hKey, hId, List.mem_append_left _ hr⟩
      | unknown | error _ | connectionLost => trivial
    | preview _ | quote _ | confirm _ => exact trivial
  | previewBuilt _ _ _ | previewInserted _ _ _ => exact h
  | idle | previewStart _ | previewLocked _ | quoteStart _ | quoteLocked _ | quoteInserted _ _ _
  | confirmStart _ | resolveStart _ | resolveLocked _ | resolveMissing _ | resolveInserted _ _ => trivial

/-! ## Local moves -/

theorem Phase.callOf_isSome_of_commitPoint {φ : Phase δ} {call : Call} {r : Receipt}
    (h : φ.commitPoint = some (call, r)) : φ.callOf = some call := by
  cases φ <;> simp_all [Phase.commitPoint, Phase.callOf, Phase.call?]

theorem Invariant.advance {s : State β δ} {sid : Nat} {φ : Phase δ} {nextId : Nat}
    (hs : Invariant env s) (h : AdvanceSpec env s sid φ nextId) (locks : Nat → Option Nat) :
    Invariant env
      { s with sessions := Function.update s.sessions sid φ, locks := locks, nextId := nextId } := by
  have hLe := h.nextId_le
  have hApart : ∀ other x x', other ≠ sid → (φ.writes env).execution = some x →
      ((s.sessions other).writes env).execution = some x' → x.key ≠ x'.key ∧ x.id ≠ x'.id := by
    intro other x x' hne hx hx'
    obtain ⟨hFree, hId, -⟩ | ⟨y, hy, hKey, hId⟩ := h.key x hx
    · have hOld := (hs.pending other x' hx').1
      refine ⟨fun hKey => hFree.2 other hne ?_, by omega⟩
      rw [State.pendingKey, hx', hKey]
      rfl
    · rw [← hKey, ← hId]
      exact hs.pendingApart sid other y x' hne.symm hy hx'
  have hNewApart : ∀ other p p', other ≠ sid → (φ.writes env).newPreview = some p →
      ((s.sessions other).writes env).newPreview = some p' → p'.id < p.id := by
    intro other p p' hne hp hp'
    have := (h.newPreview p hp).1
    have := (hs.newPreview other p' hp').1
    omega
  have hRows : ∀ other pid, other ≠ sid → φ.rowLock = some pid →
      (s.sessions other).rowLock ≠ some pid := by
    intro other pid hne hp
    obtain hFree | hHeld := h.row pid hp
    · exact hFree other hne
    · exact hs.rows sid other pid hne.symm hHeld
  refine {
    executionIds := fun x hx => (hs.executionIds x hx).trans_le hLe, executions := hs.executions,
    previewIds := fun p hp => (hs.previewIds p hp).trans_le hLe, previews := hs.previews,
    executions_eq := hs.executions_eq, receipts_eq := hs.receipts_eq, records := hs.records,
    built := hs.built, used := hs.used, confirmed := hs.confirmed,
    confirmedOnce := hs.confirmedOnce, sessionOnce := hs.sessionOnce,
    ok := ?_, pending := ?_, pendingApart := ?_, newPreview := ?_, newPreviewApart := ?_, rows := ?_,
    settled := ?_ }
  · intro a
    by_cases ha : a = sid
    · subst ha
      simpa using h.ok (hs.ok a)
    · simpa [ha] using hs.ok a
  · intro a x hx
    by_cases ha : a = sid
    · subst ha
      simp only [Function.update_self] at hx
      obtain ⟨hFree, hId, hLt⟩ | ⟨y, hy, hKey, hId⟩ := h.key x hx
      · refine ⟨by rw [hId]; exact hLt, fun y hy => ⟨hFree.1 y hy, ?_⟩⟩
        have := hs.executionIds y hy
        omega
      · obtain ⟨hOld, hDistinct⟩ := hs.pending a y hy
        rw [← hKey, ← hId]
        exact ⟨hOld.trans_le hLe, hDistinct⟩
    · simp only [Function.update_of_ne ha] at hx
      obtain ⟨hOld, hDistinct⟩ := hs.pending a x hx
      exact ⟨hOld.trans_le hLe, hDistinct⟩
  · intro a b x x' hne hx hx'
    by_cases ha : a = sid
    · subst ha
      simp only [Function.update_self] at hx
      simp only [Function.update_of_ne hne.symm] at hx'
      exact hApart b x x' hne.symm hx hx'
    · simp only [Function.update_of_ne ha] at hx
      by_cases hb : b = sid
      · subst hb
        simp only [Function.update_self] at hx'
        obtain ⟨hKey, hId⟩ := hApart a x' x hne hx' hx
        exact ⟨hKey.symm, hId.symm⟩
      · simp only [Function.update_of_ne hb] at hx'
        exact hs.pendingApart a b x x' hne hx hx'
  · intro a p hp
    by_cases ha : a = sid
    · subst ha
      simp only [Function.update_self] at hp
      obtain ⟨hGe, hLt⟩ := h.newPreview p hp
      exact ⟨hLt, fun q hq => by have := hs.previewIds q hq; omega⟩
    · simp only [Function.update_of_ne ha] at hp
      obtain ⟨hOld, hDistinct⟩ := hs.newPreview a p hp
      exact ⟨hOld.trans_le hLe, hDistinct⟩
  · intro a b p p' hne hp hp'
    by_cases ha : a = sid
    · subst ha
      simp only [Function.update_self] at hp
      simp only [Function.update_of_ne hne.symm] at hp'
      exact (hNewApart b p p' hne.symm hp hp').ne'
    · simp only [Function.update_of_ne ha] at hp
      by_cases hb : b = sid
      · subst hb
        simp only [Function.update_self] at hp'
        exact (hNewApart a p' p hne hp' hp).ne
      · simp only [Function.update_of_ne hb] at hp'
        exact hs.newPreviewApart a b p p' hne hp hp'
  · intro a b pid hne hp hp'
    by_cases ha : a = sid
    · subst ha
      simp only [Function.update_self] at hp
      simp only [Function.update_of_ne hne.symm] at hp'
      exact hRows b pid hne.symm hp hp'
    · simp only [Function.update_of_ne ha] at hp
      by_cases hb : b = sid
      · subst hb
        simp only [Function.update_self] at hp'
        exact hRows a pid hne hp' hp
      · simp only [Function.update_of_ne hb] at hp'
        exact hs.rows a b pid hne hp hp'
  · intro rec hRec
    obtain ⟨hCall, hSettled⟩ := hs.settled rec hRec
    by_cases ha : rec.session = sid
    · subst ha
      simp only [Function.update_self]
      have hRunning : s.sessions rec.session ≠ .idle := by
        intro hIdle
        obtain ⟨call, r, hPoint⟩ := (hs.records rec hRec).point
        rw [hIdle, Phase.callOf_isSome_of_commitPoint hPoint] at hCall
        cases hCall
      refine ⟨(h.call hRunning).trans hCall, fun x hx => h.settled x.key ?_ (hSettled x hx)⟩
      exact ⟨x, by rw [hs.executions_eq]; exact List.mem_filterMap.mpr ⟨rec, hRec, hx⟩, rfl⟩
    · simp only [Function.update_of_ne ha]
      exact ⟨hCall, hSettled⟩

/-! ## Commits -/

theorem Phase.commitPoint_writes (env : Environment β δ) {φ : Phase δ} {call : Call} {r : Receipt}
    (h : φ.commitPoint = some (call, r)) :
    ∃ x, (φ.writes env).execution = some x ∧ (φ.writes env).receipt = some r ∧ r.commandId = x.id ∧
      ∀ k, ¬ φ.Settled k := by
  cases φ with
  | previewInserted | quoteInserted | confirmApplied | rejectInserted | resolveInserted =>
    simp only [Phase.commitPoint, Option.some.injEq, Prod.mk.injEq] at h
    obtain ⟨-, rfl⟩ := h
    exact ⟨_, rfl, rfl, rfl, fun _ => id⟩
  | _ => simp [Phase.commitPoint] at h

theorem PhaseOk.previewStatus {t : Tables β} {φ : Phase δ} {id : Nat} {status : PreviewStatus}
    (hOk : PhaseOk env t φ) (h : (φ.writes env).previewStatus = some (id, status)) :
    φ.rowLock = some id ∧ status ≠ .opened ∧ (∃ p, t.preview? id = some p ∧ p.status = .opened) ∧
      (status = .used → ∃ e, (φ.writes env).effect = some e ∧ e.source = .confirmed id) := by
  cases φ with
  | confirmApplied c _ _ _ p _ _ =>
    obtain ⟨⟨-, hp, hOpened⟩, -⟩ := hOk
    have hId := (Tables.preview?_some hp).2
    simp only [Phase.writes, Option.some.injEq, Prod.mk.injEq] at h
    obtain ⟨rfl, rfl⟩ := h
    exact ⟨by rw [hId]; rfl, by decide, ⟨p, by rw [hId]; exact hp, hOpened⟩, fun _ => ⟨_, rfl, rfl⟩⟩
  | rejectClosed c key t closed | rejectInserted c key t closed _ =>
    obtain ⟨hId, hClosed⟩ := hOk
    simp only [Phase.writes, Option.ite_none_right_eq_some, Option.some.injEq, Prod.mk.injEq] at h
    obtain ⟨rfl, rfl, rfl⟩ := h
    obtain ⟨p, hp, -⟩ := id hId
    rw [hId.closable_eq hp, Bool.true_eq, Bool.and_eq_true, decide_eq_true_eq] at hClosed
    exact ⟨rfl, by decide, ⟨p, hp, hClosed.2⟩, fun h => by cases h⟩
  | _ => simp [Phase.writes] at h

theorem PhaseOk.confirms {t : Tables β} {φ : Phase δ} {e : AppliedEffect δ} {id : Nat}
    (hOk : PhaseOk env t φ) (h : (φ.writes env).effect = some e) (hSource : e.source = .confirmed id) :
    (φ.writes env).previewStatus = some (id, .used) ∧ ∃ p, t.preview? id = some p ∧ p.status = .opened := by
  cases φ with
  | confirmApplied c _ _ _ p _ _ =>
    obtain ⟨⟨-, hp, hOpened⟩, -⟩ := hOk
    have hId := (Tables.preview?_some hp).2
    simp only [Phase.writes, Option.some.injEq] at h
    subst h
    simp only [EffectSource.confirmed.injEq] at hSource
    subst hSource
    exact ⟨rfl, p, by rw [hId]; exact hp, hOpened⟩
  | previewInserted | quoteInserted =>
    simp only [Phase.writes, Option.some.injEq] at h
    subst h
    cases hSource
  | _ => simp [Phase.writes] at h

structure CommitSpec (env : Environment β δ) (after : Tables β) (φ φ' : Phase δ) : Prop where
  writes : φ'.writes env = {}
  row : φ'.rowLock = none
  ok : PhaseOk env after φ'
  call : φ'.callOf = φ.callOf
  settled : ∀ x, (φ.writes env).execution = some x → φ'.Settled x.key

theorem CommitSpec.reported {t : Tables β} {φ : Phase δ} {call : Call} {r : Receipt}
    (h : φ.commitPoint = some (call, r)) :
    CommitSpec env (t.commit env.merge (φ.writes env)) φ (.finished call (.receipt r)) := by
  refine ⟨rfl, rfl, ?_, (Phase.callOf_isSome_of_commitPoint h).symm, fun _ _ => trivial⟩
  cases φ with
  | resolveInserted q commandId =>
    simp only [Phase.commitPoint, Option.some.injEq, Prod.mk.injEq] at h
    obtain ⟨rfl, rfl⟩ := h
    exact ⟨⟨commandId, q.key, fenceHash env.runtime q, .rejected⟩, List.mem_append_right _ (by simp [Phase.writes]),
      rfl, rfl, List.mem_append_right _ (by simp [Phase.writes])⟩
  | previewInserted | quoteInserted | confirmApplied | rejectInserted =>
    simp only [Phase.commitPoint, Option.some.injEq, Prod.mk.injEq] at h
    obtain ⟨rfl, rfl⟩ := h
    trivial
  | _ => simp [Phase.commitPoint] at h

theorem CommitSpec.lost {t : Tables β} {φ : Phase δ} {call : Call} {r : Receipt}
    (hOk : PhaseOk env t φ) (h : φ.commitPoint = some (call, r)) :
    CommitSpec env (t.commit env.merge (φ.writes env)) φ (φ.afterLostCommit call) := by
  have hCall := Phase.callOf_isSome_of_commitPoint h
  cases φ with
  | confirmApplied c key _ commandId p _ _ =>
    refine ⟨rfl, rfl, ?_, rfl, ?_⟩
    · exact hOk.1.1.commit
    · intro x hx
      simp only [Phase.writes, Option.some.injEq] at hx
      subst hx
      exact ⟨rfl, rfl⟩
  | previewInserted | quoteInserted | rejectInserted | resolveInserted =>
    exact ⟨rfl, rfl, by cases call <;> trivial, hCall.symm, fun _ _ => trivial⟩
  | _ => simp [Phase.commitPoint] at h

theorem Tables.preview_unique {t : Tables β} (h : t.previews.Pairwise fun p q => p.id ≠ q.id)
    {p q : Preview} (hp : p ∈ t.previews) (hq : q ∈ t.previews) (hId : p.id = q.id) : p = q := by
  have : Std.Symm fun p q : Preview => p.id ≠ q.id := ⟨fun _ _ => Ne.symm⟩
  by_contra hne
  exact h.forall hp hq hne hId

theorem Tables.mem_commit_previews {merge : β → δ → β} {t : Tables β} {w : WriteSet δ} {q : Preview} :
    q ∈ (t.commit merge w).previews ↔
      (∃ p ∈ t.previews, rewritten w p = q) ∨ w.newPreview = some q := by
  simp [commit_previews]

theorem Tables.rewritten_used {w : WriteSet δ} {p : Preview} (h : (rewritten w p).status = .used) :
    p.status = .used ∨ w.previewStatus = some (p.id, .used) := by
  unfold rewritten at h
  cases hChange : w.previewStatus with
  | none => exact .inl (by simpa [hChange] using h)
  | some change =>
    obtain ⟨id, status⟩ := change
    simp only [hChange, setStatus] at h
    by_cases hId : p.id = id
    · rw [if_pos hId] at h
      exact .inr (by rw [hId, ← h])
    · rw [if_neg hId] at h
      exact .inl h

theorem PreviewBuilt.rewritten {w : WriteSet δ} {p : Preview} (h : PreviewBuilt env p) :
    PreviewBuilt env (Tables.rewritten w p) := by
  unfold Tables.rewritten Tables.setStatus
  split
  · split
    · exact h
    · exact h
  · exact h

theorem PhaseOk.newPreview {t : Tables β} {φ : Phase δ} {p : Preview} (hOk : PhaseOk env t φ)
    (h : (φ.writes env).newPreview = some p) : p.status = .opened ∧ PreviewBuilt env p := by
  cases φ with
  | previewInserted =>
    simp only [Phase.writes, Option.some.injEq] at h
    subst h
    exact hOk
  | _ => simp [Phase.writes] at h

theorem Invariant.commit {s : State β δ} {sid : Nat} {φ' : Phase δ} {call : Call} {r : Receipt}
    (hs : Invariant env s) (hPoint : (s.sessions sid).commitPoint = some (call, r))
    (h : CommitSpec env (s.tables.commit env.merge ((s.sessions sid).writes env)) (s.sessions sid) φ')
    (locks : Nat → Option Nat) : Invariant env (s.commit env sid φ' locks) := by
  obtain ⟨x, hx, hr, hReceipt, hRunning⟩ := Phase.commitPoint_writes env hPoint
  have hOwn := hs.ok sid
  have hNew := hs.pending sid x hx
  have hUnused : ∀ id status p, ((s.sessions sid).writes env).previewStatus = some (id, status) →
      p ∈ s.tables.previews → p.id = id → p.status = .opened := by
    intro id status p hStatus hp hId
    obtain ⟨-, -, ⟨q, hq, hOpened⟩, -⟩ := hOwn.previewStatus hStatus
    obtain ⟨hMem, hqId⟩ := Tables.preview?_some hq
    rw [Tables.preview_unique hs.previews hp hMem (hId.trans hqId.symm)]
    exact hOpened
  have hOthers : ∀ rec ∈ s.history, rec.session ≠ sid := by
    rintro rec hRec rfl
    obtain ⟨call', r', hPoint'⟩ := (hs.records rec hRec).point
    obtain ⟨x', hx', -⟩ := Phase.commitPoint_writes env hPoint'
    exact hRunning _ ((hs.settled rec hRec).2 x' hx')
  have hQuiet : ∀ a, ((s.commit env sid φ' locks).sessions a) = if a = sid then φ' else s.sessions a := by
    intro a
    simp [State.commit, Function.update_apply]
  have hOther : ∀ a y, (((s.commit env sid φ' locks).sessions a).writes env).execution = some y →
      a ≠ sid ∧ ((s.sessions a).writes env).execution = some y := by
    intro a y hy
    rw [hQuiet] at hy
    by_cases ha : a = sid
    · simp [ha, h.writes] at hy
    · exact ⟨ha, by simpa [ha] using hy⟩
  have hOtherPreview : ∀ a p, (((s.commit env sid φ' locks).sessions a).writes env).newPreview = some p →
      a ≠ sid ∧ ((s.sessions a).writes env).newPreview = some p := by
    intro a p hp
    rw [hQuiet] at hp
    by_cases ha : a = sid
    · simp [ha, h.writes] at hp
    · exact ⟨ha, by simpa [ha] using hp⟩
  have hOtherRow : ∀ a pid, ((s.commit env sid φ' locks).sessions a).rowLock = some pid →
      a ≠ sid ∧ (s.sessions a).rowLock = some pid := by
    intro a pid hp
    rw [hQuiet] at hp
    by_cases ha : a = sid
    · simp [ha, h.row] at hp
    · exact ⟨ha, by simpa [ha] using hp⟩
  have hExecutions : ∀ y, y ∈ (s.commit env sid φ' locks).tables.executions ↔
      y ∈ s.tables.executions ∨ y = x := by
    intro y
    simp [State.commit, Tables.commit, hx]
  constructor
  case ok =>
    intro a
    rw [hQuiet]
    by_cases ha : a = sid
    · rw [if_pos ha]
      exact h.ok
    · rw [if_neg ha]
      refine (hs.ok a).commit (fun id status hStatus => (hOwn.previewStatus hStatus).2.1) ?_
      intro id status hStatus
      exact hs.rows sid a id (Ne.symm ha) (hOwn.previewStatus hStatus).1
  case pending =>
    intro a y hy
    obtain ⟨hne, hy'⟩ := hOther a y hy
    obtain ⟨hOld, hDistinct⟩ := hs.pending a y hy'
    refine ⟨hOld, fun z hz => ?_⟩
    obtain hz | rfl := (hExecutions z).mp hz
    · exact hDistinct z hz
    · exact hs.pendingApart sid a z y hne.symm hx hy'
  case pendingApart =>
    intro a b y y' hne hy hy'
    exact hs.pendingApart a b y y' hne (hOther a y hy).2 (hOther b y' hy').2
  case executionIds =>
    intro y hy
    obtain hy | rfl := (hExecutions y).mp hy
    · exact hs.executionIds y hy
    · exact hNew.1
  case executions =>
    simp only [State.commit, Tables.commit, hx, Option.toList_some]
    refine List.pairwise_append.mpr ⟨hs.executions, List.pairwise_singleton .., ?_⟩
    intro y hy z hz
    rw [List.mem_singleton.mp hz]
    exact hNew.2 y hy
  case newPreview =>
    intro a p hp
    obtain ⟨hne, hp'⟩ := hOtherPreview a p hp
    obtain ⟨hOld, hDistinct⟩ := hs.newPreview a p hp'
    refine ⟨hOld, fun q hq => ?_⟩
    obtain ⟨q', hq', rfl⟩ | hq := Tables.mem_commit_previews.mp hq
    · rw [Tables.rewritten_id]
      exact hDistinct q' hq'
    · exact hs.newPreviewApart sid a q p hne.symm hq hp'
  case newPreviewApart =>
    intro a b p p' hne hp hp'
    exact hs.newPreviewApart a b p p' hne (hOtherPreview a p hp).2 (hOtherPreview b p' hp').2
  case previewIds =>
    intro q hq
    obtain ⟨q', hq', rfl⟩ | hq := Tables.mem_commit_previews.mp hq
    · rw [Tables.rewritten_id]
      exact hs.previewIds q' hq'
    · exact (hs.newPreview sid q hq).1
  case previews =>
    simp only [State.commit, Tables.commit_previews]
    refine List.pairwise_append.mpr ⟨List.pairwise_map.mpr ?_, ?_, ?_⟩
    · simpa using hs.previews
    · cases ((s.sessions sid).writes env).newPreview <;> simp
    · intro p hp q hq
      obtain ⟨p', hp', rfl⟩ := List.mem_map.mp hp
      rw [Tables.rewritten_id]
      exact (hs.newPreview sid q (by simpa using hq)).2 p' hp'
  case rows =>
    intro a b pid hne hp hp'
    exact hs.rows a b pid hne (hOtherRow a pid hp).2 (hOtherRow b pid hp').2
  case executions_eq =>
    simp only [State.commit, Tables.commit, List.filterMap_append, ← hs.executions_eq]
    simp [CommitRecord.writes, hx]
  case receipts_eq =>
    simp only [State.commit, Tables.commit, List.filterMap_append, ← hs.receipts_eq]
    simp [CommitRecord.writes, hr]
  case records =>
    intro rec hRec
    obtain hRec | rfl : rec ∈ s.history ∨ rec = _ := by simpa [State.commit] using hRec
    · exact hs.records rec hRec
    · exact ⟨⟨call, r, hPoint⟩, hOwn, rfl, hs.built⟩
  case built =>
    intro q hq
    obtain ⟨p, hp, rfl⟩ | hq := Tables.mem_commit_previews.mp hq
    · exact (hs.built p hp).rewritten
    · exact (hOwn.newPreview hq).2
  case used =>
    intro q hq hUsed
    obtain ⟨p, hp, rfl⟩ | hq := Tables.mem_commit_previews.mp hq
    · rw [Tables.rewritten_id]
      obtain hUsed | hStatus := Tables.rewritten_used hUsed
      · obtain ⟨rec, hRec, hConfirms⟩ := hs.used p hp hUsed
        exact ⟨rec, List.mem_append_left _ hRec, hConfirms⟩
      · obtain ⟨e, he, hSource⟩ := (hOwn.previewStatus hStatus).2.2.2 rfl
        exact ⟨_, List.mem_append_right _ (List.mem_singleton.mpr rfl), e, he, hSource⟩
    · rw [(hOwn.newPreview hq).1] at hUsed
      cases hUsed
  case confirmed =>
    intro rec hRec pid hConfirms
    obtain hRec | rfl : rec ∈ s.history ∨ rec = _ := by simpa [State.commit] using hRec
    · obtain ⟨p, hp, hId, hUsed⟩ := hs.confirmed rec hRec pid hConfirms
      refine ⟨p, Tables.mem_commit_previews.mpr (.inl ⟨p, hp, rewritten_eq ?_⟩), hId, hUsed⟩
      intro id status hStatus hSame
      have := hUnused id status p hStatus hp hSame
      rw [hUsed] at this
      cases this
    · obtain ⟨e, he, hSource⟩ := hConfirms
      obtain ⟨hStatus, p, hFound, -⟩ := hOwn.confirms he hSource
      obtain ⟨hp, hId⟩ := Tables.preview?_some hFound
      refine ⟨_, Tables.mem_commit_previews.mpr (.inl ⟨p, hp, rfl⟩), ?_, ?_⟩
      · rw [Tables.rewritten_id, hId]
      · simp [Tables.rewritten, hStatus, Tables.setStatus, hId]
  case confirmedOnce =>
    refine List.pairwise_append.mpr ⟨hs.confirmedOnce, List.pairwise_singleton .., ?_⟩
    intro rec hRec new hNewRec pid hConfirms hAgain
    rw [List.mem_singleton.mp hNewRec] at hAgain
    obtain ⟨p, hp, hId, hUsed⟩ := hs.confirmed rec hRec pid hConfirms
    obtain ⟨e, he, hSource⟩ := hAgain
    have := hUnused pid .used p (hOwn.confirms he hSource).1 hp hId
    rw [hUsed] at this
    cases this
  case settled =>
    intro rec hRec
    rw [hQuiet]
    obtain hRec | rfl : rec ∈ s.history ∨ rec = _ := by simpa [State.commit] using hRec
    · rw [if_neg (hOthers rec hRec)]
      exact hs.settled rec hRec
    · rw [if_pos rfl]
      exact ⟨h.call, h.settled⟩
  case sessionOnce =>
    refine List.pairwise_append.mpr ⟨hs.sessionOnce, List.pairwise_singleton .., ?_⟩
    intro rec hRec new hNewRec
    rw [List.mem_singleton.mp hNewRec]
    exact hOthers rec hRec

theorem Invariant.step {s t : State β δ} {e : Event} (hs : Invariant env s) (h : Step env s e t) :
    Invariant env t := by
  cases h with
  | advance h => exact hs.advance h.spec _
  | commit h => exact hs.commit h (.reported h) _
  | lostCommit h => exact hs.commit h (.lost (hs.ok _) h) _
  | lockLost | tick => cases hs; constructor <;> assumption

theorem reachable_invariant {s : State β δ} (h : Reachable (commandProtocol env) s) :
    Invariant env s :=
  h.invariant (by rintro s ⟨business, rfl⟩; exact initialState_invariant business)
    fun _ _ _ _ hs hStep => hs.step hStep

end GreenPms
