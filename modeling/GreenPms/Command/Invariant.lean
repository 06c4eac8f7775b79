import GreenPms.Command.Step

/-! # What a step of the command protocol can do

Every local move is described once, by `AdvanceSpec`: a key or a command identity that a
transaction newly holds was free, a newly locked Preview row was held by nobody, and what the
phase remembers about the tables still holds. The invariant is derived from that.
-/

namespace GreenPms

open TransitionSystem

variable {β δ : Type} {env : Environment β δ}

/-- A Preview row as `createCommandPreview` builds it. -/
def PreviewBuilt (env : Environment β δ) (p : Preview) : Prop :=
  ∃ view, buildCommandEffect env view p.commandType p.normalizedInput =
    .ok ⟨p.propertyId, p.effect, p.basisVersions, p.effectHash⟩

/-- The Preview of a confirmation is stored, and the key is the scope of its confirmation. -/
def Identified (t : Tables β) (c : ConfirmCall) (key : CommandKey) : Prop :=
  ∃ p, t.preview? c.previewId = some p ∧ p.subjectId = c.subjectId ∧ key = c.key p

def PhaseOk (env : Environment β δ) (t : Tables β) : Phase δ → Prop
  | .previewBuilt q input built => ∃ view, buildCommandEffect env view q.commandType input = .ok built
  | .previewInserted _ _ p => p.status = .opened ∧ PreviewBuilt env p
  | .confirmIdentified c key _ | .confirmLocked c key _ | .confirmChecked c key _
  | .confirmInserted c key _ _ | .confirmFailed c key _ _ | .rejecting c key _ => Identified t c key
  | .confirmGated c key _ _ p =>
      Identified t c key ∧ t.preview? c.previewId = some p ∧ p.status = .opened
  | .confirmApplied c key _ commandId p rebuilt delta =>
      (Identified t c key ∧ t.preview? c.previewId = some p ∧ p.status = .opened) ∧
        ∃ v v' denied, rebuildAndApply env v v' denied c p commandId = .ok (rebuilt, delta)
  | .rejectClosed c key e closed | .rejectInserted c key e closed _ =>
      Identified t c key ∧ closed = (closesPreview e && closable t c key)
  | .finished (.resolve q) (.receipt r) =>
      ∃ x ∈ t.executions, x.key = q.key ∧ x.id = r.commandId ∧ r ∈ t.receipts
  | _ => True

def Phase.callOf : Phase δ → Option Call
  | .finished call _ => some call
  | φ => φ.call?

/-- The phases in which a session may be after its own commit under `key`. -/
def Phase.Settled (key : CommandKey) : Phase δ → Prop
  | .finished _ _ => True
  | .confirmFailed _ k _ t => k = key ∧ t = .failure
  | .rejecting _ k t => k = key ∧ t = .failure
  | .rejectClosed _ k t closed => k = key ∧ t = .failure ∧ closed = false
  | _ => False

structure AdvanceSpec (env : Environment β δ) (s : State β δ) (sid : Nat) (φ : Phase δ)
    (nextId : Nat) : Prop where
  nextId_le : s.nextId ≤ nextId
  key : ∀ x, (φ.writes env).execution = some x →
    (s.KeyFree env sid x.key ∧ x.id = s.nextId ∧ s.nextId < nextId) ∨
      ∃ y, ((s.sessions sid).writes env).execution = some y ∧ y.key = x.key ∧ y.id = x.id
  newPreview : ∀ p, (φ.writes env).newPreview = some p → s.nextId ≤ p.id ∧ p.id < nextId
  row : ∀ pid, φ.rowLock = some pid → s.RowFree sid pid ∨ (s.sessions sid).rowLock = some pid
  ok : PhaseOk env s.tables (s.sessions sid) → PhaseOk env s.tables φ
  call : s.sessions sid ≠ .idle → φ.callOf = (s.sessions sid).callOf
  settled : ∀ k, (∃ x ∈ s.tables.executions, x.key = k) →
    (s.sessions sid).Settled k → φ.Settled k

theorem Phase.callOf_of_call? {φ : Phase δ} {call : Call} (h : φ.call? = some call) :
    φ.callOf = some call := by
  cases φ <;> simp_all [Phase.call?, Phase.callOf]

theorem Phase.call?_of_confirming {φ : Phase δ} {c : ConfirmCall} {key : CommandKey}
    {command : CommandType} (h : φ.confirming = some (c, key, command)) :
    φ.call? = some (.confirm c) := by
  cases φ <;> simp_all [Phase.call?, Phase.confirming]

theorem Phase.not_settled_of_confirming {φ : Phase δ} {c : ConfirmCall} {key k : CommandKey}
    {command : CommandType} (h : φ.confirming = some (c, key, command)) : ¬ φ.Settled k := by
  cases φ <;> simp_all [Phase.Settled, Phase.confirming]

theorem PhaseOk.identified {t : Tables β} {φ : Phase δ} {c : ConfirmCall} {key : CommandKey}
    {command : CommandType} (h : PhaseOk env t φ) (hConfirming : φ.confirming = some (c, key, command)) :
    Identified t c key := by
  cases φ <;> simp_all [PhaseOk, Phase.confirming]

theorem AdvanceSpec.finish {s : State β δ} {sid : Nat} {call : Call} {response : Response}
    (hCall : (s.sessions sid).call? = some call)
    (hOk : PhaseOk env s.tables (.finished call response : Phase δ)) :
    AdvanceSpec env s sid (.finished call response) s.nextId where
  nextId_le := le_rfl
  key x hx := by simp [Phase.writes] at hx
  newPreview p hp := by simp [Phase.writes] at hp
  row pid hp := by simp [Phase.rowLock] at hp
  ok _ := hOk
  call _ := by rw [Phase.callOf_of_call? hCall]; rfl
  settled _ _ _ := trivial

theorem AdvanceSpec.quiet {s : State β δ} {sid : Nat} {φ : Phase δ}
    (hWrites : φ.writes env = {}) (hRow : φ.rowLock = none)
    (hOk : PhaseOk env s.tables (s.sessions sid) → PhaseOk env s.tables φ)
    (hCall : s.sessions sid ≠ .idle → φ.callOf = (s.sessions sid).callOf)
    (hSettled : ∀ k, ¬ (s.sessions sid).Settled k) :
    AdvanceSpec env s sid φ s.nextId where
  nextId_le := le_rfl
  key x hx := by simp [hWrites] at hx
  newPreview p hp := by simp [hWrites] at hp
  row pid hp := by simp [hRow] at hp
  ok := hOk
  call := hCall
  settled k _ h := absurd h (hSettled k)

theorem receiptByCommand_some {t : Tables β} {commandId : Nat} {r : Receipt}
    (h : receiptByCommand env t commandId = .ok (some r)) : r ∈ t.receipts ∧ r.commandId = commandId := by
  unfold receiptByCommand at h
  cases hFind : t.receipt? commandId with
  | none => simp [hFind] at h
  | some r' =>
    rw [hFind] at h
    cases hRead : env.receiptReadError r' with
    | some e => simp [hRead] at h
    | none =>
      simp only [hRead, Except.ok.injEq, Option.some.injEq] at h
      subst h
      exact ⟨List.mem_of_find?_eq_some hFind, by simpa using List.find?_some hFind⟩

theorem execution?_some {t : Tables β} {key : CommandKey} {x : Execution}
    (h : t.execution? key = some x) : x ∈ t.executions ∧ x.key = key :=
  ⟨List.mem_of_find?_eq_some h, by simpa using List.find?_some h⟩

theorem previewGate_ok {now : Nat} {t : Tables β} {c : ConfirmCall} {key : CommandKey}
    {command : CommandType} {p : Preview} (h : previewGate env now t c key command = .ok p) :
    t.preview? c.previewId = some p ∧ p.status = .opened := by
  unfold previewGate at h
  cases hFind : t.preview? c.previewId with
  | none => simp [hFind] at h
  | some q =>
    simp only [hFind] at h
    by_cases hOpened : q.status = .opened
    · suffices hq : q = p from ⟨congrArg some hq, hq ▸ hOpened⟩
      repeat' split at h
      all_goals first
        | cases h; rfl
        | cases h
    · repeat' split at h
      all_goals first
        | exact absurd ‹¬ q.status ≠ .opened› (not_not_intro hOpened)
        | cases h

theorem visibleResult_receipt {t : Tables β} {x : Execution} {r : Receipt}
    (h : visibleResult env t x = .receipt r) : r ∈ t.receipts ∧ r.commandId = x.id := by
  unfold visibleResult at h
  cases hRead : receiptByCommand env t x.id with
  | error e => simp [hRead] at h
  | ok o =>
    cases o with
    | none => simp [hRead] at h
    | some r' =>
      simp only [hRead, Response.receipt.injEq] at h
      subst h
      exact receiptByCommand_some hRead

theorem AdvanceSpec.afterReplay {s : State β δ} {sid : Nat} {c : ConfirmCall} {key : CommandKey}
    {command : CommandType} {next : Phase δ} {result : Except Thrown (Option Receipt)}
    (hConfirming : (s.sessions sid).confirming = some (c, key, command))
    (hNext : AdvanceSpec env s sid next s.nextId) :
    AdvanceSpec env s sid (afterReplay c key command next result) s.nextId := by
  have hCall := Phase.call?_of_confirming hConfirming
  match result with
  | .error t =>
    exact .quiet rfl rfl (fun h => h.identified hConfirming)
      (fun _ => by rw [Phase.callOf_of_call? hCall]; rfl)
      (fun _ => Phase.not_settled_of_confirming hConfirming)
  | .ok (some r) => exact .finish hCall trivial
  | .ok none => exact hNext

theorem Advance.spec {s : State β δ} {sid : Nat} {φ : Phase δ} {locks : Nat → Option Nat}
    {nextId : Nat} (h : Advance env s sid φ locks nextId) : AdvanceSpec env s sid φ nextId := by
  cases h with
  | start call h =>
    cases call <;> exact .quiet rfl rfl (fun _ => trivial) (fun hne => absurd h hne)
      (fun k => by simp [h, Phase.Settled])
  | fail call t hCall hEnds => exact .finish hCall (by cases call <;> trivial)
  | disconnect call hCall => exact .finish hCall (by cases call <;> trivial)
  | interrupt c key command t hConfirming hFailure =>
    exact .quiet rfl rfl (fun h => h.identified hConfirming)
      (fun _ => by rw [Phase.callOf_of_call? (Phase.call?_of_confirming hConfirming)]; rfl)
      (fun _ => Phase.not_settled_of_confirming hConfirming)
  | lock key φ hPoint hFree =>
    cases hφ : s.sessions sid <;> simp only [hφ, Phase.lockPoint, Option.some.injEq, Prod.mk.injEq,
      reduceCtorEq] at hPoint
    all_goals
      obtain ⟨-, rfl⟩ := hPoint
      exact .quiet rfl rfl (fun h => by rw [hφ] at h; exact h) (fun _ => by rw [hφ]; rfl)
        (fun _ => by simp [hφ, Phase.Settled])
  | resolveBusy q hφ hBusy => exact .finish (by rw [hφ]; rfl) trivial
  | replay call key requestHash r hScope hReplay =>
    cases hφ : s.sessions sid <;> simp only [hφ, Phase.replayScope, Option.some.injEq, Prod.mk.injEq,
      reduceCtorEq] at hScope
    all_goals
      obtain ⟨rfl, -, -⟩ := hScope
      exact .finish (by rw [hφ]; rfl) trivial
  | previewBuild q view input built hφ hBuilt =>
    exact .quiet rfl rfl (fun _ => ⟨view, hBuilt⟩) (fun _ => by rw [hφ]; rfl)
      (fun _ => by simp [hφ, Phase.Settled])
  | previewInsert q input built hφ hFree =>
    refine ⟨by omega, ?_, ?_, ?_, ?_, fun _ => by rw [hφ]; rfl, ?_⟩
    · intro x hx
      simp only [Phase.writes, Option.some.injEq] at hx
      subst hx
      exact .inl ⟨hFree, rfl, by omega⟩
    · intro p hp
      simp only [Phase.writes, Option.some.injEq] at hp
      subst hp
      simp [newPreview]
    · intro pid hp
      simp [Phase.rowLock] at hp
    · intro hOk
      rw [hφ] at hOk
      obtain ⟨view, hBuilt⟩ := hOk
      exact ⟨rfl, view, hBuilt⟩
    · intro k _ hk
      simp [hφ, Phase.Settled] at hk
  | quoteInsert q view delta hφ hFree hQuote =>
    refine ⟨by omega, ?_, ?_, ?_, fun _ => trivial, fun _ => by rw [hφ]; rfl, ?_⟩
    · intro x hx
      simp only [Phase.writes, Option.some.injEq] at hx
      subst hx
      exact .inl ⟨hFree, rfl, by omega⟩
    · intro p hp
      simp [Phase.writes] at hp
    · intro pid hp
      simp [Phase.rowLock] at hp
    · intro k _ hk
      simp [hφ, Phase.Settled] at hk
  | confirmMissing c denied hφ hMissing => exact .finish (by rw [hφ]; rfl) trivial
  | confirmForeign c p hφ hFound hSubject => exact .finish (by rw [hφ]; rfl) trivial
  | confirmIdentify c p hφ hFound hSubject =>
    exact .quiet rfl rfl (fun _ => ⟨p, hFound, hSubject, rfl⟩) (fun _ => by rw [hφ]; rfl)
      (fun _ => by simp [hφ, Phase.Settled])
  | confirmCheck c key command denied φ hφ hNext =>
    subst hNext
    exact .afterReplay (by rw [hφ]; rfl)
      (.quiet rfl rfl (fun h => by rw [hφ] at h; exact h) (fun _ => by rw [hφ]; rfl)
        (fun _ => by simp [hφ, Phase.Settled]))
  | confirmInsert c key command hφ hFree =>
    refine ⟨by omega, ?_, ?_, ?_, fun h => by rw [hφ] at h; exact h, fun _ => by rw [hφ]; rfl, ?_⟩
    · intro x hx
      simp only [Phase.writes, Option.some.injEq] at hx
      subst hx
      exact .inl ⟨hFree, rfl, by omega⟩
    · intro p hp
      simp [Phase.writes] at hp
    · intro pid hp
      simp [Phase.rowLock] at hp
    · intro k _ hk
      simp [hφ, Phase.Settled] at hk
  | confirmConflict c key command x φ hφ hTaken hNext =>
    subst hNext
    exact .afterReplay (by rw [hφ]; rfl)
      (.quiet rfl rfl (fun h => by rw [hφ] at h; exact h) (fun _ => by rw [hφ]; rfl)
        (fun _ => by simp [hφ, Phase.Settled]))
  | confirmGateError c key command commandId t hφ hRow hGate =>
    exact .quiet rfl rfl (fun h => by rw [hφ] at h; exact h) (fun _ => by rw [hφ]; rfl)
      (fun _ => by simp [hφ, Phase.Settled])
  | confirmGate c key command commandId p hφ hRow hGate =>
    refine ⟨le_rfl, ?_, ?_, ?_, fun h => ⟨by rw [hφ] at h; exact h, previewGate_ok hGate⟩,
      fun _ => by rw [hφ]; rfl, ?_⟩
    · intro x hx
      exact .inr ⟨x, by rw [hφ]; exact hx, rfl, rfl⟩
    · intro p hp
      simp [Phase.writes] at hp
    · intro pid hp
      simp only [Phase.rowLock, Option.some.injEq] at hp
      exact .inl (hp ▸ hRow)
    · intro k _ hk
      simp [hφ, Phase.Settled] at hk
  | confirmApplyError c key command commandId p v v' denied t hφ hApply =>
    exact .quiet rfl rfl (fun h => by rw [hφ] at h; exact h.1) (fun _ => by rw [hφ]; rfl)
      (fun _ => by simp [hφ, Phase.Settled])
  | confirmApply c key command commandId p v v' denied rebuilt delta hφ hApply =>
    refine ⟨le_rfl, ?_, ?_, ?_, ?_, fun _ => by rw [hφ]; rfl, ?_⟩
    · intro x hx
      simp only [Phase.writes, Option.some.injEq] at hx
      subst hx
      exact .inr ⟨⟨commandId, key, c.requestHash env.runtime, .executing⟩, by rw [hφ]; rfl, rfl, rfl⟩
    · intro p hp
      simp [Phase.writes] at hp
    · intro pid hp
      exact .inr (by rw [hφ]; exact hp)
    · intro hOk
      rw [hφ] at hOk
      exact ⟨hOk, v, v', denied, hApply⟩
    · intro k _ hk
      simp [hφ, Phase.Settled] at hk
  | confirmRethrow c key command t hφ hRethrown => exact .finish (by rw [hφ]; rfl) trivial
  | confirmReject c key command t hφ hRecorded =>
    refine ⟨le_rfl, ?_, ?_, ?_, fun h => by rw [hφ] at h; exact h, fun _ => by rw [hφ]; rfl, ?_⟩
    · intro x hx
      simp [Phase.writes] at hx
    · intro p hp
      simp [Phase.writes] at hp
    · intro pid hp
      simp [Phase.rowLock] at hp
    · intro k _ hk
      rw [hφ] at hk
      exact hk
  | rejectClose c key t hφ hRow =>
    refine ⟨le_rfl, ?_, ?_, ?_, ?_, fun _ => by rw [hφ]; rfl, ?_⟩
    · intro x hx
      simp [Phase.writes] at hx
    · intro p hp
      simp [Phase.writes] at hp
    · intro pid hp
      simp only [Phase.rowLock, Option.ite_none_right_eq_some, Bool.and_eq_true,
        Option.some.injEq] at hp
      exact .inl (hp.2 ▸ hRow hp.1.1)
    · intro hOk
      rw [hφ] at hOk
      exact ⟨hOk, rfl⟩
    · intro k _ hk
      rw [hφ] at hk
      obtain ⟨rfl, rfl⟩ := hk
      exact ⟨rfl, rfl, rfl⟩
  | rejectInsert c key t closed hφ hFree =>
    refine ⟨by omega, ?_, ?_, ?_, fun h => by rw [hφ] at h; exact h, fun _ => by rw [hφ]; rfl, ?_⟩
    · intro x hx
      simp only [Phase.writes, Option.some.injEq] at hx
      subst hx
      exact .inl ⟨hFree, rfl, by omega⟩
    · intro p hp
      simp [Phase.writes] at hp
    · intro pid hp
      exact .inr (by rw [hφ]; exact hp)
    · rintro k ⟨x, hx, hKey⟩ hk
      rw [hφ] at hk
      exact absurd (hKey.trans hk.1.symm) (hFree.1 x hx)
  | rejectConflict c key t closed x hφ hTaken => exact .finish (by rw [hφ]; rfl) trivial
  | resolveFound q x hφ hFound =>
    refine .finish (by rcases hφ with hφ | hφ <;> rw [hφ] <;> rfl) ?_
    obtain ⟨hMem, hKey⟩ := execution?_some hFound
    cases hVisible : visibleResult env s.tables x with
    | receipt r =>
      obtain ⟨hReceipt, hId⟩ := visibleResult_receipt hVisible
      exact ⟨x, hMem, hKey, hId.symm, hReceipt⟩
    | unknown => trivial
    | error t => trivial
    | connectionLost => trivial
  | resolveUnsupported q hφ hMissing hType => exact .finish (by rw [hφ]; rfl) trivial
  | resolveMiss q hφ hMissing hType =>
    exact .quiet rfl rfl (fun _ => trivial) (fun _ => by rw [hφ]; rfl)
      (fun _ => by simp [hφ, Phase.Settled])
  | resolveInsert q hφ hFree =>
    refine ⟨by omega, ?_, ?_, ?_, fun _ => trivial, fun _ => by rw [hφ]; rfl, ?_⟩
    · intro x hx
      simp only [Phase.writes, Option.some.injEq] at hx
      subst hx
      exact .inl ⟨hFree, rfl, by omega⟩
    · intro p hp
      simp [Phase.writes] at hp
    · intro pid hp
      simp [Phase.rowLock] at hp
    · intro k _ hk
      simp [hφ, Phase.Settled] at hk

end GreenPms
