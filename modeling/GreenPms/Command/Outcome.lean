import GreenPms.Command.Guarantees
import GreenPms.Library.Indexes

/-! # The outcome of a confirmation

A confirmation commits at most one transaction. Either it applied the effect whose canonical
content is that of the stored Preview, or it recorded a rejection that changed nothing but the
status of the Preview. Equal digests stand for equal contents, which is assumed of the texts
that confirmations have compared.
-/

namespace GreenPms

open TransitionSystem

variable {β δ : Type} {env : Environment β δ}

/-- The canonical content that `finalize` takes the digest of. -/
def effectText (rt : JsRuntime) (effect basisVersions : Json) : String :=
  Json.stableJson rt (.obj [("effect", effect), ("basisVersions", basisVersions)])

/-- The stored and the rebuilt content whose digests a committed confirmation found equal. -/
def CommitRecord.comparedTexts (rt : JsRuntime) (rec : CommitRecord β δ) : List String :=
  match rec.phase with
  | .confirmApplied _ _ _ _ p rebuilt _ =>
      [effectText rt p.effect p.basisVersions, effectText rt rebuilt.effect rebuilt.basisVersions]
  | _ => []

def State.comparedTexts (rt : JsRuntime) (s : State β δ) : List String :=
  s.history.flatMap fun rec => rec.comparedTexts rt

def CollisionFree (rt : JsRuntime) (texts : List String) : Prop :=
  ∀ a ∈ texts, ∀ b ∈ texts, rt.sha256 a = rt.sha256 b → a = b

instance (rt : JsRuntime) (texts : List String) : Decidable (CollisionFree rt texts) :=
  inferInstanceAs (Decidable (∀ a ∈ texts, ∀ b ∈ texts, rt.sha256 a = rt.sha256 b → a = b))

structure ConfirmedAsPreviewed (env : Environment β δ) (c : ConfirmCall) (rec : CommitRecord β δ)
    (commandId : Nat) (p : Preview) (rebuilt : BuiltEffect) (delta : δ) : Prop where
  found : rec.before.preview? c.previewId = some p
  opened : p.status = .opened
  built : PreviewBuilt env p
  content : effectText env.runtime rebuilt.effect rebuilt.basisVersions =
    effectText env.runtime p.effect p.basisVersions
  applied : ∃ v v' result,
    buildCommandEffect env v p.commandType p.normalizedInput = .ok rebuilt ∧
      env.applyCommand v' ⟨p.commandType, p.normalizedInput, rebuilt.effect, c.confirmation.reason,
        commandId, p.id⟩ = .ok result ∧
      env.bindExternalPayments v' result commandId (externalPayments rebuilt.basisVersions) = .ok delta
  after_eq : rec.after =
    { previews := rec.before.previews.map (Tables.setStatus c.previewId .used)
      executions := rec.before.executions ++
        [⟨commandId, c.key p, c.requestHash env.runtime, .applied⟩]
      receipts := rec.before.receipts ++ [⟨commandId, .executed, true, none⟩]
      business := env.merge rec.before.business delta }

/-- A recorded rejection changed no table but executions, receipts and the Preview's status. -/
structure RejectedWithoutEffect (env : Environment β δ) (c : ConfirmCall) (rec : CommitRecord β δ)
    (commandId : Nat) (p : Preview) (t : Thrown) (closed : Bool) : Prop where
  found : rec.before.preview? c.previewId = some p
  closed_iff : closed = true ↔ ((rejectionError t).code = .previewStale ∧ t ≠ .historicalPreviewReadOnly) ∧
    p.status = .opened
  after_eq : rec.after =
    { previews := if closed then rec.before.previews.map (Tables.setStatus c.previewId .expired)
        else rec.before.previews
      executions := rec.before.executions ++
        [⟨commandId, c.key p, c.requestHash env.runtime, .rejected⟩]
      receipts := rec.before.receipts ++ [⟨commandId, .notExecuted, false, some (rejectionError t)⟩]
      business := rec.before.business }

theorem buildCommandEffect_hash {view : β} {command : CommandType} {input : Json} {built : BuiltEffect}
    (h : buildCommandEffect env view command input = .ok built) :
    built.effectHash = env.runtime.sha256 (effectText env.runtime built.effect built.basisVersions) := by
  unfold buildCommandEffect at h
  cases hBuild : env.buildEffect view command input with
  | error e => simp [hBuild, Except.map] at h
  | ok result =>
    simp only [hBuild, Except.map, Except.ok.injEq] at h
    subst h
    rfl

/-- A rebuild that went through has the digest of the Preview and was applied as it was rebuilt. -/
theorem rebuildAndApply_ok {v v' : β} {denied : Option Thrown} {c : ConfirmCall} {p : Preview}
    {commandId : Nat} {rebuilt : BuiltEffect} {delta : δ}
    (h : rebuildAndApply env v v' denied c p commandId = .ok (rebuilt, delta)) :
    buildCommandEffect env v p.commandType p.normalizedInput = .ok rebuilt ∧
      rebuilt.effectHash = p.effectHash ∧ ∃ result,
        env.applyCommand v' ⟨p.commandType, p.normalizedInput, rebuilt.effect, c.confirmation.reason,
          commandId, p.id⟩ = .ok result ∧
        env.bindExternalPayments v' result commandId (externalPayments rebuilt.basisVersions) =
          .ok delta := by
  unfold rebuildAndApply at h
  cases hBuild : buildCommandEffect env v p.commandType p.normalizedInput with
  | error e => simp [hBuild] at h
  | ok built =>
    cases denied with
    | some e => simp [hBuild] at h
    | none =>
      simp only [hBuild] at h
      by_cases hHash : built.effectHash = p.effectHash
      · rw [if_neg (not_not_intro hHash)] at h
        cases hApply : env.applyCommand v' ⟨p.commandType, p.normalizedInput, built.effect,
            c.confirmation.reason, commandId, p.id⟩ with
        | error e => simp [hApply] at h
        | ok result =>
          simp only [hApply] at h
          cases hBind : env.bindExternalPayments v' result commandId
              (externalPayments built.basisVersions) with
          | error e => simp [hBind] at h
          | ok bound =>
            simp only [hBind] at h
            have hBoth : built = rebuilt ∧ bound = delta := by
              split at h
              · split at h
                · cases h
                · simpa using h
              · simpa using h
            obtain ⟨rfl, rfl⟩ := hBoth
            exact ⟨rfl, hHash, result, hApply, hBind⟩
      · rw [if_pos hHash] at h
        cases h

theorem Invariant.confirmed_outcome {s : State β δ} (hs : Invariant env s)
    (hDigest : CollisionFree env.runtime (s.comparedTexts env.runtime)) {rec : CommitRecord β δ}
    (hRec : rec ∈ s.history) {c : ConfirmCall} {key : CommandKey} {command : CommandType}
    {commandId : Nat} {p : Preview} {rebuilt : BuiltEffect} {delta : δ}
    (hPhase : rec.phase = .confirmApplied c key command commandId p rebuilt delta) :
    ConfirmedAsPreviewed env c rec commandId p rebuilt delta := by
  have hRecord := hs.records rec hRec
  have hOk := hRecord.ok
  rw [hPhase] at hOk
  obtain ⟨⟨⟨q, hq, -, rfl⟩, hFound, hOpened⟩, v, v', denied, hApply⟩ := hOk
  obtain rfl : q = p := Option.some.inj (hq.symm.trans hFound)
  obtain ⟨hBuild, hHash, result, hApplied, hBound⟩ := rebuildAndApply_ok hApply
  obtain ⟨view, hStored⟩ := hRecord.built q (Tables.preview?_some hFound).1
  have hMem : ∀ text ∈ rec.comparedTexts env.runtime, text ∈ s.comparedTexts env.runtime :=
    fun text hText => List.mem_flatMap.mpr ⟨rec, hRec, hText⟩
  refine ⟨hFound, hOpened, ⟨view, hStored⟩, ?_, ⟨v, v', result, hBuild, hApplied, hBound⟩, ?_⟩
  · refine hDigest _ (hMem _ ?_) _ (hMem _ ?_) ?_
    · simp [CommitRecord.comparedTexts, hPhase]
    · simp [CommitRecord.comparedTexts, hPhase]
    · rw [← buildCommandEffect_hash hBuild, hHash]
      exact buildCommandEffect_hash hStored
  · rw [hRecord.after_eq, CommitRecord.writes, hPhase]
    simp [Tables.commit, Phase.writes, (Tables.preview?_some hFound).2, executedReceipt]

theorem Invariant.rejected_outcome {s : State β δ} (hs : Invariant env s) {rec : CommitRecord β δ}
    (hRec : rec ∈ s.history) {c : ConfirmCall} {key : CommandKey} {t : Thrown} {closed : Bool}
    {commandId : Nat} (hPhase : rec.phase = .rejectInserted c key t closed commandId) :
    ∃ p, RejectedWithoutEffect env c rec commandId p t closed := by
  have hRecord := hs.records rec hRec
  have hOk := hRecord.ok
  rw [hPhase] at hOk
  obtain ⟨hId, hClosed⟩ := hOk
  obtain ⟨p, hFound, -, rfl⟩ := id hId
  refine ⟨p, hFound, ?_, ?_⟩
  · rw [hClosed, hId.closable_eq hFound]
    simp [closesPreview]
  · rw [hRecord.after_eq, CommitRecord.writes, hPhase]
    cases closed <;> simp [Tables.commit, Phase.writes, rejectedReceipt]

/-- A confirmation commits nothing, or what was previewed with the Preview used, or a rejection
that closes the Preview exactly when a stale Preview was found open, the read-only rejection of
a historical Preview apart. -/
theorem confirmation_outcome {s : State β δ} {sid : Nat} {c : ConfirmCall}
    (hReach : Reachable (commandProtocol env) s)
    (hCall : (s.sessions sid).callOf = some (.confirm c))
    (hDigest : CollisionFree env.runtime (s.comparedTexts env.runtime)) :
    s.history.filter (fun rec => rec.session = sid) = [] ∨
      ∃ rec, s.history.filter (fun rec => rec.session = sid) = [rec] ∧
        ((∃ commandId p rebuilt delta, ConfirmedAsPreviewed env c rec commandId p rebuilt delta) ∨
          ∃ commandId p t closed, RejectedWithoutEffect env c rec commandId p t closed) := by
  have hs := reachable_invariant hReach
  by_cases hNone : ∃ rec ∈ s.history, rec.session = sid
  · obtain ⟨rec, hRec, rfl⟩ := hNone
    refine .inr ⟨rec, Indexes.filter_eq_singleton hs.sessionOnce hRec, ?_⟩
    rw [(hs.settled rec hRec).1] at hCall
    obtain ⟨call, r, hPoint⟩ := (hs.records rec hRec).point
    cases hPhase : rec.phase with
    | confirmApplied c' key command commandId p rebuilt delta =>
      obtain rfl : c' = c := by simpa [hPhase, Phase.callOf, Phase.call?] using hCall
      exact .inl ⟨_, _, _, _, hs.confirmed_outcome hDigest hRec hPhase⟩
    | rejectInserted c' key t closed commandId =>
      obtain rfl : c' = c := by simpa [hPhase, Phase.callOf, Phase.call?] using hCall
      obtain ⟨p, hRejected⟩ := hs.rejected_outcome hRec hPhase
      exact .inr ⟨_, p, t, closed, hRejected⟩
    | previewInserted | quoteInserted | resolveInserted =>
      simp [hPhase, Phase.callOf, Phase.call?] at hCall
    | _ => simp [hPhase, Phase.commitPoint] at hPoint
  · refine .inl (List.filter_eq_nil_iff.mpr fun rec hRec => ?_)
    simpa using fun hSession => hNone ⟨rec, hRec, hSession⟩

theorem confirmation_outcome_sample : ∃ rec,
    sampleConfirmed.history.filter (fun rec => rec.session = 1) = [rec] ∧
      ((∃ commandId p rebuilt delta,
          ConfirmedAsPreviewed (sampleEnvironment none) sampleConfirmCall rec commandId p rebuilt delta) ∨
        ∃ commandId p t closed,
          RejectedWithoutEffect (sampleEnvironment none) sampleConfirmCall rec commandId p t closed) := by
  have hStart : Reachable (commandProtocol (sampleEnvironment none)) (initialState 0) :=
    .of_init ⟨0, rfl⟩
  have hCall : (sampleConfirmed.sessions 1).callOf = some (.confirm sampleConfirmCall) := rfl
  obtain hNone | hOne :=
    confirmation_outcome (hStart.reaches sampleConfirmed_reached) hCall (by decide +kernel)
  · cases hNone
  · exact hOne

/-! ## Historical Previews -/

/-- The sample Preview, of a protocol version that is only read, is rejected. -/
def sampleHistoricalRejected : State Nat Nat :=
  (samplePreviewed (some .legacyStage10)).settle (sampleEnvironment (some .legacyStage10)) 1
    (.rejectInserted sampleConfirmCall (sampleConfirmCall.key samplePreview) .historicalPreviewReadOnly false 3)
    (.confirm sampleConfirmCall, rejectedReceipt 3 historicalPreviewReadOnlyError) 9 4

theorem sampleHistoricalRejected_reached :
    Reaches (commandProtocol (sampleEnvironment (some .legacyStage10))) (initialState 0)
      sampleHistoricalRejected := by
  have hChecks : confirmChecks (sampleEnvironment (some .legacyStage10))
      (samplePreviewed (some .legacyStage10)).tables sampleConfirmCall
      (sampleConfirmCall.key samplePreview) .recordCollection none = .ok none := rfl
  have hGate : previewGate (sampleEnvironment (some .legacyStage10)) 0
      (samplePreviewed (some .legacyStage10)).tables sampleConfirmCall
      (sampleConfirmCall.key samplePreview) .recordCollection = .error .historicalPreviewReadOnly := rfl
  exact (samplePreviewed_reached _).trans
    (undisturbed_rejection (p := samplePreview) rfl rfl rfl rfl (samplePreviewed_keyFree _) hChecks
      (samplePreviewed_quiet _).rowFree hGate rfl)

/-- The rejection of a historical Preview carries `PREVIEW_STALE` and leaves the Preview open. -/
theorem historical_rejection_leaves_preview_open :
    ∃ s, Reachable (commandProtocol (sampleEnvironment (some .legacyStage10))) s ∧
      (s.sessions 1).callOf = some (.confirm sampleConfirmCall) ∧
      ∃ rec ∈ s.history, rec.session = 1 ∧
        ((rec.writes (sampleEnvironment (some .legacyStage10))).receipt.bind Receipt.error).map
          DomainError.code = some .previewStale ∧
        (rec.after.preview? sampleConfirmCall.previewId).map Preview.status = some .opened := by
  have hStart : Reachable (commandProtocol (sampleEnvironment (some .legacyStage10))) (initialState 0) :=
    .of_init ⟨0, rfl⟩
  refine ⟨_, hStart.reaches sampleHistoricalRejected_reached, rfl, _,
    List.mem_append_right _ (List.mem_singleton.mpr rfl), rfl, rfl, rfl⟩

end GreenPms
