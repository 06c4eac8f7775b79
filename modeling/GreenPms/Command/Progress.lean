import GreenPms.Command.Step

/-! # Undisturbed calls

A call that no other session disturbs runs to its commit: a preview whose effect builds is
stored, a confirmation whose gate and rebuild succeed commits its effect, a recorded failure
commits its rejection, and a resolution of an unused key closes the key.
-/

namespace GreenPms

open TransitionSystem

variable {β δ : Type} {env : Environment β δ}

namespace State

/-- The state after one session moved on and nothing was committed. -/
def goto (s : State β δ) (sid : Nat) (φ : Phase δ) (locks : Nat → Option Nat) (nextId : Nat) :
    State β δ :=
  { s with sessions := Function.update s.sessions sid φ, locks := locks, nextId := nextId }

section

variable (s : State β δ) (sid : Nat) (φ φ' : Phase δ) (locks locks' : Nat → Option Nat)
  (nextId nextId' : Nat)

@[simp] theorem goto_sessions : (s.goto sid φ locks nextId).sessions sid = φ := by simp [goto]

theorem goto_other {other : Nat} (h : other ≠ sid) :
    (s.goto sid φ locks nextId).sessions other = s.sessions other := by
  simp [goto, h]

@[simp] theorem goto_tables : (s.goto sid φ locks nextId).tables = s.tables := rfl

@[simp] theorem goto_locks : (s.goto sid φ locks nextId).locks = locks := rfl

@[simp] theorem goto_nextId : (s.goto sid φ locks nextId).nextId = nextId := rfl

@[simp] theorem goto_now : (s.goto sid φ locks nextId).now = s.now := rfl

@[simp] theorem goto_history : (s.goto sid φ locks nextId).history = s.history := rfl

@[simp] theorem goto_goto :
    (s.goto sid φ locks nextId).goto sid φ' locks' nextId' = s.goto sid φ' locks' nextId' := by
  simp [goto]

theorem keyFree_goto {key : CommandKey} :
    (s.goto sid φ locks nextId).KeyFree env sid key ↔ s.KeyFree env sid key := by
  refine and_congr Iff.rfl (forall₂_congr fun other hne => ?_)
  simp only [pendingKey, goto_other s sid φ locks nextId hne]

theorem rowFree_goto {previewId : Nat} :
    (s.goto sid φ locks nextId).RowFree sid previewId ↔ s.RowFree sid previewId := by
  refine forall₂_congr fun other hne => ?_
  rw [goto_other s sid φ locks nextId hne]

end

end State

theorem reaches_goto {s : State β δ} {sid nextId nextId' : Nat} {φ φ' : Phase δ}
    {locks locks' : Nat → Option Nat} (h : Reaches (commandProtocol env) s (s.goto sid φ locks nextId))
    (hNext : Advance env (s.goto sid φ locks nextId) sid φ' locks' nextId') :
    Reaches (commandProtocol env) s (s.goto sid φ' locks' nextId') := by
  have hStep := h.tail (Step.advance hNext)
  change Reaches _ s ((s.goto sid φ locks nextId).goto sid φ' locks' nextId') at hStep
  rwa [State.goto_goto] at hStep

theorem reaches_start (env : Environment β δ) {s : State β δ} {sid : Nat} (call : Call) (h : s.sessions sid = .idle) :
    Reaches (commandProtocol env) s (s.goto sid (startPhase call) s.locks s.nextId) :=
  (Reaches.refl s).tail (Step.advance (.start call h))

def State.locked (s : State β δ) (sid lock : Nat) : Nat → Option Nat :=
  Function.update s.locks lock (some sid)

/-- The state after the transaction of a session that held its lock committed. -/
def State.settle (env : Environment β δ) (s : State β δ) (sid : Nat) (φ : Phase δ)
    (answer : Call × Receipt) (lock nextId : Nat) : State β δ :=
  (s.goto sid φ (s.locked sid lock) nextId).commit env sid (.finished answer.1 (.receipt answer.2))
    (State.release (s.locked sid lock) sid)

theorem reaches_settle {s : State β δ} {sid lock nextId : Nat} {φ : Phase δ} {answer : Call × Receipt}
    (h : Reaches (commandProtocol env) s (s.goto sid φ (s.locked sid lock) nextId))
    (hPoint : φ.commitPoint = some answer) :
    Reaches (commandProtocol env) s (s.settle env sid φ answer lock nextId) := by
  refine h.tail (e := .commit sid) (Step.commit ?_)
  rw [State.goto_sessions]
  exact hPoint

theorem execution?_of_keyFree {s : State β δ} {sid : Nat} {key : CommandKey}
    (h : s.KeyFree env sid key) : s.tables.execution? key = none := by
  simpa [Tables.execution?] using h.1

/-- A preview whose effect builds is stored. -/
theorem undisturbed_preview {s : State β δ} {sid : Nat} {q : PreviewCall} {input : Json}
    {view : β} {built : BuiltEffect} (hIdle : s.sessions sid = .idle)
    (hLock : s.locks (env.lockId (q.key q.propertyId)) = none)
    (hBuilt : buildCommandEffect env view q.commandType input = .ok built)
    (hFree : s.KeyFree env sid (q.key built.propertyId)) :
    Reaches (commandProtocol env) s (s.settle env sid
      (.previewInserted q s.nextId (newPreview env q input built (s.nextId + 1) s.now))
      (.preview q, executedReceipt s.nextId) (env.lockId (q.key q.propertyId)) (s.nextId + 2)) := by
  have hStart := reaches_start env (.preview q) hIdle
  have hLocked := reaches_goto hStart (.lock (q.key q.propertyId) (.previewLocked q)
    (by simp [startPhase, Phase.lockPoint]) (by simpa using hLock))
  have hBuild := reaches_goto hLocked (.previewBuild q view input built (by simp) hBuilt)
  have hInserted := reaches_goto hBuild
    (.previewInsert q input built (by simp) (State.keyFree_goto .. |>.mpr hFree))
  exact reaches_settle hInserted rfl

theorem undisturbed_resolution {s : State β δ} {sid : Nat} {q : ResolveCall}
    (hIdle : s.sessions sid = .idle) (hLock : s.locks (env.lockId q.key) = none)
    (hFree : s.KeyFree env sid q.key) (hType : resolvable q.commandType = true) :
    Reaches (commandProtocol env) s (s.settle env sid (.resolveInserted q s.nextId)
      (.resolve q, rejectedReceipt s.nextId fenceError) (env.lockId q.key) (s.nextId + 1)) := by
  have hStart := reaches_start env (.resolve q) hIdle
  have hLocked := reaches_goto hStart (.lock q.key (.resolveLocked q)
    (by simp [startPhase, Phase.lockPoint]) (by simpa using hLock))
  have hMissing := execution?_of_keyFree hFree
  have hMiss := reaches_goto hLocked (.resolveMiss q (by simp) hMissing hType)
  have hInserted := reaches_goto hMiss (.resolveInsert q (by simp) (State.keyFree_goto .. |>.mpr hFree))
  exact reaches_settle hInserted rfl

section Confirmation

variable {s : State β δ} {sid : Nat} {c : ConfirmCall} {p : Preview}

theorem undisturbed_insert {denied : Option Thrown} (hIdle : s.sessions sid = .idle)
    (hFound : s.tables.preview? c.previewId = some p) (hSubject : p.subjectId = c.subjectId)
    (hLock : s.locks (env.lockId (c.key p)) = none) (hFree : s.KeyFree env sid (c.key p))
    (hChecks : confirmChecks env s.tables c (c.key p) p.commandType denied = .ok none) :
    Reaches (commandProtocol env) s (s.goto sid (.confirmInserted c (c.key p) p.commandType s.nextId)
      (s.locked sid (env.lockId (c.key p))) (s.nextId + 1)) := by
  have hStart := reaches_start env (.confirm c) hIdle
  have hIdentified := reaches_goto hStart (.confirmIdentify c p (by simp [startPhase]) hFound hSubject)
  have hLocked := reaches_goto hIdentified
    (.lock (c.key p) (.confirmLocked c (c.key p) p.commandType)
      (by simp [Phase.lockPoint, ConfirmCall.key]) (by simpa using hLock))
  have hChecked := reaches_goto hLocked (.confirmCheck c (c.key p) p.commandType denied
    (.confirmChecked c (c.key p) p.commandType) (by simp) (by simp [hChecks, afterReplay]))
  exact reaches_goto hChecked
    (.confirmInsert c (c.key p) p.commandType (by simp) (State.keyFree_goto .. |>.mpr hFree))

theorem undisturbed_confirmation {denied denied' : Option Thrown} {v v' : β} {rebuilt : BuiltEffect}
    {delta : δ} (hIdle : s.sessions sid = .idle)
    (hFound : s.tables.preview? c.previewId = some p) (hSubject : p.subjectId = c.subjectId)
    (hLock : s.locks (env.lockId (c.key p)) = none) (hFree : s.KeyFree env sid (c.key p))
    (hChecks : confirmChecks env s.tables c (c.key p) p.commandType denied = .ok none)
    (hRow : s.RowFree sid c.previewId)
    (hGate : previewGate env s.now s.tables c (c.key p) p.commandType = .ok p)
    (hApply : rebuildAndApply env v v' denied' c p s.nextId = .ok (rebuilt, delta)) :
    Reaches (commandProtocol env) s (s.settle env sid
      (.confirmApplied c (c.key p) p.commandType s.nextId p rebuilt delta)
      (.confirm c, executedReceipt s.nextId) (env.lockId (c.key p)) (s.nextId + 1)) := by
  have hInserted := undisturbed_insert hIdle hFound hSubject hLock hFree hChecks
  have hGated := reaches_goto hInserted (.confirmGate c (c.key p) p.commandType s.nextId p (by simp)
    (State.rowFree_goto .. |>.mpr hRow) (by simpa using hGate))
  have hApplied := reaches_goto hGated (.confirmApply c (c.key p) p.commandType s.nextId p v v' denied'
    rebuilt delta (by simp) hApply)
  exact reaches_settle hApplied rfl

/-- A confirmation whose gate throws an error that is recorded commits its rejection. -/
theorem undisturbed_rejection {denied : Option Thrown} {t : Thrown} (hIdle : s.sessions sid = .idle)
    (hFound : s.tables.preview? c.previewId = some p) (hSubject : p.subjectId = c.subjectId)
    (hLock : s.locks (env.lockId (c.key p)) = none) (hFree : s.KeyFree env sid (c.key p))
    (hChecks : confirmChecks env s.tables c (c.key p) p.commandType denied = .ok none)
    (hRow : s.RowFree sid c.previewId)
    (hGate : previewGate env s.now s.tables c (c.key p) p.commandType = .error t)
    (hRecorded : rethrown env p.commandType t = false) :
    Reaches (commandProtocol env) s (s.settle env sid
      (.rejectInserted c (c.key p) t (closesPreview t && closable s.tables c (c.key p)) (s.nextId + 1))
      (.confirm c, rejectedReceipt (s.nextId + 1) (rejectionError t)) (env.lockId (c.key p))
      (s.nextId + 2)) := by
  have hInserted := undisturbed_insert hIdle hFound hSubject hLock hFree hChecks
  have hFailed := reaches_goto hInserted (.confirmGateError c (c.key p) p.commandType s.nextId t (by simp)
    (State.rowFree_goto .. |>.mpr hRow) (by simpa using hGate))
  have hRejecting := reaches_goto hFailed
    (.confirmReject c (c.key p) p.commandType t (by simp) hRecorded)
  have hClosed := reaches_goto hRejecting
    (.rejectClose c (c.key p) t (by simp) fun _ => State.rowFree_goto .. |>.mpr hRow)
  have hRejected := reaches_goto hClosed
    (.rejectInsert c (c.key p) t (closesPreview t && closable s.tables c (c.key p)) (by simp)
      (State.keyFree_goto .. |>.mpr hFree))
  exact reaches_settle hRejected rfl

end Confirmation

/-! ## Nobody in flight -/

def State.Quiet (env : Environment β δ) (s : State β δ) : Prop :=
  ∀ sid, (s.sessions sid).writes env = {} ∧ (s.sessions sid).rowLock = none

theorem initialState_quiet (business : β) : (initialState business : State β δ).Quiet env :=
  fun _ => ⟨rfl, rfl⟩

theorem State.Quiet.keyFree {s : State β δ} (h : s.Quiet env) {sid : Nat} {key : CommandKey}
    (hUnused : ∀ x ∈ s.tables.executions, x.key ≠ key) : s.KeyFree env sid key := by
  refine ⟨hUnused, fun other _ => ?_⟩
  simp [pendingKey, (h other).1]

theorem State.Quiet.rowFree {s : State β δ} (h : s.Quiet env) {sid previewId : Nat} :
    s.RowFree sid previewId := by
  intro other _
  simp [(h other).2]

theorem State.Quiet.settle {s : State β δ} (h : s.Quiet env) {sid lock nextId : Nat} {φ : Phase δ}
    {answer : Call × Receipt} : (s.settle env sid φ answer lock nextId).Quiet env := by
  intro other
  by_cases hSelf : other = sid
  · subst hSelf
    simp [State.settle, State.commit, Phase.writes, Phase.rowLock]
  · simpa [State.settle, State.commit, State.goto, hSelf] using h other

/-! ## One collection, previewed and confirmed -/

/-- SHA-256 on the texts of the sample calls. -/
def sampleDigests : List (String × String) :=
  [("\x7b\"basisVersions\":\x7b\"orderVersion\":1\x7d,\"effect\":\x7b\"amountMinor\":5000\x7d\x7d",
      "a8f0543dcae192e35b5479ee063c1b274daff889f17e59386021fad270c30c34"),
    ("\x7b\"commandType\":\"RECORD_COLLECTION\",\"input\":\x7b\"amountMinor\":5000\x7d\x7d",
      "3d04a0d74853bd65413df45709fce4a4b083794a0ffa6b5bdf371300b16871cf"),
    ("\x7b\"confirmation\":\x7b\"commandType\":\"RECORD_COLLECTION\",\"confirmation\":true,\"expectedEffectHash\":" ++
      "\"a8f0543dcae192e35b5479ee063c1b274daff889f17e59386021fad270c30c34\",\"propertyId\":\"prop_1\"," ++
      "\"reason\":\x7b\"code\":\"COLLECT\",\"note\":\"Paid at the desk\"\x7d\x7d,\"previewId\":1\x7d",
      "5da70c7e72d499847c0467008ca8beefe5c06e53b1a94b4f23a4f76bf410f0c7")]

def sampleRuntime : JsRuntime where
  localeCompare a b := if a = b then .eq else if a < b then .lt else .gt
  numberText n := toString n.num
  trim text := text
  sha256 text := (sampleDigests.lookup text).getD text

/-- One amount of collected money as the whole business state. -/
def sampleEnvironment (legacy : Option HistoricalProtocolVersion) : Environment Nat Nat where
  runtime := sampleRuntime
  lockId key := key.idempotencyKey.length
  previewTtl := 600
  cleaningWorkflow := false
  merge := (· + ·)
  buildEffect _ _ input := .ok ("prop_1", input, .obj [("orderVersion", .num 1)])
  createQuote _ _ := .ok 0
  applyCommand _ options :=
    match options.effect with
    | .obj [("amountMinor", .num amount)] => .ok amount.num.toNat
    | _ => .error .failure
  bindExternalPayments _ delta _ _ := .ok delta
  bindPersistedEffectHash _ _ _ _ := .ok ()
  legacyEffectProtocol _ _ := legacy
  migrationAppliedAt _ := some 1
  receiptReadError _ := none

def samplePreviewCall : PreviewCall :=
  ⟨"subject_1", "prop_1", .recordCollection, .obj [("amountMinor", .num 5000)], "preview-1"⟩

def sampleConfirmCall : ConfirmCall :=
  ⟨"subject_1", 1, ⟨"prop_1", .recordCollection, true,
    "a8f0543dcae192e35b5479ee063c1b274daff889f17e59386021fad270c30c34", ⟨"COLLECT", "Paid at the desk"⟩⟩,
    "confirm-1"⟩

def sampleBuilt : BuiltEffect :=
  ⟨"prop_1", .obj [("amountMinor", .num 5000)], .obj [("orderVersion", .num 1)],
    "a8f0543dcae192e35b5479ee063c1b274daff889f17e59386021fad270c30c34"⟩

def samplePreview : Preview :=
  ⟨1, "subject_1", "prop_1", .recordCollection, .obj [("amountMinor", .num 5000)],
    .obj [("amountMinor", .num 5000)], sampleBuilt.effectHash, .obj [("orderVersion", .num 1)], 0, 600, .opened⟩

theorem sampleBuilt_hash : Json.stableHash sampleRuntime
    (.obj [("effect", sampleBuilt.effect), ("basisVersions", sampleBuilt.basisVersions)]) =
      sampleBuilt.effectHash := by
  decide +kernel

section Sample

variable (legacy : Option HistoricalProtocolVersion)

theorem sampleBuilt_eq (view : Nat) : buildCommandEffect (sampleEnvironment legacy) view .recordCollection
    (.obj [("amountMinor", .num 5000)]) = .ok sampleBuilt := by
  have hHash := sampleBuilt_hash
  simp only [sampleBuilt] at hHash
  simp [buildCommandEffect, sampleEnvironment, finalize, Except.map, hHash, sampleBuilt]

/-- The sample Preview is stored. -/
def samplePreviewed : State Nat Nat :=
  (initialState 0).settle (sampleEnvironment legacy) 0 (.previewInserted samplePreviewCall 0 samplePreview)
    (.preview samplePreviewCall, executedReceipt 0) 9 2

theorem samplePreviewed_reached :
    Reaches (commandProtocol (sampleEnvironment legacy)) (initialState 0) (samplePreviewed legacy) := by
  have hFree : (initialState 0 : State Nat Nat).KeyFree (sampleEnvironment legacy) 0
      (samplePreviewCall.key "prop_1") := (initialState_quiet 0).keyFree (by simp [initialState])
  exact undisturbed_preview (q := samplePreviewCall) rfl rfl (sampleBuilt_eq legacy 0) hFree

theorem samplePreviewed_quiet : (samplePreviewed legacy).Quiet (sampleEnvironment legacy) :=
  (initialState_quiet 0).settle

theorem samplePreviewed_keyFree :
    (samplePreviewed legacy).KeyFree (sampleEnvironment legacy) 1 (sampleConfirmCall.key samplePreview) :=
  (samplePreviewed_quiet legacy).keyFree (by
    simp [samplePreviewed, State.settle, State.commit, State.goto, Tables.commit, Phase.writes, initialState,
      PreviewCall.key, ConfirmCall.key])

/-- The sample Preview is confirmed. -/
def sampleConfirmed : State Nat Nat :=
  (samplePreviewed none).settle (sampleEnvironment none) 1
    (.confirmApplied sampleConfirmCall (sampleConfirmCall.key samplePreview) .recordCollection 2 samplePreview
      sampleBuilt 5000)
    (.confirm sampleConfirmCall, executedReceipt 2) 9 3

theorem sampleConfirmed_reached :
    Reaches (commandProtocol (sampleEnvironment none)) (initialState 0) sampleConfirmed := by
  have hChecks : confirmChecks (sampleEnvironment none) (samplePreviewed none).tables sampleConfirmCall
      (sampleConfirmCall.key samplePreview) .recordCollection none = .ok none := rfl
  have hGate : previewGate (sampleEnvironment none) 0 (samplePreviewed none).tables sampleConfirmCall
      (sampleConfirmCall.key samplePreview) .recordCollection = .ok samplePreview := rfl
  have hApply : rebuildAndApply (sampleEnvironment none) 0 0 none sampleConfirmCall samplePreview 2 =
      .ok (sampleBuilt, 5000) := rfl
  exact (samplePreviewed_reached none).trans
    (undisturbed_confirmation rfl rfl rfl rfl (samplePreviewed_keyFree none) hChecks
      (samplePreviewed_quiet none).rowFree hGate hApply)

/-- The key of the sample confirmation is resolved before it arrives. -/
def sampleResolveCall : ResolveCall := ⟨"subject_1", "prop_1", .command .recordCollection, "confirm-1"⟩

def sampleResolved : State Nat Nat :=
  (samplePreviewed none).settle (sampleEnvironment none) 1 (.resolveInserted sampleResolveCall 2)
    (.resolve sampleResolveCall, rejectedReceipt 2 fenceError) 9 3

theorem sampleResolved_reached :
    Reaches (commandProtocol (sampleEnvironment none)) (initialState 0) sampleResolved :=
  (samplePreviewed_reached none).trans
    (undisturbed_resolution rfl rfl (samplePreviewed_keyFree none) rfl)

end Sample

end GreenPms
