import GreenPms.Command.Machine

/-! # Steps of the command protocol

`Advance` has one constructor for each statement boundary of the four calls; a call that fails
or loses its connection ends without committing. The two commit steps differ only in whether the
client learns of the commit.
-/

namespace GreenPms

open TransitionSystem

variable {β δ : Type} (env : Environment β δ)

def startPhase : Call → Phase δ
  | .preview q => .previewStart q
  | .quote q => .quoteStart q
  | .confirm c => .confirmStart c
  | .resolve q => .resolveStart q

/-- The scope in which a preview or quote call looks for an earlier receipt of its own. -/
def Phase.replayScope (rt : JsRuntime) : Phase δ → Option (Call × CommandKey × String)
  | .previewLocked q => some (.preview q, q.key q.propertyId, q.requestHash rt)
  | .previewBuilt q _ built => some (.preview q, q.key built.propertyId, q.requestHash rt)
  | .quoteLocked q => some (.quote q, q.key, q.requestHash rt)
  | _ => none

/-- The lock key that the next statement of a phase tries to take, with the phase after it. -/
def Phase.lockPoint : Phase δ → Option (CommandKey × Phase δ)
  | .previewStart q => some (q.key q.propertyId, .previewLocked q)
  | .quoteStart q => some (q.key, .quoteLocked q)
  | .confirmIdentified c key command => some (key, .confirmLocked c key command)
  | .resolveStart q => some (q.key, .resolveLocked q)
  | _ => none

def Phase.endsOnError (φ : Phase δ) : Bool :=
  match φ with
  | .confirmFailed _ _ _ _ => false
  | _ => φ.confirming.isNone

/-- The executable command types and `CREATE_QUOTE`, which a resolution may fence. -/
def resolvable : ExecutionType → Bool
  | .command _ | .createQuote => true
  | .preview _ | .historical _ => false

def newPreview (q : PreviewCall) (input : Json) (built : BuiltEffect) (id now : Nat) : Preview :=
  ⟨id, q.subjectId, built.propertyId, q.commandType, input, built.effect, built.effectHash,
    built.basisVersions, now, now + env.previewTtl, .opened⟩

/-- The locks after a session moves to a phase: a finished session holds none. -/
def locksAfter (locks : Nat → Option Nat) (sid : Nat) : Phase δ → Nat → Option Nat
  | .finished _ _ => State.release locks sid
  | _ => locks

open State in
/-- From the state `s`, session `sid` may move to a phase, leaving the locks and the id supply. -/
inductive Advance (s : State β δ) (sid : Nat) : Phase δ → (Nat → Option Nat) → Nat → Prop
  | start (call : Call) (h : s.sessions sid = .idle) :
      Advance s sid (startPhase call) s.locks s.nextId
  | fail (call : Call) (t : Thrown) (h : (s.sessions sid).call? = some call)
      (hEnds : (s.sessions sid).endsOnError = true) :
      Advance s sid (.finished call (.error t)) (release s.locks sid) s.nextId
  | disconnect (call : Call) (h : (s.sessions sid).call? = some call) :
      Advance s sid (.finished call .connectionLost) (release s.locks sid) s.nextId
  | interrupt (c : ConfirmCall) (key : CommandKey) (command : CommandType) (t : Thrown)
      (h : (s.sessions sid).confirming = some (c, key, command)) (hFailure : t.code? = none) :
      Advance s sid (.confirmFailed c key command t) s.locks s.nextId
  | lock (key : CommandKey) (φ : Phase δ) (h : (s.sessions sid).lockPoint = some (key, φ))
      (hFree : s.locks (env.lockId key) = none) :
      Advance s sid φ (Function.update s.locks (env.lockId key) (some sid)) s.nextId
  | resolveBusy (q : ResolveCall) (h : s.sessions sid = .resolveStart q)
      (hBusy : s.locks (env.lockId q.key) ≠ none) :
      Advance s sid (.finished (.resolve q) .unknown) s.locks s.nextId
  | replay (call : Call) (key : CommandKey) (requestHash : String) (r : Receipt)
      (h : (s.sessions sid).replayScope env.runtime = some (call, key, requestHash))
      (hReplay : replayOrConflict env s.tables key requestHash = .ok (some r)) :
      Advance s sid (.finished call (.receipt r)) (release s.locks sid) s.nextId
  | previewBuild (q : PreviewCall) (view : β) (input : Json) (built : BuiltEffect)
      (h : s.sessions sid = .previewLocked q)
      (hBuilt : buildCommandEffect env view q.commandType input = .ok built) :
      Advance s sid (.previewBuilt q input built) s.locks s.nextId
  | previewInsert (q : PreviewCall) (input : Json) (built : BuiltEffect)
      (h : s.sessions sid = .previewBuilt q input built)
      (hFree : s.KeyFree env sid (q.key built.propertyId)) :
      Advance s sid
        (.previewInserted q s.nextId (newPreview env q input built (s.nextId + 1) s.now))
        s.locks (s.nextId + 2)
  | quoteInsert (q : QuoteCall) (view : β) (delta : δ) (h : s.sessions sid = .quoteLocked q)
      (hFree : s.KeyFree env sid q.key) (hQuote : env.createQuote view q.input = .ok delta) :
      Advance s sid (.quoteInserted q s.nextId delta) s.locks (s.nextId + 1)
  | confirmMissing (c : ConfirmCall) (denied : Option ErrorCode) (h : s.sessions sid = .confirmStart c)
      (hMissing : s.tables.preview? c.previewId = none) :
      Advance s sid
        (.finished (.confirm c) (match missingPreviewOutcome env s.tables c denied with
          | .ok r => .receipt r
          | .error t => .error t)) s.locks s.nextId
  | confirmForeign (c : ConfirmCall) (p : Preview) (h : s.sessions sid = .confirmStart c)
      (hFound : s.tables.preview? c.previewId = some p) (hSubject : p.subjectId ≠ c.subjectId) :
      Advance s sid (.finished (.confirm c) (.error (.authorization .previewNotFound)))
        s.locks s.nextId
  | confirmIdentify (c : ConfirmCall) (p : Preview) (h : s.sessions sid = .confirmStart c)
      (hFound : s.tables.preview? c.previewId = some p) (hSubject : p.subjectId = c.subjectId) :
      Advance s sid (.confirmIdentified c (c.key p) p.commandType) s.locks s.nextId
  | confirmCheck (c : ConfirmCall) (key : CommandKey) (command : CommandType)
      (denied : Option Thrown) (φ : Phase δ) (h : s.sessions sid = .confirmLocked c key command)
      (hNext : φ = afterReplay c key command (.confirmChecked c key command)
        (confirmChecks env s.tables c key command denied)) :
      Advance s sid φ (locksAfter s.locks sid φ) s.nextId
  | confirmInsert (c : ConfirmCall) (key : CommandKey) (command : CommandType)
      (h : s.sessions sid = .confirmChecked c key command) (hFree : s.KeyFree env sid key) :
      Advance s sid (.confirmInserted c key command s.nextId) s.locks (s.nextId + 1)
  | confirmConflict (c : ConfirmCall) (key : CommandKey) (command : CommandType) (x : Execution)
      (φ : Phase δ) (h : s.sessions sid = .confirmChecked c key command)
      (hTaken : s.tables.execution? key = some x)
      (hNext : φ = afterReplay c key command
        (.confirmFailed c key command
          (.domain (statusUnknownError "Concurrent command state is unknown")))
        (replayOrConflict env s.tables key (c.requestHash env.runtime))) :
      Advance s sid φ (locksAfter s.locks sid φ) s.nextId
  | confirmGateError (c : ConfirmCall) (key : CommandKey) (command : CommandType) (commandId : Nat)
      (t : Thrown) (h : s.sessions sid = .confirmInserted c key command commandId)
      (hRow : s.RowFree sid c.previewId)
      (hGate : previewGate env s.now s.tables c key command = .error t) :
      Advance s sid (.confirmFailed c key command t) s.locks s.nextId
  | confirmGate (c : ConfirmCall) (key : CommandKey) (command : CommandType) (commandId : Nat)
      (p : Preview) (h : s.sessions sid = .confirmInserted c key command commandId)
      (hRow : s.RowFree sid c.previewId)
      (hGate : previewGate env s.now s.tables c key command = .ok p) :
      Advance s sid (.confirmGated c key command commandId p) s.locks s.nextId
  | confirmApplyError (c : ConfirmCall) (key : CommandKey) (command : CommandType) (commandId : Nat)
      (p : Preview) (v v' : β) (denied : Option Thrown) (t : Thrown)
      (h : s.sessions sid = .confirmGated c key command commandId p)
      (hApply : rebuildAndApply env v v' denied c p commandId = .error t) :
      Advance s sid (.confirmFailed c key command t) s.locks s.nextId
  | confirmApply (c : ConfirmCall) (key : CommandKey) (command : CommandType) (commandId : Nat)
      (p : Preview) (v v' : β) (denied : Option Thrown) (rebuilt : BuiltEffect) (delta : δ)
      (h : s.sessions sid = .confirmGated c key command commandId p)
      (hApply : rebuildAndApply env v v' denied c p commandId = .ok (rebuilt, delta)) :
      Advance s sid (.confirmApplied c key command commandId p rebuilt delta) s.locks s.nextId
  | confirmRethrow (c : ConfirmCall) (key : CommandKey) (command : CommandType) (t : Thrown)
      (h : s.sessions sid = .confirmFailed c key command t) (hRethrown : rethrown env command t = true) :
      Advance s sid (.finished (.confirm c) (.error t)) (release s.locks sid) s.nextId
  | confirmReject (c : ConfirmCall) (key : CommandKey) (command : CommandType) (t : Thrown)
      (h : s.sessions sid = .confirmFailed c key command t)
      (hRecorded : rethrown env command t = false) :
      Advance s sid (.rejecting c key t) s.locks s.nextId
  | rejectClose (c : ConfirmCall) (key : CommandKey) (t : Thrown)
      (h : s.sessions sid = .rejecting c key t)
      (hRow : closesPreview t = true → s.RowFree sid c.previewId) :
      Advance s sid (.rejectClosed c key t (closesPreview t && closable s.tables c key))
        s.locks s.nextId
  | rejectInsert (c : ConfirmCall) (key : CommandKey) (t : Thrown) (closed : Bool)
      (h : s.sessions sid = .rejectClosed c key t closed) (hFree : s.KeyFree env sid key) :
      Advance s sid (.rejectInserted c key t closed s.nextId) s.locks (s.nextId + 1)
  | rejectConflict (c : ConfirmCall) (key : CommandKey) (t : Thrown) (closed : Bool) (x : Execution)
      (h : s.sessions sid = .rejectClosed c key t closed)
      (hTaken : s.tables.execution? key = some x) :
      Advance s sid (.finished (.confirm c) (.error (rejectConflictError t)))
        (release s.locks sid) s.nextId
  | resolveFound (q : ResolveCall) (x : Execution)
      (h : s.sessions sid = .resolveLocked q ∨ s.sessions sid = .resolveMissing q)
      (hFound : s.tables.execution? q.key = some x) :
      Advance s sid (.finished (.resolve q) (visibleResult env s.tables x))
        (release s.locks sid) s.nextId
  | resolveUnsupported (q : ResolveCall) (h : s.sessions sid = .resolveLocked q)
      (hMissing : s.tables.execution? q.key = none) (hType : resolvable q.commandType = false) :
      Advance s sid (.finished (.resolve q) .unknown) (release s.locks sid) s.nextId
  | resolveMiss (q : ResolveCall) (h : s.sessions sid = .resolveLocked q)
      (hMissing : s.tables.execution? q.key = none) (hType : resolvable q.commandType = true) :
      Advance s sid (.resolveMissing q) s.locks s.nextId
  | resolveInsert (q : ResolveCall) (h : s.sessions sid = .resolveMissing q)
      (hFree : s.KeyFree env sid q.key) :
      Advance s sid (.resolveInserted q s.nextId) s.locks (s.nextId + 1)

/-- The phase of a session whose commit went through without the client learning of it. -/
def Phase.afterLostCommit (call : Call) : Phase δ → Phase δ
  | .confirmApplied c key command _ _ _ _ => .confirmFailed c key command .failure
  | _ => .finished call .connectionLost

def State.commit (s : State β δ) (sid : Nat) (φ : Phase δ) (locks : Nat → Option Nat) : State β δ :=
  let after := s.tables.commit env.merge ((s.sessions sid).writes env)
  { s with
    tables := after
    sessions := Function.update s.sessions sid φ
    locks := locks
    history := s.history ++ [⟨sid, s.sessions sid, s.tables, after⟩] }

inductive Event where
  | advance (sid : Nat)
  | commit (sid : Nat)
  | lostCommit (sid : Nat)
  | lockLost (lockId : Nat)
  | tick

inductive Step : State β δ → Event → State β δ → Prop
  | advance {s : State β δ} {sid : Nat} {φ : Phase δ} {locks : Nat → Option Nat} {nextId : Nat}
      (h : Advance env s sid φ locks nextId) :
      Step s (.advance sid)
        { s with sessions := Function.update s.sessions sid φ, locks := locks, nextId := nextId }
  | commit {s : State β δ} {sid : Nat} {call : Call} {r : Receipt}
      (h : (s.sessions sid).commitPoint = some (call, r)) :
      Step s (.commit sid)
        (s.commit env sid (.finished call (.receipt r)) (State.release s.locks sid))
  | lostCommit {s : State β δ} {sid : Nat} {call : Call} {r : Receipt}
      (h : (s.sessions sid).commitPoint = some (call, r)) :
      Step s (.lostCommit sid) (s.commit env sid ((s.sessions sid).afterLostCommit call)
        (locksAfter s.locks sid ((s.sessions sid).afterLostCommit call)))
  | lockLost {s : State β δ} {l : Nat} :
      Step s (.lockLost l) { s with locks := Function.update s.locks l none }
  | tick {s : State β δ} {now : Nat} (h : s.now ≤ now) : Step s .tick { s with now := now }

def initialState (business : β) : State β δ :=
  ⟨⟨[], [], [], business⟩, fun _ => .idle, fun _ => none, 0, 0, []⟩

/-- The protocol over an arbitrary initial content of the business tables. -/
def commandProtocol : System (State β δ) Event where
  init s := ∃ business, s = initialState business
  step := Step env

end GreenPms
