import GreenPms.Contracts.SseFrames
import GreenPms.Foundation.JsonTree
import GreenPms.Library.Transition

/-! # Lifetime of an answer

The server streams an answer as it comes: progress, and at the end the result or a failure. A write
that the socket cannot take yet holds the answer up until the socket drains or the lifetime is aborted.
-/

namespace GreenPms

open JsString TransitionSystem

/-! ## Events -/

inductive AssistantPhase where
  | thinking
  | tool
  | fallback
  deriving DecidableEq, Repr

def AssistantPhase.name : AssistantPhase → JsString
  | thinking => units "thinking"
  | tool => units "tool"
  | fallback => units "fallback"

structure AssistantChatReply where
  conversationId : JsString
  text : JsString
  entries : List JsonTree
  questionId : Option JsString

/-- What the stream tells of a `DomainError`. -/
structure AssistantFailure where
  code : JsString
  statusCode : JsNumber
  message : JsString
  backupRetryAvailable : Bool

inductive AssistantStreamEvent where
  | status (phase : AssistantPhase) (round : JsNumber)
  | delta (text : JsString) (round : JsNumber)
  | done (result : AssistantChatReply)
  | error (failure : AssistantFailure)

def AssistantChatReply.tree (reply : AssistantChatReply) : JsonTree :=
  .obj ([(units "conversationId", .str reply.conversationId), (units "text", .str reply.text),
    (units "entries", .arr reply.entries)] ++ (reply.questionId.map fun id => (units "questionId", .str id)).toList)

namespace AssistantStreamEvent

def tree : AssistantStreamEvent → JsonTree
  | status phase round => .obj [(units "type", .str (units "status")), (units "phase", .str phase.name), (units "round", .num round)]
  | delta text round => .obj [(units "type", .str (units "delta")), (units "text", .str text), (units "round", .num round)]
  | done result => .obj [(units "type", .str (units "done")), (units "result", result.tree)]
  | error failure => .obj ([(units "type", .str (units "error")), (units "code", .str failure.code),
      (units "status", .num failure.statusCode), (units "message", .str failure.message)] ++
      if failure.backupRetryAvailable then [(units "backupRetryAvailable", .bool true)] else [])

/-- `JSON.stringify`. -/
def text (event : AssistantStreamEvent) : JsString := event.tree.text

def IsProgress : AssistantStreamEvent → Prop
  | status .. | delta .. => True
  | done _ | error _ => False

end AssistantStreamEvent

inductive AssistantFrame where
  | comment (text : JsString)
  | event (event : AssistantStreamEvent)

namespace AssistantFrame

def sse : AssistantFrame → SseFrame
  | comment text => .comment text
  | event e => .data e.text

def event? : AssistantFrame → Option AssistantStreamEvent
  | comment _ => none
  | event e => some e

theorem data_sse (frames : List AssistantFrame) :
    (frames.map sse).filterMap SseFrame.data? = (frames.filterMap event?).map AssistantStreamEvent.text := by
  induction frames with
  | nil => rfl
  | cons frame frames ih =>
    cases frame with
    | comment text => exact ih
    | event e => exact congrArg (e.text :: ·) ih

end AssistantFrame

/-! ## The lifetime -/

structure AssistantLifetime where
  /-- The request accepts `text/event-stream`. -/
  accepts : Bool
  streaming : Bool
  terminal : Bool
  disposed : Bool
  /-- The reason that the signal is aborted for. -/
  aborted : Option AssistantFailure
  /-- The events whose writes wait for the socket to drain. -/
  waiting : List AssistantStreamEvent
  writableFinished : Bool
  destroyed : Bool
  written : List AssistantFrame

namespace AssistantLifetime

def opened (accepts : Bool) : AssistantLifetime := ⟨accepts, false, false, false, none, [], false, false, []⟩

def invalid (message : JsString) : AssistantFailure :=
  ⟨units "VALIDATION_ERROR", ⟨400, 400, 0, by decide, by decide, by decide, by norm_num⟩, message, false⟩

def stopped : AssistantFailure := invalid (units "本次回答已停止。")

def idleTimeout : AssistantFailure := invalid (units "助手查询长时间没有进展，已停止本次请求，请稍后重试。")

def ended : AssistantFailure := invalid (units "本次回答已结束。")

def requestFailed : AssistantFailure := invalid (units "助手暂时无法完成回答，请稍后重试。")

/-- Aborting again changes nothing, and the events that wait are given up. -/
def abort (lifetime : AssistantLifetime) (reason : AssistantFailure) : AssistantLifetime :=
  match lifetime.aborted with
  | some _ => lifetime
  | none => { lifetime with aborted := some reason, waiting := [] }

def check (lifetime : AssistantLifetime) : Except AssistantFailure Unit :=
  match lifetime.aborted with
  | some reason => .error reason
  | none => .ok ()

def write (lifetime : AssistantLifetime) (frame : AssistantFrame) : AssistantLifetime :=
  { lifetime with written := lifetime.written ++ [frame] }

def start (lifetime : AssistantLifetime) : Except AssistantFailure AssistantLifetime := do
  lifetime.check
  if lifetime.accepts then pure ({ lifetime with streaming := true }.write (.comment (units "connected")))
  else pure lifetime

/-- `buffered` is `writableLength`. -/
def heartbeat (lifetime : AssistantLifetime) (buffered : Nat) : AssistantLifetime :=
  if lifetime.streaming && !lifetime.disposed && !lifetime.terminal && lifetime.aborted.isNone && !lifetime.destroyed &&
      buffered < 16384 then lifetime.write (.comment (units "heartbeat"))
  else lifetime

/-- What `emit` does once its write is through. -/
def settle (lifetime : AssistantLifetime) (event : AssistantStreamEvent) : AssistantLifetime :=
  match event with
  | .done _ => { lifetime with terminal := true }
  | _ => lifetime

/-- `flushed` is what the write answers. -/
def emit (lifetime : AssistantLifetime) (event : AssistantStreamEvent) (flushed : Bool) :
    Except AssistantFailure AssistantLifetime := do
  lifetime.check
  if !lifetime.streaming || lifetime.terminal then pure lifetime
  else
    let lifetime := lifetime.write (.event event)
    if flushed then pure (lifetime.settle event) else pure { lifetime with waiting := lifetime.waiting ++ [event] }

def drained (lifetime : AssistantLifetime) : AssistantLifetime :=
  lifetime.waiting.foldl settle { lifetime with waiting := [] }

/-- What is no `DomainError` is not told. -/
def fail (lifetime : AssistantLifetime) (failure : Option AssistantFailure) : AssistantLifetime :=
  if lifetime.streaming && !lifetime.terminal && !lifetime.destroyed then
    let safe := failure.getD requestFailed
    ({ lifetime with terminal := true }.write (.event (.error safe))).abort safe
  else lifetime

def disconnect (lifetime : AssistantLifetime) : AssistantLifetime :=
  if lifetime.writableFinished then lifetime else lifetime.abort stopped

def dispose (lifetime : AssistantLifetime) : AssistantLifetime := { lifetime with disposed := true }.abort ended

def events (lifetime : AssistantLifetime) : List AssistantStreamEvent := lifetime.written.filterMap AssistantFrame.event?

def stream (lifetime : AssistantLifetime) : JsString := SseFrame.stream (lifetime.written.map AssistantFrame.sse)

end AssistantLifetime

inductive AssistantAction where
  | start
  | heartbeat (buffered : Nat)
  | emit (event : AssistantStreamEvent) (flushed : Bool)
  | drained
  | fail (failure : Option AssistantFailure)
  | idle
  | cancel (reason : AssistantFailure)
  | disconnect
  | finished
  | destroyed
  | dispose

namespace AssistantLifetime

/-- An action that throws changes nothing. The timer for an idle answer is cleared with the lifetime. -/
def perform (lifetime : AssistantLifetime) : AssistantAction → AssistantLifetime
  | .start => lifetime.start.toOption.getD lifetime
  | .heartbeat buffered => lifetime.heartbeat buffered
  | .emit event flushed => (lifetime.emit event flushed).toOption.getD lifetime
  | .drained => lifetime.drained
  | .fail failure => lifetime.fail failure
  | .idle => if lifetime.disposed then lifetime else lifetime.abort idleTimeout
  | .cancel reason => lifetime.abort reason
  | .disconnect => lifetime.disconnect
  | .finished => { lifetime with writableFinished := true }
  | .destroyed => { lifetime with destroyed := true }
  | .dispose => lifetime.dispose

/-- The result is the last that the handler emits, and it tells of failures by `fail` alone. Progress of
an attempt that failed may still wait when the next one emits. -/
def Awaits (lifetime : AssistantLifetime) : AssistantAction → Prop
  | .emit event _ => (∀ result, .done result ∉ lifetime.waiting) ∧ ∀ failure, event ≠ .error failure
  | _ => True

end AssistantLifetime

def assistantSystem : System AssistantLifetime AssistantAction where
  init lifetime := ∃ accepts, lifetime = .opened accepts
  step lifetime action after := lifetime.Awaits action ∧ after = lifetime.perform action

namespace AssistantLifetime

/-! ## What has been written -/

inductive Stage (lifetime : AssistantLifetime) : List AssistantStreamEvent → Prop where
  | progress (live : lifetime.terminal = false) (waits : ∀ event ∈ lifetime.waiting, event.IsProgress) :
      Stage lifetime []
  | written (result : AssistantChatReply) (waits : .done result ∈ lifetime.waiting)
      (free : lifetime.aborted = none) : Stage lifetime [.done result]
  | given (result : AssistantChatReply) (past : lifetime.terminal = true ∨ lifetime.aborted ≠ none)
      (waits : ∀ event ∈ lifetime.waiting, event.IsProgress) : Stage lifetime [.done result]
  | failed (failure : AssistantFailure) (past : lifetime.terminal = true) (aborted : lifetime.aborted ≠ none) :
      Stage lifetime [.error failure]
  | late (result : AssistantChatReply) (failure : AssistantFailure) (past : lifetime.terminal = true)
      (aborted : lifetime.aborted ≠ none) : Stage lifetime [.done result, .error failure]

structure Shaped (lifetime : AssistantLifetime) (progress tail : List AssistantStreamEvent) : Prop where
  events : lifetime.events = progress ++ tail
  progress : ∀ event ∈ progress, event.IsProgress
  stage : lifetime.Stage tail
  given_up : lifetime.aborted ≠ none → lifetime.waiting = []
  comments : ∀ frame ∈ lifetime.written, frame.event? = none → frame.sse.Fits

variable {lifetime : AssistantLifetime} {progress tail : List AssistantStreamEvent}

theorem events_write (lifetime : AssistantLifetime) (frame : AssistantFrame) :
    (lifetime.write frame).events = lifetime.events ++ frame.event?.toList := by
  cases hEvent : frame.event? <;> simp [events, write, hEvent]

theorem settle_progress (lifetime : AssistantLifetime) {event : AssistantStreamEvent} (h : event.IsProgress) :
    lifetime.settle event = lifetime := by
  cases event with
  | status _ _ => rfl
  | delta _ _ => rfl
  | done _ => cases h
  | error _ => cases h

theorem progress_or_done {event : AssistantStreamEvent} (h : ∀ failure, event ≠ .error failure) :
    event.IsProgress ∨ ∃ result, event = .done result := by
  cases event with
  | status _ _ => exact .inl trivial
  | delta _ _ => exact .inl trivial
  | done result => exact .inr ⟨result, rfl⟩
  | error failure => exact absurd rfl (h failure)

theorem Shaped.of_eq {after : AssistantLifetime} (h : Shaped lifetime progress tail)
    (hWritten : after.written = lifetime.written) (hTerminal : after.terminal = lifetime.terminal)
    (hAborted : after.aborted = lifetime.aborted) (hWaiting : after.waiting = lifetime.waiting) :
    Shaped after progress tail where
  events := by
    rw [AssistantLifetime.events, hWritten]
    exact h.events
  progress := h.progress
  stage := by
    cases h.stage with
    | progress hOpen waits => exact .progress (hTerminal.trans hOpen) (by rwa [hWaiting])
    | written result waits free => exact .written result (by rwa [hWaiting]) (hAborted.trans free)
    | given result past waits => exact .given result (by rwa [hTerminal, hAborted]) (by rwa [hWaiting])
    | failed failure past aborted => exact .failed failure (hTerminal.trans past) (by rwa [hAborted])
    | late result failure past aborted => exact .late result failure (hTerminal.trans past) (by rwa [hAborted])
  given_up := by
    rw [hAborted, hWaiting]
    exact h.given_up
  comments := by
    rw [hWritten]
    exact h.comments

theorem Shaped.abort (h : Shaped lifetime progress tail) (reason : AssistantFailure) :
    Shaped (lifetime.abort reason) progress tail := by
  unfold AssistantLifetime.abort
  cases hAborted : lifetime.aborted with
  | some _ => exact h
  | none =>
    refine ⟨h.events, h.progress, ?_, fun _ => rfl, h.comments⟩
    cases h.stage with
    | progress hOpen _ => exact .progress hOpen (fun _ hNone => by cases hNone)
    | written result _ _ => exact .given result (.inr (Option.some_ne_none _)) (fun _ hNone => by cases hNone)
    | given result _ _ => exact .given result (.inr (Option.some_ne_none _)) (fun _ hNone => by cases hNone)
    | failed _ _ aborted => exact absurd hAborted aborted
    | late _ _ _ aborted => exact absurd hAborted aborted

theorem comments_write (h : Shaped lifetime progress tail) {frame : AssistantFrame}
    (hFrame : frame.event? = none → frame.sse.Fits) :
    ∀ other ∈ (lifetime.write frame).written, other.event? = none → other.sse.Fits := by
  intro other hOther hNone
  rcases List.mem_append.mp hOther with hBefore | hHere
  · exact h.comments other hBefore hNone
  · obtain rfl := List.mem_singleton.mp hHere
    exact hFrame hNone

theorem Shaped.comment (h : Shaped lifetime progress tail) {text : JsString}
    (hText : text = units "connected" ∨ text = units "heartbeat") :
    Shaped (lifetime.write (.comment text)) progress tail where
  events := by
    rw [events_write, h.events]
    exact List.append_nil _
  progress := h.progress
  stage := by
    cases h.stage with
    | progress hOpen waits => exact .progress hOpen waits
    | written result waits free => exact .written result waits free
    | given result past waits => exact .given result past waits
    | failed failure past aborted => exact .failed failure past aborted
    | late result failure past aborted => exact .late result failure past aborted
  given_up := h.given_up
  comments := by
    refine comments_write h fun _ => ?_
    rcases hText with rfl | rfl
    · exact ⟨List.all_iff_forall_prop.mp (by decide), by decide⟩
    · exact ⟨List.all_iff_forall_prop.mp (by decide), by decide⟩

theorem start_cases (lifetime : AssistantLifetime) : lifetime.start.toOption.getD lifetime = lifetime ∨
    lifetime.start.toOption.getD lifetime = { lifetime with streaming := true }.write (.comment (units "connected")) := by
  unfold AssistantLifetime.start check
  cases lifetime.aborted with
  | some _ => exact .inl rfl
  | none =>
    cases hAccepts : lifetime.accepts with
    | true => exact .inr rfl
    | false => exact .inl rfl

theorem Shaped.start (h : Shaped lifetime progress tail) :
    Shaped (lifetime.start.toOption.getD lifetime) progress tail := by
  rcases lifetime.start_cases with hSame | hStarted
  · rwa [hSame]
  · have hStreaming : Shaped { lifetime with streaming := true } progress tail := h.of_eq rfl rfl rfl rfl
    rw [hStarted]
    exact hStreaming.comment (.inl rfl)

theorem Shaped.heartbeat (h : Shaped lifetime progress tail) (buffered : Nat) :
    Shaped (lifetime.heartbeat buffered) progress tail := by
  unfold AssistantLifetime.heartbeat
  split
  · exact h.comment (.inr rfl)
  · exact h

/-- An event is written only while the answer is open. -/
theorem emit_cases (lifetime : AssistantLifetime) (event : AssistantStreamEvent) (flushed : Bool) :
    (lifetime.emit event flushed).toOption.getD lifetime = lifetime ∨ lifetime.aborted = none ∧ lifetime.terminal = false ∧
      (lifetime.emit event flushed).toOption.getD lifetime =
        if flushed then (lifetime.write (.event event)).settle event
        else { lifetime.write (.event event) with waiting := lifetime.waiting ++ [event] } := by
  unfold AssistantLifetime.emit check
  cases hAborted : lifetime.aborted with
  | some _ => exact .inl rfl
  | none =>
    cases hStreaming : lifetime.streaming with
    | false => exact .inl rfl
    | true =>
      cases hTerminal : lifetime.terminal with
      | true => exact .inl rfl
      | false => cases flushed <;> exact .inr ⟨rfl, rfl, rfl⟩

theorem Shaped.emit (h : Shaped lifetime progress tail) {event : AssistantStreamEvent}
    (hAwaits : ∀ result, .done result ∉ lifetime.waiting) (hEvent : ∀ failure, event ≠ .error failure) (flushed : Bool) :
    ∃ progress tail, Shaped ((lifetime.emit event flushed).toOption.getD lifetime) progress tail := by
  obtain hSame | ⟨hAborted, hOpen, hWritten⟩ := lifetime.emit_cases event flushed
  · exact ⟨progress, tail, by rwa [hSame]⟩
  rw [hWritten]
  obtain ⟨rfl, hWaits⟩ : tail = [] ∧ ∀ event ∈ lifetime.waiting, event.IsProgress := by
    cases h.stage with
    | progress _ waits => exact ⟨rfl, waits⟩
    | written result waits _ => exact absurd waits (hAwaits result)
    | given _ past _ => exact absurd past (by simp [hOpen, hAborted])
    | failed _ _ aborted => exact absurd hAborted aborted
    | late _ _ _ aborted => exact absurd hAborted aborted
  have hEvents (e : AssistantStreamEvent) : (lifetime.write (.event e)).events = progress ++ [e] := by
    rw [events_write, h.events, List.append_nil]
    rfl
  have hComments := comments_write h fun hNone : (AssistantFrame.event event).event? = none => by cases hNone
  have hMore {events : List AssistantStreamEvent} {e : AssistantStreamEvent} (hAll : ∀ event ∈ events, event.IsProgress)
      (he : e.IsProgress) : ∀ event ∈ events ++ [e], event.IsProgress := by
    intro other hOther
    rcases List.mem_append.mp hOther with hBefore | hHere
    · exact hAll other hBefore
    · rwa [List.mem_singleton.mp hHere]
  rcases progress_or_done hEvent with hProgress | ⟨result, rfl⟩
  · refine ⟨progress ++ [event], [], ?_⟩
    cases flushed with
    | true =>
      rw [if_pos rfl, settle_progress _ hProgress]
      exact ⟨by rw [List.append_nil]; exact hEvents _, hMore h.progress hProgress, .progress hOpen hWaits,
        fun hGiven => absurd hAborted hGiven, hComments⟩
    | false =>
      rw [if_neg Bool.false_ne_true]
      exact ⟨by rw [List.append_nil]; exact hEvents _, hMore h.progress hProgress,
        .progress hOpen (hMore hWaits hProgress), fun hGiven => absurd hAborted hGiven, hComments⟩
  · refine ⟨progress, [.done result], ?_⟩
    cases flushed with
    | true =>
      rw [if_pos rfl]
      exact ⟨hEvents _, h.progress, .given result (.inl rfl) hWaits, fun hGiven => absurd hAborted hGiven, hComments⟩
    | false =>
      rw [if_neg Bool.false_ne_true]
      exact ⟨hEvents _, h.progress, .written result (List.mem_append_right _ (List.mem_singleton.mpr rfl)) hAborted,
        fun hGiven => absurd hAborted hGiven, hComments⟩

theorem foldl_settle_progress (lifetime : AssistantLifetime) {events : List AssistantStreamEvent}
    (h : ∀ event ∈ events, event.IsProgress) : events.foldl settle lifetime = lifetime := by
  induction events with
  | nil => rfl
  | cons event events ih =>
    rw [List.foldl_cons, settle_progress _ (h event (List.mem_cons_self ..))]
    exact ih fun other hOther => h other (List.mem_cons_of_mem _ hOther)

theorem foldl_settle (lifetime : AssistantLifetime) (events : List AssistantStreamEvent) :
    ∃ terminal, events.foldl settle lifetime = { lifetime with terminal } ∧
      ((lifetime.terminal = true ∨ ∃ result, .done result ∈ events) → terminal = true) := by
  induction events generalizing lifetime with
  | nil => exact ⟨lifetime.terminal, rfl, by simp⟩
  | cons event events ih =>
    obtain ⟨terminal, hFold, hTerminal⟩ := ih (lifetime.settle event)
    refine ⟨terminal, ?_, ?_⟩
    · rw [List.foldl_cons, hFold]
      cases event <;> rfl
    · rintro (hPast | ⟨result, hDone⟩)
      · refine hTerminal (.inl ?_)
        cases event <;> first | rfl | exact hPast
      · rcases List.mem_cons.mp hDone with rfl | hLater
        · exact hTerminal (.inl rfl)
        · exact hTerminal (.inr ⟨result, hLater⟩)

theorem Shaped.drained (h : Shaped lifetime progress tail) : Shaped lifetime.drained progress tail := by
  have hNone : ∀ event ∈ ([] : List AssistantStreamEvent), event.IsProgress := fun _ hNone => by cases hNone
  obtain ⟨terminal, hDrained, hTerminal⟩ := foldl_settle { lifetime with waiting := [] } lifetime.waiting
  have hProgress (hWaits : ∀ event ∈ lifetime.waiting, event.IsProgress) :
      lifetime.drained = { lifetime with waiting := [] } := foldl_settle_progress _ hWaits
  cases h.stage with
  | progress hOpen waits =>
    rw [hProgress waits]
    exact ⟨h.events, h.progress, .progress hOpen hNone, fun _ => rfl, h.comments⟩
  | written result waits free =>
    rw [AssistantLifetime.drained, hDrained]
    exact ⟨h.events, h.progress, .given result (.inl (hTerminal (.inr ⟨result, waits⟩))) hNone, fun _ => rfl, h.comments⟩
  | given result past waits =>
    rw [hProgress waits]
    exact ⟨h.events, h.progress, .given result past hNone, fun _ => rfl, h.comments⟩
  | failed failure past aborted =>
    rw [hProgress (h.given_up aborted ▸ hNone)]
    exact ⟨h.events, h.progress, .failed failure past aborted, fun _ => rfl, h.comments⟩
  | late result failure past aborted =>
    rw [hProgress (h.given_up aborted ▸ hNone)]
    exact ⟨h.events, h.progress, .late result failure past aborted, fun _ => rfl, h.comments⟩

theorem Shaped.fail (h : Shaped lifetime progress tail) (failure : Option AssistantFailure) :
    ∃ tail, Shaped (lifetime.fail failure) progress tail := by
  unfold AssistantLifetime.fail
  split
  case isFalse => exact ⟨tail, h⟩
  case isTrue hLive =>
    simp only [Bool.and_eq_true, Bool.not_eq_true'] at hLive
    let safe := failure.getD requestFailed
    let closed := { lifetime with terminal := true }.write (.event (.error safe))
    have hEvents : (closed.abort safe).events = progress ++ (tail ++ [.error safe]) := by
      have hClosed : closed.events = lifetime.events ++ [.error safe] := events_write _ _
      rw [← List.append_assoc, ← h.events, ← hClosed]
      unfold AssistantLifetime.abort
      split <;> rfl
    have hTerminal : (closed.abort safe).terminal = true := by
      unfold AssistantLifetime.abort
      split <;> rfl
    have hAborted : (closed.abort safe).aborted ≠ none := by
      unfold AssistantLifetime.abort
      split
      case h_1 hSome => rw [hSome]; exact Option.some_ne_none _
      case h_2 => exact Option.some_ne_none _
    have hIdle : (closed.abort safe).waiting = [] := by
      unfold AssistantLifetime.abort
      split
      case h_1 hSome => exact h.given_up (show lifetime.aborted ≠ none from fun hNone => by cases hNone.symm.trans hSome)
      case h_2 => rfl
    have hComments : ∀ frame ∈ (closed.abort safe).written, frame.event? = none → frame.sse.Fits := by
      have hClosed := comments_write h fun hNone : (AssistantFrame.event (.error safe)).event? = none => by cases hNone
      unfold AssistantLifetime.abort
      split <;> exact hClosed
    have hStage : ∃ tail', (closed.abort safe).events = progress ++ tail' ∧ (closed.abort safe).Stage tail' := by
      cases h.stage with
      | progress _ _ => exact ⟨[.error safe], hEvents, .failed safe hTerminal hAborted⟩
      | written result _ _ => exact ⟨[.done result, .error safe], hEvents, .late result safe hTerminal hAborted⟩
      | given result _ _ => exact ⟨[.done result, .error safe], hEvents, .late result safe hTerminal hAborted⟩
      | failed _ past _ => exact absurd past (by simp [hLive.1.2])
      | late _ _ past _ => exact absurd past (by simp [hLive.1.2])
    obtain ⟨tail', hWritten, hStage⟩ := hStage
    exact ⟨tail', hWritten, h.progress, hStage, fun _ => hIdle, hComments⟩

theorem Shaped.perform (h : Shaped lifetime progress tail) {action : AssistantAction} (hAwaits : lifetime.Awaits action) :
    ∃ progress tail, Shaped (lifetime.perform action) progress tail := by
  cases action with
  | start => exact ⟨_, _, h.start⟩
  | heartbeat buffered => exact ⟨_, _, h.heartbeat buffered⟩
  | emit event flushed => exact h.emit hAwaits.1 hAwaits.2 flushed
  | drained => exact ⟨_, _, h.drained⟩
  | fail failure => exact ⟨progress, h.fail failure⟩
  | idle =>
    change ∃ progress tail, Shaped (if lifetime.disposed then lifetime else lifetime.abort idleTimeout) progress tail
    split
    · exact ⟨_, _, h⟩
    · exact ⟨_, _, h.abort _⟩
  | cancel reason => exact ⟨_, _, h.abort reason⟩
  | disconnect =>
    change ∃ progress tail, Shaped (if lifetime.writableFinished then lifetime else lifetime.abort stopped) progress tail
    split
    · exact ⟨_, _, h⟩
    · exact ⟨_, _, h.abort _⟩
  | finished => exact ⟨_, _, h.of_eq rfl rfl rfl rfl⟩
  | destroyed => exact ⟨_, _, h.of_eq rfl rfl rfl rfl⟩
  | dispose =>
    have hDisposed : Shaped { lifetime with disposed := true } progress tail := h.of_eq rfl rfl rfl rfl
    exact ⟨_, _, hDisposed.abort _⟩

/-- Whatever happens in whatever order, the stream is progress and then one end at most, or a result
that a failure comes too late for. -/
theorem reachable_shaped (h : Reachable assistantSystem lifetime) : ∃ progress tail, Shaped lifetime progress tail := by
  refine Reachable.invariant (P := fun l => ∃ progress tail, Shaped l progress tail) ?_ ?_ h
  · rintro _ ⟨accepts, rfl⟩
    exact ⟨[], [], rfl, by simp, .progress rfl (fun _ hNone => by cases hNone), fun _ => rfl, by simp [opened]⟩
  · rintro before action _ - ⟨progress, tail, hBefore⟩ ⟨hAwaits, rfl⟩
    exact hBefore.perform hAwaits

end AssistantLifetime

end GreenPms
