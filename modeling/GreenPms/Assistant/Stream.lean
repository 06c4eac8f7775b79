import GreenPms.Assistant.Lifetime
import GreenPms.Foundation.Encoding

/-! # Reading an answer

The browser decodes the chunks of a response, shows each event of progress and ends with the result or
with the message of a failure. Whatever part of the stream has arrived and in whatever chunks, it has
shown what the server wrote.
-/

namespace GreenPms

open JsString TransitionSystem

/-! ## The reader -/

structure ResponseChunk where
  byteLength : Nat
  text : JsString
  empty : byteLength = 0 → text = []

namespace JsonTree

/-- A property of an object that was parsed: of members with one key, the last. -/
def member : JsonTree → JsString → Option JsonTree
  | obj members, key => members.reverse.lookup key
  | _, _ => none

def asString : JsonTree → Option JsString
  | str value => some value
  | _ => none

def asNumber : JsonTree → Option JsNumber
  | num value => some value
  | _ => none

def asArray : JsonTree → Option (List JsonTree)
  | arr items => some items
  | _ => none

def stringMember (t : JsonTree) (key : JsString) : Option JsString := (t.member key).bind asString

def numberMember (t : JsonTree) (key : JsString) : Option JsNumber := (t.member key).bind asNumber

end JsonTree

def JsNumber.isInteger (x : JsNumber) : Bool := x.value.den = 1

namespace AssistantReader

def invalidFormat : JsString := units "回答格式异常，请重试。"

def tooLong : JsString := units "回答过长，请缩小问题范围后重试。"

def interrupted : JsString := units "回答连接已中断，本次内容尚未完成，请重试。"

/-- What `onEvent` is given, and the end of the answer where it is reached. -/
abbrev Progress := List JsonTree × Option (Except JsString JsonTree)

def isShort (text : Option JsString) : Bool := text.any fun text => text.length ≤ 12000

def roundInRange (round : Option JsNumber) : Bool := round.any fun round => round.isInteger && 1 ≤ round.value && round.value ≤ 4

/-- The body of the loop over events. A property of `null` throws. -/
def readEvent (event : JsonTree) : Progress :=
  let type := event.stringMember (units "type")
  let result := event.member (units "result")
  if event matches .null then ([], some (.error (units "Cannot read properties of null (reading 'type')")))
  else if type = some (units "delta") ∧ isShort (event.stringMember (units "text")) ∨
      type = some (units "status") ∧
        (event.stringMember (units "phase")).any (· ∈ [units "thinking", units "tool", units "fallback"]) then
    if roundInRange (event.numberMember (units "round")) then ([event], none) else ([], some (.error invalidFormat))
  else if type = some (units "error") ∧ (event.stringMember (units "message")).isSome ∧
      (event.stringMember (units "code")).isSome ∧ (event.numberMember (units "status")).isSome then
    ([event], some (.error ((event.stringMember (units "message")).getD [])))
  else if type = some (units "done") ∧ isShort (result.bind (·.stringMember (units "text"))) ∧
      (result.bind (·.stringMember (units "conversationId"))).isSome ∧
      ((result.bind (·.member (units "entries"))).bind JsonTree.asArray).isSome then
    ([], some (.ok (result.getD .null)))
  else ([], some (.error invalidFormat))

/-- `parse` is `JSON.parse`. -/
def readEvents (parse : JsString → Except JsString JsonTree) : List JsString → Progress
  | [] => ([], none)
  | data :: rest =>
      match parse data with
      | .error message => ([], some (.error message))
      | .ok event =>
          match readEvent event with
          | (shown, some outcome) => (shown, some outcome)
          | (shown, none) => (shown ++ (readEvents parse rest).1, (readEvents parse rest).2)

def readChunks (parse : JsString → Except JsString JsonTree) (size : Nat) (frames : SseDecoder) :
    List ResponseChunk → List JsonTree × Except JsString JsonTree
  | [] => ([], .error interrupted)
  | chunk :: rest =>
      if chunk.byteLength = 0 then readChunks parse size frames rest
      else if 1000000 < size + chunk.byteLength then ([], .error tooLong)
      else
        match frames.push chunk.text with
        | .error message => ([], .error (units message))
        | .ok (frames, events) =>
            match readEvents parse events with
            | (shown, some outcome) => (shown, outcome)
            | (shown, none) =>
                let later := readChunks parse (size + chunk.byteLength) frames rest
                (shown ++ later.1, later.2)

end AssistantReader

open AssistantReader in
/-- The events that are shown, and the result or the message that is thrown. -/
def readAssistantStream (parse : JsString → Except JsString JsonTree) (chunks : List ResponseChunk) :
    List JsonTree × Except JsString JsonTree :=
  readChunks parse 0 .start chunks

/-! ## What a listener makes of events -/

namespace AssistantStreamEvent

open AssistantReader

/-- The limits that the reader checks an event by, and the length of its frame. -/
structure Sound (event : AssistantStreamEvent) : Prop where
  limits : match event with
    | status _ round => roundInRange (some round) = true
    | delta text round => text.length ≤ 12000 ∧ roundInRange (some round) = true
    | done result => result.text.length ≤ 12000
    | error _ => True
  framed : event.text.length + 6 ≤ SseDecoder.eventLimit

def deliver : List AssistantStreamEvent → AssistantReader.Progress
  | [] => ([], none)
  | event :: rest =>
      match event with
      | done result => ([], some (.ok result.tree))
      | error failure => ([event.tree], some (.error failure.message))
      | status .. | delta .. => (event.tree :: (deliver rest).1, (deliver rest).2)

theorem deliver_append (events later : List AssistantStreamEvent) (h : (deliver events).2 = none) :
    deliver (events ++ later) = ((deliver events).1 ++ (deliver later).1, (deliver later).2) := by
  induction events with
  | nil => rfl
  | cons event events ih =>
    cases event with
    | done _ => cases h
    | error _ => cases h
    | status _ _ => simp only [List.cons_append, deliver, ih h]
    | delta _ _ => simp only [List.cons_append, deliver, ih h]

theorem deliver_over (events later : List AssistantStreamEvent) {outcome : Except JsString JsonTree}
    (h : (deliver events).2 = some outcome) : deliver (events ++ later) = deliver events := by
  induction events with
  | nil => cases h
  | cons event events ih =>
    cases event with
    | done _ => rfl
    | error _ => rfl
    | status _ _ => simp only [List.cons_append, deliver, ih h]
    | delta _ _ => simp only [List.cons_append, deliver, ih h]

theorem readEvent_status {phase : AssistantPhase} {round : JsNumber} (h : roundInRange (some round) = true) :
    readEvent (status phase round).tree = ([(status phase round).tree], none) := by
  have hType : (status phase round).tree.stringMember (units "type") = some (units "status") := rfl
  have hPhase : (status phase round).tree.stringMember (units "phase") = some phase.name := rfl
  have hRound : (status phase round).tree.numberMember (units "round") = some round := rfl
  have hKnown : (some phase.name).any (· ∈ [units "thinking", units "tool", units "fallback"]) = true := by
    cases phase <;> decide
  unfold readEvent
  dsimp only
  rw [hType, hPhase, hRound, if_neg (by simp [tree]), if_pos (.inr ⟨rfl, hKnown⟩), if_pos h]

theorem readEvent_delta {text : JsString} {round : JsNumber} (hText : text.length ≤ 12000)
    (h : roundInRange (some round) = true) : readEvent (delta text round).tree = ([(delta text round).tree], none) := by
  have hType : (delta text round).tree.stringMember (units "type") = some (units "delta") := rfl
  have hMember : (delta text round).tree.stringMember (units "text") = some text := rfl
  have hRound : (delta text round).tree.numberMember (units "round") = some round := rfl
  have hShort : isShort (some text) = true := decide_eq_true hText
  unfold readEvent
  dsimp only
  rw [hType, hMember, hRound, if_neg (by simp [tree]), if_pos (.inl ⟨rfl, hShort⟩), if_pos h]

theorem readEvent_error (failure : AssistantFailure) :
    readEvent (error failure).tree = ([(error failure).tree], some (.error failure.message)) := by
  have hMembers : (error failure).tree.stringMember (units "type") = some (units "error") ∧
      (error failure).tree.stringMember (units "message") = some failure.message ∧
      (error failure).tree.stringMember (units "code") = some failure.code ∧
      (error failure).tree.numberMember (units "status") = some failure.statusCode := by
    cases hRetry : failure.backupRetryAvailable <;> simp only [tree, hRetry] <;> exact ⟨rfl, rfl, rfl, rfl⟩
  obtain ⟨hType, hMessage, hCode, hStatus⟩ := hMembers
  have hNeither : ¬(some (units "error") = some (units "delta") ∧ isShort ((error failure).tree.stringMember (units "text")) ∨
      some (units "error") = some (units "status") ∧ ((error failure).tree.stringMember (units "phase")).any
        (· ∈ [units "thinking", units "tool", units "fallback"])) := by
    rintro (⟨hOther, -⟩ | ⟨hOther, -⟩)
    · exact absurd hOther (by decide)
    · exact absurd hOther (by decide)
  unfold readEvent
  dsimp only
  rw [hType, hMessage, hCode, hStatus, if_neg (by simp [tree]), if_neg hNeither, if_pos ⟨rfl, rfl, rfl, rfl⟩]
  rfl

theorem readEvent_done {result : AssistantChatReply} (hText : result.text.length ≤ 12000) :
    readEvent (done result).tree = ([], some (.ok result.tree)) := by
  have hType : (done result).tree.stringMember (units "type") = some (units "done") := rfl
  have hResult : (done result).tree.member (units "result") = some result.tree := rfl
  have hMembers : result.tree.stringMember (units "text") = some result.text ∧
      result.tree.stringMember (units "conversationId") = some result.conversationId ∧
      (result.tree.member (units "entries")).bind JsonTree.asArray = some result.entries := by
    cases hQuestion : result.questionId <;> simp only [AssistantChatReply.tree, hQuestion] <;> exact ⟨rfl, rfl, rfl⟩
  obtain ⟨hAnswer, hConversation, hEntries⟩ := hMembers
  have hShort : isShort (some result.text) = true := decide_eq_true hText
  have hNeither : ¬(some (units "done") = some (units "delta") ∧ isShort ((done result).tree.stringMember (units "text")) ∨
      some (units "done") = some (units "status") ∧ ((done result).tree.stringMember (units "phase")).any
        (· ∈ [units "thinking", units "tool", units "fallback"])) := by
    rintro (⟨hOther, -⟩ | ⟨hOther, -⟩)
    · exact absurd hOther (by decide)
    · exact absurd hOther (by decide)
  have hNoError : ¬(some (units "done") = some (units "error") ∧
      ((done result).tree.stringMember (units "message")).isSome ∧
      ((done result).tree.stringMember (units "code")).isSome ∧
      ((done result).tree.numberMember (units "status")).isSome) := fun hError => absurd hError.1 (by decide)
  unfold readEvent
  dsimp only
  rw [hType, hResult, if_neg (by simp [tree]), if_neg hNeither, if_neg hNoError, Option.bind_some, Option.bind_some,
    Option.bind_some, hAnswer, hConversation, hEntries, if_pos ⟨rfl, hShort, rfl, rfl⟩]
  rfl

theorem readEvent_tree {event : AssistantStreamEvent} (h : event.Sound) : readEvent event.tree = deliver [event] := by
  have hLimits := h.limits
  cases event with
  | status _ _ => exact readEvent_status hLimits
  | delta _ _ => exact readEvent_delta hLimits.1 hLimits.2
  | done _ => exact readEvent_done hLimits
  | error failure => exact readEvent_error failure

variable {parse : JsString → Except JsString JsonTree}

theorem readEvents_texts {events : List AssistantStreamEvent} (h : ∀ event ∈ events, event.Sound)
    (hParse : ∀ event ∈ events, parse event.text = .ok event.tree) : readEvents parse (events.map text) = deliver events := by
  induction events with
  | nil => rfl
  | cons event events ih =>
    obtain ⟨hHead, hTail⟩ := List.forall_mem_cons.mp h
    obtain ⟨hParseHead, hParseTail⟩ := List.forall_mem_cons.mp hParse
    rw [List.map_cons, readEvents, hParseHead]
    dsimp only
    rw [readEvent_tree hHead, ih hTail hParseTail]
    cases event <;> rfl

theorem Sound.fits {event : AssistantStreamEvent} (h : event.Sound) : (AssistantFrame.event event).sse.Fits where
  unbroken u hu := by
    rcases List.mem_append.mp hu with hPrefix | hText
    · have hAll : ∀ u ∈ units "data: ", u ≠ SseDecoder.lineFeed ∧ u ≠ SseDecoder.carriageReturn :=
        List.all_iff_forall_prop.mp (by decide)
      exact hAll u hPrefix
    · have hUnit := event.tree.text_printable u hText
      constructor
      · rintro rfl
        exact absurd hUnit (by decide)
      · rintro rfl
        exact absurd hUnit (by decide)
  small := by
    have hLength : (AssistantFrame.event event).sse.line.length = 6 + event.text.length := List.length_append
    rw [hLength, Nat.add_comm]
    exact h.framed

end AssistantStreamEvent

namespace AssistantReader

open AssistantStreamEvent

def finish (progress : Progress) : List JsonTree × Except JsString JsonTree :=
  (progress.1, progress.2.getD (.error interrupted))

theorem readChunks_stream {parse : JsString → Except JsString JsonTree} {frames : List AssistantFrame}
    (hFits : ∀ frame ∈ frames, frame.sse.Fits) {past future : List AssistantStreamEvent}
    (hEvents : frames.filterMap AssistantFrame.event? = past ++ future) (hSound : ∀ event ∈ future, event.Sound)
    (hParse : ∀ event ∈ future, parse event.text = .ok event.tree) {chunks : List ResponseChunk} {arrived rest : JsString}
    (hStream : arrived ++ (chunks.flatMap ResponseChunk.text ++ rest) = SseFrame.stream (frames.map AssistantFrame.sse))
    {decoder : SseDecoder} (hArrived : SseDecoder.drain ⟨arrived, [], 0⟩ = .ok (decoder, past.map text)) {size : Nat}
    (hSize : size + (chunks.map ResponseChunk.byteLength).sum ≤ 1000000) :
    ∃ now later, future = now ++ later ∧ readChunks parse size decoder chunks = finish (deliver now) ∧
      (rest = [] → deliver now = deliver future) := by
  have hFrames : ∀ frame ∈ frames.map AssistantFrame.sse, frame.Fits := List.forall_mem_map.mpr hFits
  have hData : (frames.map AssistantFrame.sse).filterMap SseFrame.data? = (past ++ future).map text := by
    rw [AssistantFrame.data_sse, hEvents]
  induction chunks generalizing past future arrived decoder size with
  | nil =>
    refine ⟨[], future, rfl, rfl, fun hNone => ?_⟩
    obtain ⟨d, events, hDrained, -, -, hAll⟩ := SseDecoder.drain_stream hFrames hStream
    rw [List.flatMap_nil, List.nil_append] at hStream
    have hSame := hDrained.symm.trans hArrived
    rw [hAll (by rw [List.flatMap_nil, List.nil_append, hNone]), hData, Except.ok.injEq, Prod.mk.injEq, List.map_append] at hSame
    have hFuture : future = [] := List.map_eq_nil_iff.mp (List.append_right_eq_self.mp hSame.2)
    rw [hFuture]
  | cons chunk chunks ih =>
    rw [List.map_cons, List.sum_cons] at hSize
    rw [List.flatMap_cons] at hStream
    by_cases hEmpty : chunk.byteLength = 0
    · rw [chunk.empty hEmpty, List.nil_append] at hStream
      rw [readChunks, if_pos hEmpty]
      exact ih hEvents hSound hParse hStream hArrived (by omega) hData
    · rw [readChunks, if_neg hEmpty, if_neg (by omega)]
      rw [List.append_assoc, ← List.append_assoc] at hStream
      obtain ⟨decoder', later, hPush, hDrained, suffix, hSuffix⟩ := SseDecoder.push_stream hFrames hStream hArrived
      rw [hData, List.map_append, List.append_assoc] at hSuffix
      obtain ⟨now, others, rfl, rfl, -⟩ := List.map_eq_append_iff.mp (List.append_cancel_left hSuffix).symm
      have hNow : ∀ event ∈ now, event.Sound := fun event hEvent => hSound event (List.mem_append_left _ hEvent)
      rw [hPush]
      dsimp only
      rw [readEvents_texts hNow fun event hEvent => hParse event (List.mem_append_left _ hEvent)]
      cases hOver : (deliver now).2 with
      | some outcome =>
        refine ⟨now, others, rfl, ?_, fun _ => (deliver_over now others hOver).symm⟩
        have hPair : deliver now = ((deliver now).1, some outcome) := Prod.ext rfl hOver
        rw [hPair]
        rfl
      | none =>
        rw [← List.append_assoc] at hEvents hData
        rw [← List.map_append] at hDrained
        have hLeft : size + chunk.byteLength + (chunks.map ResponseChunk.byteLength).sum ≤ 1000000 := by omega
        obtain ⟨more, rest', rfl, hRead, hAll⟩ := ih hEvents
          (fun event hEvent => hSound event (List.mem_append_right _ hEvent))
          (fun event hEvent => hParse event (List.mem_append_right _ hEvent)) hStream hDrained hLeft hData
        refine ⟨now ++ more, rest', (List.append_assoc ..).symm, ?_, fun hNone => ?_⟩
        · have hPair : deliver now = ((deliver now).1, none) := Prod.ext rfl hOver
          rw [deliver_append now more hOver, hPair]
          dsimp only
          rw [hRead]
          rfl
        · rw [deliver_append now more hOver, deliver_append now _ hOver, hAll hNone]

end AssistantReader

/-! ## What the browser is told -/

open AssistantReader AssistantStreamEvent

/-- What the browser shows and how it ends, for the events of an answer. -/
inductive Told : List AssistantStreamEvent → List JsonTree → Except JsString JsonTree → Prop where
  | result (progress late : List AssistantStreamEvent) (reply : AssistantChatReply) (h : ∀ e ∈ progress, e.IsProgress) :
      Told (progress ++ .done reply :: late) (progress.map tree) (.ok reply.tree)
  | failure (progress : List AssistantStreamEvent) (failure : AssistantFailure) (h : ∀ e ∈ progress, e.IsProgress) :
      Told (progress ++ [error failure]) ((progress ++ [error failure]).map tree) (.error failure.message)
  | interrupted (progress : List AssistantStreamEvent) (h : ∀ e ∈ progress, e.IsProgress) :
      Told progress (progress.map tree) (.error interrupted)

def FailsLast (events : List AssistantStreamEvent) : Prop :=
  ∀ before failure after, events = before ++ .error failure :: after → after = []

theorem Told.cons {event : AssistantStreamEvent} (hEvent : event.IsProgress) {events : List AssistantStreamEvent}
    {shown : List JsonTree} {outcome : Except JsString JsonTree} (h : Told events shown outcome) :
    Told (event :: events) (event.tree :: shown) outcome := by
  cases h with
  | result progress late reply h => exact .result (event :: progress) late reply (List.forall_mem_cons.mpr ⟨hEvent, h⟩)
  | failure progress failure h => exact .failure (event :: progress) failure (List.forall_mem_cons.mpr ⟨hEvent, h⟩)
  | interrupted _ h => exact .interrupted (event :: events) (List.forall_mem_cons.mpr ⟨hEvent, h⟩)

theorem told_deliver {events : List AssistantStreamEvent} (h : FailsLast events) :
    Told events (finish (deliver events)).1 (finish (deliver events)).2 := by
  induction events with
  | nil => exact .interrupted [] (by simp)
  | cons event events ih =>
    have hTail : FailsLast events := fun before failure after hEvents => h (event :: before) failure after (by rw [hEvents]; rfl)
    cases event with
    | done reply => exact .result [] events reply (by simp)
    | error failure =>
      obtain rfl := h [] failure events rfl
      exact .failure [] failure (by simp)
    | status phase round => exact Told.cons (show (AssistantStreamEvent.status phase round).IsProgress from trivial) (ih hTail)
    | delta text round => exact Told.cons (show (AssistantStreamEvent.delta text round).IsProgress from trivial) (ih hTail)

theorem FailsLast.of_append {now later : List AssistantStreamEvent} (h : FailsLast (now ++ later)) : FailsLast now := by
  rintro before failure after rfl
  have hAfter := h before failure (after ++ later) (by rw [List.append_assoc, List.cons_append])
  exact (List.append_eq_nil_iff.mp hAfter).1

namespace AssistantLifetime

variable {lifetime : AssistantLifetime} {progress tail : List AssistantStreamEvent}

theorem not_mem_progress (h : ∀ event ∈ progress, event.IsProgress) (failure : AssistantFailure) :
    .error failure ∉ progress := fun hMem => h _ hMem

theorem Shaped.failsLast (h : Shaped lifetime progress tail) : FailsLast lifetime.events := by
  intro before failure after hEvents
  rw [h.events] at hEvents
  have hTail : ∃ others, tail = others ++ .error failure :: after := by
    obtain ⟨others, rfl, hTail⟩ | ⟨inside, hProgress, hTail⟩ := List.append_eq_append_iff.mp hEvents
    · exact ⟨others, hTail⟩
    · cases inside with
      | nil => exact ⟨[], hTail.symm⟩
      | cons first inside =>
        obtain ⟨rfl, -⟩ := List.cons.inj hTail
        exact absurd (hProgress ▸ List.mem_append_right before List.mem_cons_self) (not_mem_progress h.progress failure)
  obtain ⟨others, rfl⟩ := hTail
  generalize hLast : others ++ .error failure :: after = last at *
  cases h.stage with
  | progress _ _ => simp at hLast
  | written _ _ _ => cases others <;> simp at hLast
  | given _ _ _ => cases others <;> simp at hLast
  | failed _ _ _ => cases others <;> simp_all
  | late _ _ _ _ =>
    cases others with
    | nil => simp at hLast
    | cons _ others => cases others <;> simp_all

theorem Shaped.ended (h : Shaped lifetime progress tail) (hTerminal : lifetime.terminal = true) :
    ∃ event ∈ lifetime.events, ¬event.IsProgress := by
  have hTail : ∃ event ∈ tail, ¬event.IsProgress := by
    cases h.stage with
    | progress live _ => exact absurd (live.symm.trans hTerminal) Bool.false_ne_true
    | written result _ _ => exact ⟨_, List.mem_cons_self, id⟩
    | given result _ _ => exact ⟨_, List.mem_cons_self, id⟩
    | failed failure _ _ => exact ⟨_, List.mem_cons_self, id⟩
    | late result failure _ _ => exact ⟨_, List.mem_cons_self, id⟩
  obtain ⟨event, hEvent, hEnd⟩ := hTail
  exact ⟨event, h.events ▸ List.mem_append_right progress hEvent, hEnd⟩

theorem Shaped.fits (h : Shaped lifetime progress tail) (hSound : ∀ event ∈ lifetime.events, event.Sound) :
    ∀ frame ∈ lifetime.written, frame.sse.Fits := by
  intro frame hFrame
  cases hEvent : frame.event? with
  | none => exact h.comments frame hFrame hEvent
  | some event =>
    cases frame with
    | comment _ => cases hEvent
    | event e => exact (hSound e (List.mem_filterMap.mpr ⟨_, hFrame, rfl⟩)).fits

end AssistantLifetime

/-- However the server's actions interleave, whatever part of its stream has arrived and in whatever
chunks: the browser has shown the events that were written, in their order and up to the end of the
answer, and ends as they say. -/
theorem assistant_answer_told {parse : JsString → Except JsString JsonTree} {lifetime : AssistantLifetime}
    (hReach : Reachable assistantSystem lifetime) (hSound : ∀ event ∈ lifetime.events, event.Sound)
    (hParse : ∀ event ∈ lifetime.events, parse event.text = .ok event.tree) {chunks : List ResponseChunk} {rest : JsString}
    (hStream : chunks.flatMap ResponseChunk.text ++ rest = lifetime.stream)
    (hSize : (chunks.map ResponseChunk.byteLength).sum ≤ 1000000) :
    ∃ told, told <+: lifetime.events ∧
      Told told (readAssistantStream parse chunks).1 (readAssistantStream parse chunks).2 ∧
      (rest = [] → told = lifetime.events ∧ (lifetime.terminal = true → ∃ event ∈ told, ¬event.IsProgress)) := by
  obtain ⟨progress, tail, hShaped⟩ := AssistantLifetime.reachable_shaped hReach
  have hBegin : lifetime.written.filterMap AssistantFrame.event? = [] ++ lifetime.events := rfl
  have hStart : SseDecoder.drain ⟨[], [], 0⟩ = .ok (.start, ([] : List AssistantStreamEvent).map text) :=
    SseDecoder.drain_eq_ok.mpr (.inl ⟨rfl, rfl, rfl⟩)
  obtain ⟨now, later, hEvents, hRead, hAll⟩ := readChunks_stream (hShaped.fits hSound) hBegin hSound hParse
    (by rw [List.nil_append]; exact hStream) hStart (by rwa [Nat.zero_add])
  have hLast := hShaped.failsLast
  have hResult : readAssistantStream parse chunks = finish (deliver now) := hRead
  by_cases hNone : rest = []
  · refine ⟨lifetime.events, List.prefix_rfl, ?_, fun _ => ⟨rfl, hShaped.ended⟩⟩
    rw [hResult, hAll hNone]
    exact told_deliver hLast
  · have hNow : FailsLast now := by
      rw [hEvents] at hLast
      exact hLast.of_append
    refine ⟨now, ⟨later, hEvents.symm⟩, ?_, fun hAll => absurd hAll hNone⟩
    rw [hResult]
    exact told_deliver hNow

def sampleRounds : JsNumber × JsNumber :=
  (⟨1, 1, 0, by decide, by decide, by decide, by norm_num⟩, ⟨2, 2, 0, by decide, by decide, by decide, by norm_num⟩)

/-- A first attempt fails after some of its text, and the backup answers. -/
def sampleEvents : List AssistantStreamEvent :=
  [.status .thinking sampleRounds.1, .delta (units "今天有") sampleRounds.1, .status .fallback sampleRounds.2,
    .delta (units "三间空房。") sampleRounds.2, .done ⟨units "c1", units "三间空房。", [], some (units "q1")⟩]

/-- The second attempt begins while the text of the first one still waits for the socket. -/
def sampleActions : List AssistantAction :=
  [.start, .emit sampleEvents[0] true, .emit sampleEvents[1] false, .heartbeat 0, .emit sampleEvents[2] false, .drained,
    .emit sampleEvents[3] true, .emit sampleEvents[4] true, .finished, .disconnect]

def sampleLifetime : AssistantLifetime := sampleActions.foldl AssistantLifetime.perform (.opened true)

theorem sampleLifetime_reachable : Reachable assistantSystem sampleLifetime := by
  have hStep {lifetime : AssistantLifetime} (hReach : Reachable assistantSystem lifetime) (action : AssistantAction)
      (hAwaits : lifetime.Awaits action) : Reachable assistantSystem (lifetime.perform action) :=
    hReach.step (e := action) ⟨hAwaits, rfl⟩
  have hNone : ∀ result, AssistantStreamEvent.done result ∉ [] := fun _ => List.not_mem_nil
  have hProgress : ∀ result, AssistantStreamEvent.done result ∉ [sampleEvents[1]] := by simp [sampleEvents]
  have hTold : ∀ event ∈ sampleEvents, ∀ failure, event ≠ .error failure := by simp [sampleEvents]
  have hOpened : Reachable assistantSystem (.opened true) := .of_init ⟨true, rfl⟩
  have hThinking := hStep (hStep hOpened .start trivial) (.emit sampleEvents[0] true) ⟨hNone, hTold _ (by simp [sampleEvents])⟩
  have hText := hStep hThinking (.emit sampleEvents[1] false) ⟨hNone, hTold _ (by simp [sampleEvents])⟩
  have hFallback := hStep (hStep hText (.heartbeat 0) trivial) (.emit sampleEvents[2] false)
    ⟨hProgress, hTold _ (by simp [sampleEvents])⟩
  have hAnswer := hStep (hStep hFallback .drained trivial) (.emit sampleEvents[3] true) ⟨hNone, hTold _ (by simp [sampleEvents])⟩
  have hDone := hStep hAnswer (.emit sampleEvents[4] true) ⟨hNone, hTold _ (by simp [sampleEvents])⟩
  exact hStep (hStep hDone .finished trivial) .disconnect trivial

theorem sampleEvents_sound : ∀ event ∈ sampleEvents, event.Sound := by
  have hFirst : AssistantReader.roundInRange (some sampleRounds.1) = true := by decide +kernel
  have hSecond : AssistantReader.roundInRange (some sampleRounds.2) = true := by decide +kernel
  have hFramed : sampleEvents.all (fun event => event.text.length + 6 ≤ SseDecoder.eventLimit) = true := by decide +kernel
  refine fun event hEvent => ⟨?_, of_decide_eq_true (List.all_eq_true.mp hFramed event hEvent)⟩
  simp only [sampleEvents, List.mem_cons, List.not_mem_nil, or_false] at hEvent
  obtain rfl | rfl | rfl | rfl | rfl := hEvent
  · exact hFirst
  · exact ⟨by decide, hFirst⟩
  · exact hSecond
  · exact ⟨by decide, hSecond⟩
  · exact Nat.le_of_ble_eq_true rfl

def sampleParse (data : JsString) : Except JsString JsonTree :=
  match sampleEvents.find? (·.text = data) with
  | some event => .ok event.tree
  | none => .error (units "Unexpected end of JSON input")

theorem sampleParse_text : ∀ event ∈ sampleEvents, sampleParse event.text = .ok event.tree := by
  intro event hEvent
  cases hFind : sampleEvents.find? (·.text = event.text) with
  | none => exact absurd (decide_eq_true rfl) (List.find?_eq_none.mp hFind event hEvent)
  | some other =>
    have hText : other.text = event.text := by simpa using List.find?_some hFind
    have hSame : other.tree = event.tree := JsonTree.text_injective hText
    rw [sampleParse, hFind, ← hSame]

def responseChunksOf (lengths : List Nat) (text : JsString) : List ResponseChunk :=
  match lengths with
  | [] => [⟨(utf8 text).length, text, fun hEmpty => eq_nil_of_utf8 (List.eq_nil_of_length_eq_zero hEmpty)⟩]
  | length :: lengths =>
      ⟨(utf8 (text.take length)).length, text.take length,
        fun hEmpty => eq_nil_of_utf8 (List.eq_nil_of_length_eq_zero hEmpty)⟩ :: responseChunksOf lengths (text.drop length)

theorem text_responseChunksOf (lengths : List Nat) (text : JsString) :
    (responseChunksOf lengths text).flatMap ResponseChunk.text = text := by
  induction lengths generalizing text with
  | nil => exact List.append_nil text
  | cons length lengths ih => rw [responseChunksOf, List.flatMap_cons, ih, List.take_append_drop]

/-- The stream cut inside its frames and texts. -/
def sampleChunks : List ResponseChunk := responseChunksOf [20, 78, 4, 100] sampleLifetime.stream

theorem assistant_answer_told_sample : ∃ told, told <+: sampleLifetime.events ∧
    Told told (readAssistantStream sampleParse sampleChunks).1 (readAssistantStream sampleParse sampleChunks).2 ∧
    (([] : JsString) = [] → told = sampleLifetime.events ∧
      (sampleLifetime.terminal = true → ∃ event ∈ told, ¬event.IsProgress)) := by
  have hEvents : sampleLifetime.events = sampleEvents := rfl
  have hStream : sampleChunks.flatMap ResponseChunk.text ++ [] = sampleLifetime.stream :=
    (List.append_nil _).trans (text_responseChunksOf _ _)
  have hSize : (sampleChunks.map ResponseChunk.byteLength).sum ≤ 1000000 := by decide +kernel
  exact assistant_answer_told sampleLifetime_reachable (hEvents ▸ sampleEvents_sound) (hEvents ▸ sampleParse_text) hStream hSize

end GreenPms
