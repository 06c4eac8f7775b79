import GreenPms.Contracts.Sse

/-! # Frames of event streams

A writer sends comments and events, one frame each. Whatever part of the stream has arrived, and in
whatever chunks, the decoder has emitted the events of the frames that are complete.
-/

namespace GreenPms

open Checked JsString

inductive SseFrame where
  | comment (text : JsString)
  | data (text : JsString)
  deriving DecidableEq, Repr

namespace SseFrame

open SseDecoder

def line : SseFrame → JsString
  | .comment text => units ": " ++ text
  | .data text => units "data: " ++ text

def text (frame : SseFrame) : JsString := frame.line ++ [lineFeed, lineFeed]

def data? : SseFrame → Option JsString
  | .comment _ => none
  | .data text => some text

def stream (frames : List SseFrame) : JsString := frames.flatMap text

structure Fits (frame : SseFrame) : Prop where
  unbroken : ∀ u ∈ frame.line, u ≠ lineFeed ∧ u ≠ carriageReturn
  small : frame.line.length ≤ eventLimit

end SseFrame

namespace SseDecoder

open SseFrame

/-! ## One frame -/

theorem nextLine_unbroken {line : JsString} (h : ∀ u ∈ line, u ≠ lineFeed ∧ u ≠ carriageReturn) :
    nextLine line = none ∧ ∀ rest, nextLine (line ++ lineFeed :: rest) = some (line, rest) := by
  induction line with
  | nil => exact ⟨rfl, nextLine_feed⟩
  | cons c line ih =>
    obtain ⟨⟨hFeed, hReturn⟩, hRest⟩ := List.forall_mem_cons.mp h
    obtain ⟨hNone, hSome⟩ := ih hRest
    refine ⟨by rw [nextLine_other _ hFeed hReturn, hNone]; rfl, fun rest => ?_⟩
    rw [List.cons_append, nextLine_other _ hFeed hReturn, hSome]
    rfl

theorem line_ne_nil (frame : SseFrame) : frame.line ≠ [] := by
  cases frame <;> simp [SseFrame.line, units]

theorem dataValue_line (frame : SseFrame) : dataValue frame.line = frame.data? := by
  cases frame with
  | comment text =>
    have hPrefix : dataPrefix.isPrefixOf (units ": " ++ text) = false := rfl
    rw [SseFrame.line, dataValue, if_neg (by rw [hPrefix]; decide)]
    rfl
  | data text =>
    have hPrefix : dataPrefix.isPrefixOf (units "data: " ++ text) = true := rfl
    rw [SseFrame.line, dataValue, if_pos hPrefix]
    rfl

/-- The line of a frame has been read, and the empty line that ends it has not. -/
def afterLine (frame : SseFrame) (pending : JsString) : SseDecoder :=
  ⟨pending, frame.data?.toList, (frame.data?.map List.length).getD 0⟩

theorem readLine_line (frame : SseFrame) (pending : JsString) :
    ({ start with pending := pending } : SseDecoder).readLine frame.line = (afterLine frame pending, []) := by
  rw [readLine, if_neg (line_ne_nil frame), dataValue_line]
  cases hData : frame.data? with
  | none => rw [afterLine, hData]; rfl
  | some text =>
    rw [afterLine, hData]
    dsimp only [start]
    rw [List.nil_append, Nat.zero_add]
    rfl

theorem data_le (frame : SseFrame) : (frame.data?.map List.length).getD 0 ≤ frame.line.length := by
  cases frame with
  | comment text => exact Nat.zero_le _
  | data text =>
    rw [SseFrame.line, List.length_append]
    exact Nat.le_add_left ..

theorem drain_line {frame : SseFrame} (h : frame.Fits) (pending : JsString) {d : SseDecoder} {events : List JsString}
    (hLater : (afterLine frame pending).drain = .ok (d, events)) :
    drain ⟨frame.line ++ lineFeed :: pending, [], 0⟩ = .ok (d, events) := by
  have hRead := readLine_line frame pending
  refine drain_eq_ok.mpr (.inr ⟨frame.line, pending, events, (nextLine_unbroken h.unbroken).2 pending, ?_, ?_, ?_⟩)
  · have hSize := congrArg (fun read => SseDecoder.eventSize read.1) hRead
    exact Nat.le_trans (Nat.le_of_eq hSize) (Nat.le_trans (data_le frame) h.small)
  · exact (congrArg (fun read => SseDecoder.drain read.1) hRead).trans hLater
  · exact (congrArg (fun read => read.2 ++ events) hRead).symm

theorem drain_frame {frame : SseFrame} (h : frame.Fits) :
    drain ⟨frame.text, [], 0⟩ = .ok (start, frame.data?.toList) := by
  refine drain_line h [lineFeed] (drain_eq_ok.mpr (.inr ⟨[], [], [], rfl, Nat.zero_le _, ?_, ?_⟩))
  · exact drain_eq_ok.mpr (.inl ⟨rfl, rfl, rfl⟩)
  · cases hData : frame.data? <;> simp [afterLine, hData, readLine, joined]

theorem drain_part {frame : SseFrame} (h : frame.Fits) {part rest : JsString} (hPart : part ++ rest = frame.text)
    (hRest : rest ≠ []) : ∃ d, drain ⟨part, [], 0⟩ = .ok (d, []) ∧ d.pending.length + d.eventSize ≤ eventLimit := by
  by_cases hLine : part.length ≤ frame.line.length
  · have hIn : part = frame.line.take part.length := by
      have hTake := congrArg (List.take part.length) hPart
      rwa [List.take_left, SseFrame.text, List.take_append_of_le_length hLine] at hTake
    have hUnbroken : ∀ u ∈ part, u ≠ lineFeed ∧ u ≠ carriageReturn := fun u hu =>
      h.unbroken u (List.mem_of_mem_take (hIn ▸ hu))
    exact ⟨⟨part, [], 0⟩, drain_eq_ok.mpr (.inl ⟨(nextLine_unbroken hUnbroken).1, rfl, rfl⟩), Nat.le_trans hLine h.small⟩
  · have hLengths := congrArg List.length hPart
    have hLast := List.length_pos_iff.mpr hRest
    rw [List.length_append, SseFrame.text, List.length_append] at hLengths
    have hPartial : part = frame.line ++ [lineFeed] := by
      have hTake := congrArg (List.take part.length) hPart
      have hLength : part.length = frame.line.length + 1 := by
        simp only [List.length_cons, List.length_nil] at hLengths
        omega
      rw [List.take_left, SseFrame.text, hLength, List.take_length_add_append] at hTake
      exact hTake
    subst hPartial
    refine ⟨afterLine frame [], drain_line h [] (drain_eq_ok.mpr (.inl ⟨rfl, rfl, rfl⟩)), ?_⟩
    exact Nat.le_trans (Nat.le_of_eq (Nat.zero_add _)) (Nat.le_trans (data_le frame) h.small)

/-! ## The stream -/

theorem drain_stream {frames : List SseFrame} (h : ∀ frame ∈ frames, frame.Fits) {arrived rest : JsString}
    (hStream : arrived ++ rest = stream frames) : ∃ d events, drain ⟨arrived, [], 0⟩ = .ok (d, events) ∧
      d.pending.length + d.eventSize ≤ eventLimit ∧ events <+: frames.filterMap SseFrame.data? ∧
      (rest = [] → events = frames.filterMap SseFrame.data?) := by
  induction frames generalizing arrived with
  | nil =>
    obtain ⟨rfl, -⟩ := List.append_eq_nil_iff.mp hStream
    exact ⟨start, [], drain_eq_ok.mpr (.inl ⟨rfl, rfl, rfl⟩), Nat.zero_le _, List.nil_prefix, fun _ => rfl⟩
  | cons frame frames ih =>
    obtain ⟨hFrame, hFrames⟩ := List.forall_mem_cons.mp h
    have hData : (frame :: frames).filterMap SseFrame.data? = frame.data?.toList ++ frames.filterMap SseFrame.data? := by
      cases hHead : frame.data? <;> simp [hHead]
    rw [stream, List.flatMap_cons] at hStream
    rw [hData]
    obtain ⟨missing, hText, hLater⟩ | ⟨later, hArrived, hRest⟩ := List.append_eq_append_iff.mp hStream
    · by_cases hMissing : missing = []
      · subst hMissing
        rw [List.append_nil] at hText
        rw [List.nil_append] at hLater
        obtain ⟨d, events, hDrained, -, hPrefix, hAll⟩ := @ih hFrames [] hLater
        obtain ⟨-, -, rfl⟩ | ⟨_, _, _, hLine, -⟩ := drain_eq_ok.mp hDrained
        · refine ⟨start, frame.data?.toList, ?_, Nat.zero_le _, List.prefix_append _ _, fun hNone => ?_⟩
          · rw [← hText, drain_frame hFrame]
          · rw [← hAll hNone, List.append_nil]
        · cases hLine
      · obtain ⟨d, hDrained, hSize⟩ := drain_part hFrame hText.symm hMissing
        refine ⟨d, [], hDrained, hSize, List.nil_prefix, fun hNone => ?_⟩
        rw [hNone] at hLater
        exact absurd (List.append_eq_nil_iff.mp hLater.symm).1 hMissing
    · obtain ⟨d, events, hDrained, hSize, hPrefix, hAll⟩ := ih hFrames hRest.symm
      refine ⟨d, frame.data?.toList ++ events, ?_, hSize, (List.prefix_append_right_inj _).mpr hPrefix, fun hNone => ?_⟩
      · rw [hArrived]
        exact drain_append (drain_frame hFrame) hDrained
      · rw [hAll hNone]

/-! ## Chunks -/

theorem drain_split {d d' d'' : SseDecoder} {events whole : List JsString} (h : d.drain = .ok (d', events))
    {chunk : JsString} (hWhole : drain { d with pending := d.pending ++ chunk } = .ok (d'', whole)) :
    ∃ later, drain { d' with pending := d'.pending ++ chunk } = .ok (d'', later) ∧ whole = events ++ later := by
  induction hLength : d.pending.length using Nat.strongRecOn generalizing d events whole with
  | ind n ih =>
    obtain ⟨-, rfl, rfl⟩ | ⟨line, rest, emitted, hLine, -, hRest, rfl⟩ := drain_eq_ok.mp h
    · exact ⟨whole, hWhole, rfl⟩
    · have hShorter : ({ d with pending := rest }.readLine line).1.pending.length < n := by
        rw [readLine_pending, ← hLength]
        exact nextLine_length hLine
      have hSame := readLine_extend d line rest (rest ++ chunk)
      obtain ⟨hNone, -⟩ | ⟨_, _, emitted', hLine', -, hRest', rfl⟩ := drain_eq_ok.mp hWhole
      · rw [nextLine_append hLine chunk] at hNone
        cases hNone
      · rw [nextLine_append hLine chunk] at hLine'
        obtain ⟨rfl, rfl⟩ := Prod.mk.inj (Option.some.inj hLine')
        dsimp only at hRest'
        rw [hSame] at hRest'
        have hNext : drain { ({ d with pending := rest }.readLine line).1 with
            pending := ({ d with pending := rest }.readLine line).1.pending ++ chunk } = .ok (d'', emitted') := by
          rw [readLine_pending]
          exact hRest'
        obtain ⟨later, hLater, rfl⟩ := ih _ hShorter hRest hNext rfl
        refine ⟨later, hLater, ?_⟩
        dsimp only
        rw [hSame, List.append_assoc]

theorem push_stream {frames : List SseFrame} (h : ∀ frame ∈ frames, frame.Fits) {arrived chunk rest : JsString}
    (hStream : arrived ++ chunk ++ rest = stream frames) {d : SseDecoder} {events : List JsString}
    (hArrived : drain ⟨arrived, [], 0⟩ = .ok (d, events)) : ∃ d' later, d.push chunk = .ok (d', later) ∧
      drain ⟨arrived ++ chunk, [], 0⟩ = .ok (d', events ++ later) ∧
      events ++ later <+: frames.filterMap SseFrame.data? := by
  obtain ⟨d', whole, hWhole, hSize, hPrefix, -⟩ := drain_stream h hStream
  obtain ⟨later, hLater, rfl⟩ := drain_split hArrived hWhole
  exact ⟨d', later, push_eq_ok.mpr ⟨hLater, hSize⟩, hWhole, hPrefix⟩

end SseDecoder

end GreenPms
