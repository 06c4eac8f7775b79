import GreenPms.Library.Checked
import GreenPms.Foundation.Text

/-! # Framing of event streams

The decoder takes a stream in chunks. It keeps the line that is not ended and the data of the block
that is open. The reference reads the stream as a whole: first its lines, then its blocks.
-/

namespace GreenPms

open Checked JsString

structure SseDecoder where
  pending : JsString
  data : List JsString
  eventSize : Nat
  deriving DecidableEq, Repr

namespace SseDecoder

def lineFeed : UInt16 := 10

def carriageReturn : UInt16 := 13

def eventLimit : Nat := 256000

def start : SseDecoder := ⟨[], [], 0⟩

/-- The place and the text of the first match of `/\r\n|\r|\n/`. -/
def lineBreak : JsString → Option (Nat × JsString)
  | [] => none
  | c :: rest =>
      if c = carriageReturn then
        if rest.head? = some lineFeed then some (0, [carriageReturn, lineFeed]) else some (0, [carriageReturn])
      else if c = lineFeed then some (0, [lineFeed])
      else (lineBreak rest).map fun found => (found.1 + 1, found.2)

/-- The first line that is ended, and what follows it. A final CR may be half of a CRLF. -/
def nextLine (pending : JsString) : Option (JsString × JsString) :=
  match lineBreak pending with
  | none => none
  | some (index, found) =>
      if found = [carriageReturn] ∧ index = pending.length - 1 then none
      else some (pending.take index, pending.drop (index + found.length))

def dataPrefix : JsString := units "data:"

def dataValue (line : JsString) : Option JsString :=
  if dataPrefix.isPrefixOf line = true then
    let value := line.drop 5
    some (if value.head? = some 32 then value.drop 1 else value)
  else none

def joined (data : List JsString) : JsString := [lineFeed].intercalate data

def readLine (decoder : SseDecoder) (line : JsString) : SseDecoder × List JsString :=
  if line = [] then ({ decoder with data := [], eventSize := 0 }, if decoder.data = [] then [] else [joined decoder.data])
  else
    match dataValue line with
    | some value => ({ decoder with data := decoder.data ++ [value], eventSize := decoder.eventSize + value.length }, [])
    | none => (decoder, [])

theorem lineBreak_lt {pending : JsString} {index : Nat} {found : JsString} (h : lineBreak pending = some (index, found)) :
    index < pending.length ∧ 0 < found.length := by
  induction pending generalizing index found with
  | nil => cases h
  | cons c rest ih =>
    rw [lineBreak] at h
    split at h
    case isTrue =>
      split at h <;> obtain ⟨rfl, rfl⟩ := Prod.mk.inj (Option.some.inj h) <;> simp
    case isFalse =>
      split at h
      case isTrue =>
        obtain ⟨rfl, rfl⟩ := Prod.mk.inj (Option.some.inj h)
        simp
      case isFalse =>
        obtain ⟨⟨i, f⟩, hRest, hHere⟩ := Option.map_eq_some_iff.mp h
        obtain ⟨rfl, rfl⟩ := Prod.mk.inj hHere
        obtain ⟨hInside, hFound⟩ := ih hRest
        exact ⟨Nat.succ_lt_succ hInside, hFound⟩

theorem nextLine_length {pending line rest : JsString} (h : nextLine pending = some (line, rest)) :
    rest.length < pending.length := by
  unfold nextLine at h
  split at h
  case h_1 => cases h
  case h_2 index found hBreak =>
    obtain ⟨hInside, hFound⟩ := lineBreak_lt hBreak
    split at h
    case isTrue => cases h
    case isFalse =>
      obtain ⟨-, rfl⟩ := Prod.mk.inj (Option.some.inj h)
      rw [List.length_drop]
      omega

@[simp] theorem readLine_pending (decoder : SseDecoder) (line : JsString) :
    (decoder.readLine line).1.pending = decoder.pending := by
  unfold readLine
  split
  · rfl
  · split <;> rfl

/-- The loop of `push`. -/
def drain (decoder : SseDecoder) : Except String (SseDecoder × List JsString) :=
  match _h : nextLine decoder.pending with
  | none => .ok (decoder, [])
  | some (line, rest) =>
      let read := { decoder with pending := rest }.readLine line
      do
        require (read.1.eventSize ≤ eventLimit) "SSE event too large"
        let (decoder, events) ← drain read.1
        pure (decoder, read.2 ++ events)
termination_by decoder.pending.length
decreasing_by
  rw [readLine_pending]
  exact nextLine_length _h

def push (decoder : SseDecoder) (chunk : JsString) : Except String (SseDecoder × List JsString) := do
  let (decoder, events) ← drain { decoder with pending := decoder.pending ++ chunk }
  require (decoder.pending.length + decoder.eventSize ≤ eventLimit) "SSE event too large"
  pure (decoder, events)

def pushAll (decoder : SseDecoder) : List JsString → Except String (SseDecoder × List JsString)
  | [] => .ok (decoder, [])
  | chunk :: rest => do
      let (decoder, events) ← decoder.push chunk
      let (decoder, later) ← decoder.pushAll rest
      pure (decoder, events ++ later)

/-! ## The reference -/

/-- The lines of a stream that are ended, the first of which goes on from a part of it. -/
def endedLines (line : JsString) : JsString → List JsString
  | [] => []
  | [c] => if c = lineFeed then [line] else []
  | c :: d :: rest =>
      if c = lineFeed then line :: endedLines [] (d :: rest)
      else if c = carriageReturn then
        if d = lineFeed then line :: endedLines [] rest else line :: endedLines [] (d :: rest)
      else endedLines (line ++ [c]) (d :: rest)

def blockEvent (block : List JsString) : List JsString :=
  if block.filterMap dataValue = [] then [] else [joined (block.filterMap dataValue)]

/-- The events of the blocks that are ended by an empty line, the first of which goes on from some lines. -/
def blockEvents (block : List JsString) : List JsString → List JsString
  | [] => []
  | line :: rest => if line = [] then blockEvent block ++ blockEvents [] rest else blockEvents (block ++ [line]) rest

def framed (stream : JsString) : List JsString := blockEvents [] (endedLines [] stream)

/-! ## One line -/

theorem nextLine_feed (rest : JsString) : nextLine (lineFeed :: rest) = some ([], rest) := by
  simp [nextLine, lineBreak, lineFeed, carriageReturn]

theorem nextLine_return_feed (rest : JsString) : nextLine (carriageReturn :: lineFeed :: rest) = some ([], rest) := by
  simp [nextLine, lineBreak, lineFeed, carriageReturn]

theorem nextLine_return_other {d : UInt16} (rest : JsString) (h : d ≠ lineFeed) :
    nextLine (carriageReturn :: d :: rest) = some ([], d :: rest) := by
  simp [nextLine, lineBreak, h]

theorem nextLine_other {c : UInt16} (rest : JsString) (hFeed : c ≠ lineFeed) (hReturn : c ≠ carriageReturn) :
    nextLine (c :: rest) = (nextLine rest).map fun found => (c :: found.1, found.2) := by
  rw [nextLine, lineBreak, if_neg hReturn, if_neg hFeed, nextLine]
  cases hBreak : lineBreak rest with
  | none => rfl
  | some found =>
    have hInside := (lineBreak_lt hBreak).1
    dsimp only [Option.map_some]
    by_cases hHeld : found.2 = [carriageReturn] ∧ found.1 = rest.length - 1
    · rw [if_pos hHeld, if_pos ⟨hHeld.1, by rw [List.length_cons]; omega⟩]
      rfl
    · rw [if_neg hHeld, if_neg (fun hLast => hHeld ⟨hLast.1, by rw [List.length_cons] at hLast; omega⟩),
        Nat.add_right_comm, List.drop_succ_cons]
      rfl

theorem nextLine_append {pending line rest : JsString} (h : nextLine pending = some (line, rest)) (chunk : JsString) :
    nextLine (pending ++ chunk) = some (line, rest ++ chunk) := by
  induction pending generalizing line rest with
  | nil => cases h
  | cons c pending ih =>
    by_cases hFeed : c = lineFeed
    · subst hFeed
      rw [nextLine_feed] at h
      obtain ⟨rfl, rfl⟩ := Prod.mk.inj (Option.some.inj h)
      exact nextLine_feed _
    by_cases hReturn : c = carriageReturn
    · subst hReturn
      cases pending with
      | nil => cases h
      | cons d pending =>
        by_cases hPair : d = lineFeed
        · subst hPair
          rw [nextLine_return_feed] at h
          obtain ⟨rfl, rfl⟩ := Prod.mk.inj (Option.some.inj h)
          exact nextLine_return_feed _
        · rw [nextLine_return_other _ hPair] at h
          obtain ⟨rfl, rfl⟩ := Prod.mk.inj (Option.some.inj h)
          exact nextLine_return_other _ hPair
    · rw [nextLine_other _ hFeed hReturn] at h
      obtain ⟨⟨ended, later⟩, hRest, hHere⟩ := Option.map_eq_some_iff.mp h
      obtain ⟨rfl, rfl⟩ := Prod.mk.inj hHere
      rw [List.cons_append, nextLine_other _ hFeed hReturn, ih hRest]
      rfl

theorem endedLines_eq (line pending : JsString) : endedLines line pending =
    match nextLine pending with
    | none => []
    | some (ended, rest) => (line ++ ended) :: endedLines [] rest := by
  fun_induction endedLines line pending with
  | case1 => rfl
  | case2 line =>
    rw [nextLine_feed]
    simp [endedLines]
  | case3 line c hFeed =>
    by_cases hReturn : c = carriageReturn
    · subst hReturn
      rfl
    · rw [nextLine_other _ hFeed hReturn]
      rfl
  | case4 line d rest _ =>
    rw [nextLine_feed]
    simp
  | case5 line rest _ _ =>
    rw [nextLine_return_feed]
    simp
  | case6 line d rest hPair _ _ =>
    rw [nextLine_return_other _ hPair]
    simp
  | case7 line c d rest hFeed hReturn ih =>
    rw [ih, nextLine_other _ hFeed hReturn]
    cases nextLine (d :: rest) with
    | none => rfl
    | some found => simp

/-! ## Runs -/

theorem drain_eq_ok {d d' : SseDecoder} {events : List JsString} : d.drain = .ok (d', events) ↔
    (nextLine d.pending = none ∧ d = d' ∧ events = []) ∨ ∃ line rest later, nextLine d.pending = some (line, rest) ∧
      ({ d with pending := rest }.readLine line).1.eventSize ≤ eventLimit ∧
      ({ d with pending := rest }.readLine line).1.drain = .ok (d', later) ∧
      events = ({ d with pending := rest }.readLine line).2 ++ later := by
  rw [drain]
  split
  case h_1 hLine =>
    simp [hLine, eq_comm]
  case h_2 line rest hLine =>
    simp only [bind_eq_ok, require_eq_ok, pure_eq_ok, hLine]
    constructor
    · rintro ⟨_, hSize, ⟨_, rest'⟩, hRest, hEvents⟩
      obtain ⟨rfl, rfl⟩ := Prod.mk.inj hEvents
      exact .inr ⟨line, rest, rest', rfl, hSize, hRest, rfl⟩
    · rintro (⟨hNone, -⟩ | ⟨_, _, later, hHere, hSize, hRest, rfl⟩)
      · cases hNone
      · obtain ⟨rfl, rfl⟩ := Prod.mk.inj (Option.some.inj hHere)
        exact ⟨(), hSize, (d', later), hRest, rfl⟩

theorem readLine_extend (d : SseDecoder) (line rest rest' : JsString) :
    ({ d with pending := rest' } : SseDecoder).readLine line =
      ({ ({ d with pending := rest } : SseDecoder).readLine line |>.1 with pending := rest' },
        ({ d with pending := rest } : SseDecoder).readLine line |>.2) := by
  unfold readLine
  split
  · rfl
  · dsimp only
    split <;> rfl

/-- What is drained already stays drained when more of the stream comes. -/
theorem drain_append {d d' d'' : SseDecoder} {events later : List JsString} (h : d.drain = .ok (d', events))
    {chunk : JsString} (hLater : drain { d' with pending := d'.pending ++ chunk } = .ok (d'', later)) :
    drain { d with pending := d.pending ++ chunk } = .ok (d'', events ++ later) := by
  induction hLength : d.pending.length using Nat.strongRecOn generalizing d events with
  | ind n ih =>
    obtain ⟨-, rfl, rfl⟩ | ⟨line, rest, emitted, hLine, hSize, hRest, rfl⟩ := drain_eq_ok.mp h
    · exact hLater
    · have hShorter : ({ d with pending := rest }.readLine line).1.pending.length < n := by
        rw [readLine_pending, ← hLength]
        exact nextLine_length hLine
      have hNext := ih _ hShorter hRest rfl
      rw [readLine_pending] at hNext
      have hSame := readLine_extend d line rest (rest ++ chunk)
      refine drain_eq_ok.mpr (.inr ⟨line, rest ++ chunk, emitted ++ later, nextLine_append hLine chunk, ?_, ?_, ?_⟩)
      · dsimp only
        rw [hSame]
        exact hSize
      · dsimp only
        rw [hSame]
        exact hNext
      · dsimp only
        rw [hSame, List.append_assoc]

theorem readLine_block {d : SseDecoder} {block : List JsString} (hBlock : d.data = block.filterMap dataValue)
    (line : JsString) : ∃ block', (d.readLine line).1.data = block'.filterMap dataValue ∧
      ∀ lines, blockEvents block (line :: lines) = (d.readLine line).2 ++ blockEvents block' lines := by
  unfold readLine
  split
  case isTrue hEmpty =>
    refine ⟨[], rfl, fun lines => ?_⟩
    rw [blockEvents, if_pos hEmpty, blockEvent, hBlock]
  case isFalse hLine =>
    refine ⟨block ++ [line], ?_, fun lines => ?_⟩
    · rw [List.filterMap_append, ← hBlock]
      cases hValue : dataValue line <;> simp [hValue]
    · rw [blockEvents, if_neg hLine]
      cases dataValue line <;> rfl

theorem drain_framed {d d' : SseDecoder} {events : List JsString} (h : d.drain = .ok (d', events)) (block : List JsString)
    (hBlock : d.data = block.filterMap dataValue) : events = blockEvents block (endedLines [] d.pending) := by
  induction hLength : d.pending.length using Nat.strongRecOn generalizing d events block with
  | ind n ih =>
    rw [endedLines_eq]
    obtain ⟨hLine, -, rfl⟩ | ⟨line, rest, emitted, hLine, -, hRest, rfl⟩ := drain_eq_ok.mp h
    · rw [hLine]
      rfl
    · obtain ⟨block', hBlock', hEvents⟩ := readLine_block (d := { d with pending := rest }) hBlock line
      have hShorter : ({ d with pending := rest }.readLine line).1.pending.length < n := by
        rw [readLine_pending, ← hLength]
        exact nextLine_length hLine
      rw [hLine]
      dsimp only
      rw [List.nil_append, hEvents, ih _ hShorter hRest block' hBlock' rfl, readLine_pending]

theorem push_eq_ok {d d' : SseDecoder} {chunk : JsString} {events : List JsString} :
    d.push chunk = .ok (d', events) ↔ drain { d with pending := d.pending ++ chunk } = .ok (d', events) ∧
      d'.pending.length + d'.eventSize ≤ eventLimit := by
  simp only [push, bind_eq_ok, require_eq_ok, pure_eq_ok]
  constructor
  · rintro ⟨⟨_, _⟩, hDrained, _, hSize, hEvents⟩
    obtain ⟨rfl, rfl⟩ := Prod.mk.inj hEvents
    exact ⟨hDrained, hSize⟩
  · rintro ⟨hDrained, hSize⟩
    exact ⟨(d', events), hDrained, (), hSize, rfl⟩

theorem drained_pending {d d' : SseDecoder} {events : List JsString} (h : d.drain = .ok (d', events)) :
    nextLine d'.pending = none := by
  induction hLength : d.pending.length using Nat.strongRecOn generalizing d events with
  | ind n ih =>
    obtain ⟨hLine, rfl, -⟩ | ⟨line, rest, emitted, hLine, -, hRest, -⟩ := drain_eq_ok.mp h
    · exact hLine
    · refine ih _ ?_ hRest rfl
      rw [readLine_pending, ← hLength]
      exact nextLine_length hLine

theorem pushAll_drain {d d' : SseDecoder} {chunks : List JsString} {events : List JsString}
    (hDrained : nextLine d.pending = none) (hSize : d.pending.length + d.eventSize ≤ eventLimit)
    (h : d.pushAll chunks = .ok (d', events)) : drain { d with pending := d.pending ++ chunks.flatten } = .ok (d', events) ∧
      d'.pending.length + d'.eventSize ≤ eventLimit := by
  induction chunks generalizing d events with
  | nil =>
    obtain ⟨rfl, rfl⟩ := Prod.mk.inj (Except.ok.inj h)
    rw [List.flatten_nil, List.append_nil]
    exact ⟨drain_eq_ok.mpr (.inl ⟨hDrained, rfl, rfl⟩), hSize⟩
  | cons chunk chunks ih =>
    simp only [pushAll, bind_eq_ok, pure_eq_ok] at h
    obtain ⟨⟨d₁, events₁⟩, hPush, ⟨d₂, events₂⟩, hRest, hEvents⟩ := h
    obtain ⟨rfl, rfl⟩ := Prod.mk.inj hEvents
    obtain ⟨hChunk, hSize₁⟩ := push_eq_ok.mp hPush
    obtain ⟨hLater, hSize₂⟩ := ih (drained_pending hChunk) hSize₁ hRest
    refine ⟨?_, hSize₂⟩
    have hWhole := drain_append hChunk hLater
    rw [List.flatten_cons, ← List.append_assoc]
    exact hWhole

/-- A stream that raises no limit in chunks gives its framing, as it does in one piece. -/
theorem decoding_ignores_chunks {chunks : List JsString} {d : SseDecoder} {events : List JsString}
    (h : start.pushAll chunks = .ok (d, events)) :
    start.push chunks.flatten = .ok (d, events) ∧ events = framed chunks.flatten := by
  obtain ⟨hWhole, hSize⟩ := pushAll_drain (d := start) rfl (by decide) h
  exact ⟨push_eq_ok.mpr ⟨hWhole, hSize⟩, drain_framed hWhole [] rfl⟩

theorem sample_chunks : start.pushAll [units "data:a\r", units "\n\r", units "\n"] = .ok (start, [units "a"]) := by
  have hFirst : start.push (units "data:a\r") = .ok (⟨units "data:a\r", [], 0⟩, []) :=
    push_eq_ok.mpr ⟨drain_eq_ok.mpr (.inl ⟨by decide, rfl, rfl⟩), by decide⟩
  have hSecond : push ⟨units "data:a\r", [], 0⟩ (units "\n\r") = .ok (⟨[carriageReturn], [units "a"], 1⟩, []) :=
    push_eq_ok.mpr ⟨drain_eq_ok.mpr (.inr ⟨units "data:a", [carriageReturn], [], by decide, by decide,
      drain_eq_ok.mpr (.inl ⟨by decide, by decide, rfl⟩), by decide⟩), by decide⟩
  have hThird : push ⟨[carriageReturn], [units "a"], 1⟩ (units "\n") = .ok (start, [units "a"]) :=
    push_eq_ok.mpr ⟨drain_eq_ok.mpr (.inr ⟨[], [], [], by decide, by decide,
      drain_eq_ok.mpr (.inl ⟨by decide, by decide, rfl⟩), by decide⟩), by decide⟩
  rw [pushAll, hFirst]
  change (pushAll _ _ >>= _) = _
  rw [pushAll, hSecond]
  change ((pushAll _ _ >>= _) >>= _) = _
  rw [pushAll, hThird]
  rfl

theorem decoding_ignores_chunks_sample :
    start.push [units "data:a\r", units "\n\r", units "\n"].flatten = .ok (start, [units "a"]) ∧
      [units "a"] = framed [units "data:a\r", units "\n\r", units "\n"].flatten :=
  decoding_ignores_chunks sample_chunks

end SseDecoder

end GreenPms
