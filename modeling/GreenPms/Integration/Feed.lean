import GreenPms.Command.Types
import GreenPms.Integration.Outbox
import GreenPms.Library.Base64Url
import GreenPms.Library.Decimal

/-! # The feed of integration events

A page holds the stored bodies behind a cursor. Cursors are signed with the epoch of the property, and
one that lies below what is retained has expired.
-/

namespace GreenPms

open Checked JsString Delimited

/-! ## Cursors -/

def sequenceText (n : Nat) : JsString := if n = 0 then [48] else (Decimal.digits n).map Decimal.digitUnit

def isDigitUnit (u : UInt16) : Bool := 48 ≤ u && u ≤ 57

/-- `BigInt` of a text with `^(0|[1-9][0-9]*)$`. -/
def readSequence (text : JsString) : Option Nat :=
  if text = [48] then some 0
  else if text ≠ [] ∧ text.head? ≠ some 48 ∧ text.all isDigitUnit then
    some (Decimal.number (text.map fun u => u.toNat - 48))
  else none

theorem readSequence_sequenceText (n : Nat) : readSequence (sequenceText n) = some n := by
  unfold sequenceText
  split
  case isTrue hZero =>
    subst hZero
    rfl
  case isFalse hPositive =>
    have hUnit : ∀ d : Fin 10, isDigitUnit (Decimal.digitUnit d) = true ∧ (Decimal.digitUnit d).toNat - 48 = d ∧
        (Decimal.digitUnit d = 48 → d = 0) := by decide
    have hDigit : ∀ d ∈ Decimal.digits n, isDigitUnit (Decimal.digitUnit d) = true ∧ (Decimal.digitUnit d).toNat - 48 = d ∧
        (Decimal.digitUnit d = 48 → d = 0) := by
      intro d hd
      obtain ⟨hAll, hValue, hZero⟩ := hUnit ⟨d, Decimal.digits_lt hd⟩
      exact ⟨hAll, hValue, fun h => congrArg Fin.val (hZero h)⟩
    have hFull : Decimal.digits n ≠ [] := by
      rw [Decimal.digits, Ne, List.reverse_eq_nil_iff]
      exact Nat.digits_ne_nil_iff_ne_zero.mpr hPositive
    have hFirst : ((Decimal.digits n).map Decimal.digitUnit).head? ≠ some 48 := by
      intro hHead
      rw [List.head?_map, Option.map_eq_some_iff] at hHead
      obtain ⟨d, hd, hUnit48⟩ := hHead
      obtain rfl := (hDigit d (List.mem_of_head? hd)).2.2 hUnit48
      rw [Decimal.digits, List.head?_reverse, List.getLast?_eq_some_getLast (Nat.digits_ne_nil_iff_ne_zero.mpr hPositive)] at hd
      exact Nat.getLast_digit_ne_zero 10 hPositive (Option.some.inj hd)
    have hAll : ((Decimal.digits n).map Decimal.digitUnit).all isDigitUnit = true := by
      rw [List.all_map, List.all_eq_true]
      exact fun d hd => (hDigit d hd).1
    have hNumber : ((Decimal.digits n).map Decimal.digitUnit).map (fun u => u.toNat - 48) = Decimal.digits n := by
      rw [List.map_map]
      exact (List.map_congr_left fun d hd => (hDigit d hd).2.1).trans (List.map_id _)
    have hNotZero : (Decimal.digits n).map Decimal.digitUnit ≠ [48] := fun hZero => hFirst (by rw [hZero]; rfl)
    rw [readSequence, if_neg hNotZero, if_pos ⟨by simpa using hFull, hFirst, hAll⟩, hNumber, Decimal.number_digits]

def JsonTree.asText : JsonTree → Option JsString
  | str text => some text
  | _ => none

def JsonTree.isText (t : JsonTree) (text : JsString) : Bool := t.asText = some text

def cursorValues (source p : String) (seq : JsString) : JsonTree :=
  .arr [.str (units "pms.events.v1"), .str (units source), .str (units p), .str seq]

namespace FeedRuntime

variable (rt : FeedRuntime)

/-- `createHmac("sha256", epoch).update(value).digest("base64url")` -/
def sign (epoch : String) (value : JsString) : JsString := Base64Url.encode (rt.hmac epoch value)

def cursorPayload (source p : String) (n : Nat) : JsString :=
  Base64Url.encode (rt.utf8 (cursorValues source p (sequenceText n)).text)

/-- `encode` -/
def encodeCursor (epoch source p : String) (n : Nat) : JsString :=
  rt.cursorPayload source p n ++ 46 :: rt.sign epoch (rt.cursorPayload source p n)

end FeedRuntime

def invalidCursor : DomainError := domainError .validationError "Invalid integration cursor"

/-- `^[A-Za-z0-9_-]+\.[A-Za-z0-9_-]+$`, with the texts before and after the point. -/
def splitCursor (cursor : JsString) : Option (JsString × JsString) :=
  match cursor.span Base64Url.isUnit with
  | (payload, 46 :: signature) =>
      if payload ≠ [] ∧ signature ≠ [] ∧ signature.all Base64Url.isUnit then some (payload, signature) else none
  | _ => none

/-- The sequence in the values of a payload; a cursor of another property is refused by name. -/
def readValues (rt : FeedRuntime) (state : PublishState) (source p : String) (payload signature : JsString) :
    JsonTree → Except DomainError Nat
  | .arr [version, origin, owner, seq] => do
      require (owner.isText (units p)) (domainError .insufficientAccess "Cursor property mismatch")
      require (signature = rt.sign state.cursorEpoch payload) invalidCursor
      require (version.isText (units "pms.events.v1") ∧ origin.isText (units source)) invalidCursor
      let consumed ← expect invalidCursor (seq.asText.bind readSequence)
      require (consumed ≤ state.head) invalidCursor
      pure consumed
  | _ => throw invalidCursor

def decodeCursor (rt : FeedRuntime) (state : PublishState) (source p : String) (cursor : JsString) :
    Except DomainError Nat := do
  require (cursor.length ≤ 2048) invalidCursor
  let (payload, signature) ← expect invalidCursor (splitCursor cursor)
  let values ← expect invalidCursor (rt.parse (Base64Url.decode payload))
  readValues rt state source p payload signature values

/-! ## Pages -/

structure FeedPage where
  sourceInstance : String
  propertyId : String
  nextCursor : JsString
  hasMore : Bool
  headCursor : JsString
  retentionFloorCursor : JsString
  events : List String
  deriving DecidableEq

/-- The text of a page, in which the bodies stand as they are stored. -/
def FeedPage.text (page : FeedPage) : JsString :=
  (JsonTree.text (.obj [(units "schema_version", .str (units "pms.events.v1")),
    (units "source_instance", .str (units page.sourceInstance)), (units "property_id", .str (units page.propertyId)),
    (units "next_cursor", .str page.nextCursor), (units "has_more", .bool page.hasMore),
    (units "head_cursor", .str page.headCursor), (units "retention_floor_cursor", .str page.retentionFloorCursor)])).dropLast ++
  units ",\"events\":[" ++ joined 44 (page.events.map units) ++ units "]\x7d"

def projectionUnavailable : DomainError := ⟨.internalError, "INTEGRATION_PROJECTION_UNAVAILABLE", true, none⟩

def cursorExpired : DomainError := domainError .cursorExpired "Rebuild the source baseline"

def limitValue (limit : Int) : Except DomainError Nat :=
  if 1 ≤ limit ∧ limit ≤ 100 then .ok limit.toNat else .error (domainError .validationError "Invalid limit")

namespace IntegrationTables

variable (rt : FeedRuntime)

/-- The published events of a property after a sequence, up to the head. -/
def eventsAfter (t : IntegrationTables) (p : String) (consumed head : Nat) : List PublishedEvent :=
  ((t.eventsOf p).filter fun e => consumed < e.sequence ∧ e.sequence ≤ head).insertionSort
    fun d e => d.sequence ≤ e.sequence

def consumedOf (state : PublishState) (source p : String) (cursor : Option JsString) : Except DomainError Nat :=
  match cursor.filter fun text => text ≠ [] with
  | none => pure state.floor
  | some text => do
    let consumed ← decodeCursor rt state source p text
    require (state.floor ≤ consumed) cursorExpired
    pure consumed

/-- `readPmsEventFeed`; the bytes of a page are its `text`. -/
def readPmsEventFeed (t : IntegrationTables) (p : String) (cursor : Option JsString) (limit : Int) :
    Except DomainError FeedPage := do
  let limit ← limitValue limit
  let source ← expect projectionUnavailable t.delivery.sourceInstance
  let state ← expect projectionUnavailable (t.publishState p)
  let consumed ← consumedOf rt state source p cursor
  let rows := (t.eventsAfter p consumed state.head).take (limit + 1)
  let selected := rows.take limit
  let next := (selected.getLast?.map PublishedEvent.sequence).getD consumed
  pure ⟨source, p, rt.encodeCursor state.cursorEpoch source p next, limit < rows.length,
    rt.encodeCursor state.cursorEpoch source p state.head, rt.encodeCursor state.cursorEpoch source p state.floor,
    selected.map PublishedEvent.body⟩

end IntegrationTables

/-! ## What a cursor is read as -/

/-- `JSON.parse` reads the values of a cursor as they were written and throws on an empty text, and a
digest is not empty. -/
structure FeedRuntime.ReadsCursors (rt : FeedRuntime) : Prop where
  parses : ∀ source p n, rt.parse (rt.utf8 (cursorValues source p (sequenceText n)).text) =
    some (cursorValues source p (sequenceText n))
  throws : rt.parse [] = none
  digests : ∀ epoch value, rt.hmac epoch value ≠ []

theorem splitCursor_encode {payload signature : List UInt8} (hPayload : payload ≠ []) (hSignature : signature ≠ []) :
    splitCursor (Base64Url.encode payload ++ 46 :: Base64Url.encode signature) =
      some (Base64Url.encode payload, Base64Url.encode signature) := by
  have hFull {bytes : List UInt8} (h : bytes ≠ []) : Base64Url.encode bytes ≠ [] := fun hNil => h (Base64Url.encode_eq_nil hNil)
  have hPoint : Base64Url.isUnit 46 = false := by decide
  have hTake : (Base64Url.encode payload ++ 46 :: Base64Url.encode signature).takeWhile Base64Url.isUnit =
      Base64Url.encode payload := by
    rw [List.takeWhile_append_of_pos (Base64Url.isUnit_encode payload), List.takeWhile_cons_of_neg (by simp [hPoint]),
      List.append_nil]
  have hDrop : (Base64Url.encode payload ++ 46 :: Base64Url.encode signature).dropWhile Base64Url.isUnit =
      46 :: Base64Url.encode signature := by
    rw [List.dropWhile_append_of_pos (Base64Url.isUnit_encode payload), List.dropWhile_cons_of_neg (by simp [hPoint])]
  rw [splitCursor, List.span_eq_takeWhile_dropWhile, hTake, hDrop]
  exact if_pos ⟨hFull hPayload, hFull hSignature, List.all_eq_true.mpr (Base64Url.isUnit_encode signature)⟩

namespace FeedRuntime.ReadsCursors

variable {rt : FeedRuntime} (hReads : rt.ReadsCursors) {state : PublishState} {source p : String} {n : Nat}

include hReads

theorem split_encodeCursor : splitCursor (rt.encodeCursor state.cursorEpoch source p n) =
    some (rt.cursorPayload source p n, rt.sign state.cursorEpoch (rt.cursorPayload source p n)) := by
  have hPayload : rt.utf8 (cursorValues source p (sequenceText n)).text ≠ [] := by
    intro hNil
    have hParse := hReads.parses source p n
    rw [hNil, hReads.throws] at hParse
    cases hParse
  exact splitCursor_encode hPayload (hReads.digests _ _)

theorem decodeCursor_encode (hShort : (rt.encodeCursor state.cursorEpoch source p n).length ≤ 2048) (hHead : n ≤ state.head) :
    decodeCursor rt state source p (rt.encodeCursor state.cursorEpoch source p n) = .ok n := by
  have hParse : rt.parse (Base64Url.decode (rt.cursorPayload source p n)) = some (cursorValues source p (sequenceText n)) := by
    rw [FeedRuntime.cursorPayload, Base64Url.decode_encode]
    exact hReads.parses source p n
  have hValues : readValues rt state source p (rt.cursorPayload source p n)
      (rt.sign state.cursorEpoch (rt.cursorPayload source p n)) (cursorValues source p (sequenceText n)) = .ok n := by
    simp [readValues, cursorValues, JsonTree.isText, JsonTree.asText, readSequence_sequenceText, hHead]
  simp only [decodeCursor, bind_eq_ok, require_eq_ok, expect_eq_ok]
  exact ⟨(), hShort, _, hReads.split_encodeCursor, _, hParse, hValues⟩

theorem consumedOf_encode (hShort : (rt.encodeCursor state.cursorEpoch source p n).length ≤ 2048) (hHead : n ≤ state.head) :
    IntegrationTables.consumedOf rt state source p (some (rt.encodeCursor state.cursorEpoch source p n)) =
      if state.floor ≤ n then .ok n else .error cursorExpired := by
  have hText : (some (rt.encodeCursor state.cursorEpoch source p n)).filter (fun text => text ≠ []) =
      some (rt.encodeCursor state.cursorEpoch source p n) := by
    rw [Option.filter_eq_some_iff]
    exact ⟨rfl, by simp [FeedRuntime.encodeCursor]⟩
  rw [IntegrationTables.consumedOf, hText]
  dsimp only
  rw [hReads.decodeCursor_encode hShort hHead]
  change (require (state.floor ≤ n) cursorExpired >>= fun _ => pure n) = _
  by_cases hFloor : state.floor ≤ n
  · rw [require, if_pos hFloor, if_pos hFloor]
    rfl
  · rw [require, if_neg hFloor, if_neg hFloor]
    rfl

end FeedRuntime.ReadsCursors

theorem IntegrationTables.short_of_consumedOf {rt : FeedRuntime} {state : PublishState} {source p : String} {cursor : JsString}
    {n : Nat} (h : consumedOf rt state source p (some cursor) = .ok n) : cursor.length ≤ 2048 := by
  unfold consumedOf at h
  cases hText : (some cursor).filter fun text => text ≠ [] with
  | none =>
    rw [Option.filter_eq_none_iff] at hText
    have hEmpty : cursor = [] := by simpa using hText cursor rfl
    rw [hEmpty]
    exact Nat.zero_le _
  | some text =>
    rw [hText] at h
    obtain ⟨hSame, -⟩ := Option.filter_eq_some_iff.mp hText
    obtain rfl := Option.some.inj hSame
    simp only [decodeCursor, bind_eq_ok, require_eq_ok] at h
    obtain ⟨m, ⟨-, hShort, -⟩, -⟩ := h
    exact hShort

end GreenPms
