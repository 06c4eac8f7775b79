import Mathlib.Data.List.Sort
import Mathlib.Logic.Function.Basic
import GreenPms.Delivery.Tables
import GreenPms.Foundation.JsonTree

/-! # The outbox of integration events

A transaction of the business inserts its facts without a number. A worker numbers the facts of a
property, stores their bodies and opens their deliveries; payloads that were acknowledged long ago are
removed from the front.
-/

namespace GreenPms

open Checked

/-- What the integration uses of the runtimes: `parse` is `JSON.parse` of the text of some bytes, and
`utcText` is `to_char` of a time. -/
structure FeedRuntime where
  utf8 : JsString → List UInt8
  parse : List UInt8 → Option JsonTree
  hmac : String → JsString → List UInt8
  utcText : Nat → String
  http : HttpRuntime

/-! ## Tables -/

inductive CaptureMode where
  | baseline | live
  deriving DecidableEq

/-- The columns of a fact; `refs` are the members of the object as `jsonb` keeps them. -/
structure OutboxFact where
  eventId : String
  sourceInstance : String
  propertyId : String
  aggregateType : String
  aggregateId : String
  aggregateRevision : Nat
  eventType : String
  sourceFactRef : String
  recordedAt : Nat
  origin : String
  refs : List (String × String)
  captureEpoch : String
  createdAt : Nat
  publishSeq : Option Nat
  deriving DecidableEq

def OutboxFact.key (f : OutboxFact) : String × String × String × String × String × String :=
  (f.sourceInstance, f.propertyId, f.aggregateType, f.aggregateId, f.eventType, f.sourceFactRef)

structure PublishState where
  head : Nat
  floor : Nat
  cursorEpoch : String
  deriving DecidableEq

/-- The source row is in `delivery`; its mode and epoch count once it is there. `publishedAt` is a
column of the published events. -/
structure IntegrationTables where
  properties : List String
  captureMode : CaptureMode
  captureEpoch : String
  outbox : List OutboxFact
  publishState : String → Option PublishState
  publishedAt : String → Option Nat
  delivery : DeliveryTables

namespace IntegrationTables

def head (t : IntegrationTables) (p : String) : Nat := (t.publishState p).elim 0 PublishState.head

def floor (t : IntegrationTables) (p : String) : Nat := (t.publishState p).elim 0 PublishState.floor

def numbers (t : IntegrationTables) (p : String) : List Nat :=
  (t.outbox.filter fun f => f.propertyId = p).filterMap OutboxFact.publishSeq

def eventsOf (t : IntegrationTables) (p : String) : List PublishedEvent :=
  t.delivery.events.filter fun e => e.propertyId = p

/-! ## Configuration -/

/-- `qintopia_integration_configure`, without the facts of the baseline, which it emits. -/
def configure (t : IntegrationTables) (source : String) (mode : CaptureMode) (epoch : String)
    (cursorEpoch : String → String) : Except String IntegrationTables := do
  require (sourceText source) "INTEGRATION_SOURCE_INVALID"
  require (∀ old ∈ t.delivery.sourceInstance, old = source) "INTEGRATION_SOURCE_IMMUTABLE"
  pure { t with
    captureMode := mode, captureEpoch := epoch
    publishState := fun p => if t.publishState p = none ∧ p ∈ t.properties then some ⟨0, 0, cursorEpoch p⟩ else t.publishState p
    delivery := { t.delivery with sourceInstance := some source } }

/-! ## Emission -/

structure EmitCall where
  propertyId : String
  entityKind : String
  entityId : String
  revision : Nat
  eventName : String
  factRef : String
  factTime : Nat
  factOrigin : String
  refs : List (String × String)

def aggregateTypes : List String := ["order", "member", "inventory_unit"]

def eventTypes : List String :=
  ["pms.order.created", "pms.order.context_changed", "pms.stay.checked_in", "pms.stay.arrangement_changed",
    "pms.stay.checked_out", "pms.stay.cancelled", "pms.stay.no_show", "pms.stay.check_in_revoked",
    "pms.stay.check_out_revoked", "pms.order.occupants_changed", "pms.member.context_changed",
    "pms.inventory_unit.context_changed", "pms.entity.invalidated"]

def factOrigins : List String := ["baseline", "live", "historical_correction"]

def refNames : List String := ["order_id", "stay_id", "member_id", "inventory_unit_id", "occupant_id"]

def factRefKinds : List String :=
  ["command:", "amendment:", "correction:", "account_management_operation:", "migration:", "baseline:"]

/-- `length(...) BETWEEN 1 AND 256` -/
def sized (s : String) : Prop := 1 ≤ s.length ∧ s.length ≤ 256

instance : DecidablePred sized := fun s => inferInstanceAs (Decidable (1 ≤ s.length ∧ s.length ≤ 256))

/-- `^(command|amendment|...):.+$` -/
def factRefText (s : String) : Bool :=
  factRefKinds.any fun kind => kind.toList.isPrefixOf s.toList && kind.length < s.length

def checkFact (t : IntegrationTables) (f : OutboxFact) : Except String Unit := do
  require (f.propertyId ∈ t.properties) "integration_outbox_property_id_fkey"
  require (f.aggregateType ∈ aggregateTypes) "integration_outbox_aggregate_type_check"
  require (sized f.aggregateId) "integration_outbox_aggregate_id_check"
  require (0 < f.aggregateRevision) "integration_outbox_aggregate_revision_check"
  require (f.eventType ∈ eventTypes) "integration_outbox_event_type_check"
  require (sized f.sourceFactRef ∧ factRefText f.sourceFactRef) "integration_outbox_source_fact_ref_check"
  require (f.origin ∈ factOrigins) "integration_outbox_origin_check"
  require (∀ ref ∈ f.refs, ref.1 ∈ refNames) "integration_outbox_refs_check"
  require (∀ g ∈ t.outbox, g.eventId ≠ f.eventId) "integration_outbox_pkey"

/-- `qintopia_integration_emit`; the key of the row and its time are given by the database. -/
def emit (t : IntegrationTables) (c : EmitCall) (eventId : String) (createdAt : Nat) : Except String IntegrationTables :=
  match t.delivery.sourceInstance with
  | none => pure t
  | some source => do
    require (∀ ref ∈ c.refs, sized ref.2) "INTEGRATION_REFERENCE_INVALID"
    let origin := if t.captureMode = .baseline then "baseline" else c.factOrigin
    match t.outbox.find? fun f => f.key = (source, c.propertyId, c.entityKind, c.entityId, c.eventName, c.factRef) with
    | some prior =>
      require (prior.aggregateRevision = c.revision ∧ prior.refs = c.refs ∧ prior.origin = origin ∧
        prior.recordedAt = c.factTime) "INTEGRATION_FACT_CONFLICT"
      pure t
    | none =>
      let fact : OutboxFact := ⟨eventId, source, c.propertyId, c.entityKind, c.entityId, c.revision, c.eventName,
        c.factRef, c.factTime, origin, c.refs, t.captureEpoch, createdAt, none⟩
      t.checkFact fact
      pure { t with outbox := t.outbox ++ [fact] }

end IntegrationTables

/-! ## Publication -/

/-- The text of a `jsonb` object, whose members stand in the order of `jsonb`: by length, then by bytes. -/
def jsonbObject (members : List (String × String)) : String :=
  "\x7b" ++ String.intercalate ", " (members.map fun m => Json.quote m.1 ++ ": " ++ m.2) ++ "\x7d"

def FeedRuntime.eventBody (rt : FeedRuntime) (f : OutboxFact) (seq : Nat) : String :=
  jsonbObject [("refs", jsonbObject (f.refs.map fun ref => (ref.1, Json.quote ref.2))), ("origin", Json.quote f.origin),
    ("event_id", Json.quote f.eventId), ("event_type", Json.quote f.eventType),
    ("property_id", Json.quote f.propertyId), ("publish_seq", Json.quote (toString seq)),
    ("recorded_at", Json.quote (rt.utcText f.recordedAt)), ("aggregate_id", Json.quote f.aggregateId),
    ("effective_at", "null"), ("aggregate_type", Json.quote f.aggregateType),
    ("schema_version", Json.quote "pms.events.v1"), ("source_fact_ref", Json.quote f.sourceFactRef),
    ("source_instance", Json.quote f.sourceInstance), ("aggregate_revision", Json.quote (toString f.aggregateRevision))]

namespace OutboxFact

/-- `ORDER BY created_at,event_id` -/
def before (f g : OutboxFact) : Prop :=
  f.createdAt < g.createdAt ∨ f.createdAt = g.createdAt ∧ f.eventId ≤ g.eventId

instance : DecidableRel before := fun f g =>
  inferInstanceAs (Decidable (f.createdAt < g.createdAt ∨ f.createdAt = g.createdAt ∧ f.eventId ≤ g.eventId))

def number (eventId : String) (seq : Nat) (f : OutboxFact) : OutboxFact :=
  if f.eventId = eventId then { f with publishSeq := some seq } else f

end OutboxFact

namespace IntegrationTables

variable (rt : FeedRuntime)

def unpublished (t : IntegrationTables) (p : String) : List OutboxFact :=
  (t.outbox.filter fun f => f.propertyId = p ∧ f.publishSeq = none).insertionSort OutboxFact.before

def publishFact (t : IntegrationTables) (seq : Nat) (f : OutboxFact) (now : Nat) : Except String IntegrationTables := do
  let body := rt.eventBody f seq
  require (body.utf8ByteSize ≤ 65536) "integration_published_events_body_check"
  pure { t with
    outbox := t.outbox.map (OutboxFact.number f.eventId seq)
    publishedAt := Function.update t.publishedAt f.eventId (some now)
    delivery := t.delivery.publish ⟨f.eventId, f.propertyId, seq, body⟩ now }

/-- The facts take the numbers after the head; `clock` is the time at which each number is stored. -/
def publishFacts (clock : Nat → Nat) : List OutboxFact → IntegrationTables → Nat → Except String IntegrationTables
  | [], t, _ => pure t
  | f :: rest, t, head => do
    let t ← t.publishFact rt (head + 1) f (clock (head + 1))
    publishFacts clock rest t (head + 1)

/-- `qintopia_integration_publish`; `epoch` is the default of a new row. -/
def publish (t : IntegrationTables) (p : String) (batchLimit : Int) (epoch : String) (clock : Nat → Nat) :
    Except String (IntegrationTables × Nat) := do
  require (1 ≤ batchLimit ∧ batchLimit ≤ 100) "INTEGRATION_BATCH_LIMIT"
  if t.delivery.sourceInstance = none then pure (t, 0)
  else
    require (p ∈ t.properties) "integration_publish_state_property_id_fkey"
    let state := (t.publishState p).getD ⟨0, 0, epoch⟩
    let facts := (t.unpublished p).take batchLimit.toNat
    let t ← publishFacts rt clock facts t state.head
    pure ({ t with publishState := Function.update t.publishState p (some { state with head := state.head + facts.length }) },
      facts.length)

/-! ## Retention -/

def day : Nat := 86400000

/-- The delivery of an event is open, or the event is younger than the retention. -/
def blocks (t : IntegrationTables) (retention now : Nat) (e : PublishedEvent) : Bool :=
  t.delivery.deliveries.any fun d =>
    d.eventId = e.eventId && (d.state ≠ .accepted || (t.publishedAt e.eventId).any fun stored => now < stored + retention)

/-- The number before the first event of the property that has to stay. -/
def throughSeq (t : IntegrationTables) (p : String) (state : PublishState) (retention now : Nat) : Nat :=
  match (((t.eventsOf p).filter (t.blocks retention now)).map PublishedEvent.sequence).min? with
  | some first => first - 1
  | none => state.head

/-- The first half of `qintopia_integration_prune`: the row of the state is held, and the number is read. -/
def pruneThrough (t : IntegrationTables) (p : String) (retainDays : Int) (now : Nat) : Except String Nat := do
  require (30 ≤ retainDays ∧ retainDays ≤ 3650) "INTEGRATION_RETENTION_INVALID"
  let state ← expect "NO_DATA_FOUND" (t.publishState p)
  pure (t.throughSeq p state (retainDays.toNat * day) now)

def covered (p : String) (through : Nat) (e : PublishedEvent) : Bool := e.propertyId = p && e.sequence ≤ through

/-- The second half: the deliveries and the payloads up to the number are deleted. -/
def prune (t : IntegrationTables) (p : String) (through : Nat) : IntegrationTables :=
  { t with
    publishState := Function.update t.publishState p
      ((t.publishState p).map fun state => { state with floor := max state.floor through })
    delivery := { t.delivery with
      deliveries := t.delivery.deliveries.filter fun d =>
        !t.delivery.events.any fun e => d.eventId = e.eventId && covered p through e
      events := t.delivery.events.filter fun e => !covered p through e } }

/-! ## Replay -/

def replayRow (now : Nat) (d : Delivery) : Delivery :=
  { d with
    state := .pending, generation := d.generation + 1, leaseUntil := none, nextAttemptAt := now
    firstAttemptAt := none, completedAt := none, lastErrorCode := none }

/-- `REPLAY` of `qintopia_integration_control`. -/
def replay (t : IntegrationTables) (configVersion reasonCode eventId : String) (now : Nat) :
    Except String IntegrationTables := do
  require (wordText ['_', '.', ':', '-'] 128 configVersion ∧ 1 ≤ reasonCode.length ∧ reasonCode.length ≤ 64 ∧
    reasonCode.toList.all fun c => c.isUpper || c.isDigit || c = '_') "INTEGRATION_CONTROL_INVALID"
  require (∃ d ∈ t.delivery.deliveries, d.eventId = eventId) "INTEGRATION_EVENT_NOT_RETAINED"
  pure { t with delivery := t.delivery.update (fun d => d.eventId = eventId) (replayRow now) }

end IntegrationTables

end GreenPms
