import Mathlib.Algebra.GroupWithZero.Nat
import GreenPms.Foundation.Json
import GreenPms.Foundation.Text
import GreenPms.Library.Checked

/-! # Event delivery: the tables and the statements of the workers

A stream has a source row with its pause flag, the published events, one delivery row for each
event and an audit table. Claiming and finishing are one transaction each.
-/

namespace GreenPms

open Checked

structure HttpRuntime where
  jsonParse : String → Option Json
  number : String → Option Nat
  dateParse : String → Option Int

inductive DeliveryStream where
  | integration | payment | allocation
  deriving DecidableEq

inductive DeliveryState where
  | pending | sending | accepted | deadLetter
  deriving DecidableEq

def DeliveryState.completed (s : DeliveryState) : Bool := s = .accepted || s = .deadLetter

/-- The parts `new URL` splits the configured endpoint into. -/
structure DeliveryEndpoint where
  protocol : String
  username : String
  password : String
  search : String
  hash : String
  pathname : String

structure IntegrationDeliveryConfig where
  endpoint : DeliveryEndpoint
  sourceInstance : String
  propertyIds : List String
  keyId : String
  signingKey : String
  timeoutMs : Nat
  leaseMs : Nat

structure PublishedEvent where
  eventId : String
  propertyId : String
  sequence : Nat
  body : String

structure Delivery where
  eventId : String
  state : DeliveryState
  attempts : Nat
  generation : Nat
  leaseUntil : Option Nat
  nextAttemptAt : Nat
  firstAttemptAt : Option Nat
  lastDeliveryId : Option String
  lastErrorCode : Option String
  receiptId : Option String
  completedAt : Option Nat

structure ClaimedDelivery where
  eventId : String
  body : String
  generation : Nat
  attempts : Nat
  firstAttemptAt : Nat
  deliveryId : String

inductive DeliveryAction where
  | attempt | pause | resume
  deriving DecidableEq

structure DeliveryAudit where
  eventId : Option String
  action : DeliveryAction
  resultCode : String
  deliveryId : Option String
  generation : Option Nat
  deriving DecidableEq

structure DeliveryTables where
  sourceInstance : Option String
  paused : Bool
  reasonCode : String
  events : List PublishedEvent
  deliveries : List Delivery
  audit : List DeliveryAudit

structure DeliveryResponse where
  status : Nat
  body : String
  retryAfter : Option String

inductive DeliveryOutcome where
  | accepted (receipt : String)
  | pause (code : String)
  | deadLetter (code : String)
  | retry (code : String) (retryAfterMs : Option Nat)

/-! ## Configuration -/

/-- A character class of the form `[A-Za-z0-9` and some more`]`. -/
def wordChar (extra : List Char) (c : Char) : Bool := c.isAlphanum || extra.contains c

/-- `^[class]{1,most}$` -/
def wordText (extra : List Char) (most : Nat) (s : String) : Bool :=
  1 ≤ s.length && s.length ≤ most && s.toList.all (wordChar extra)

/-- `^[A-Za-z0-9][A-Za-z0-9_.-]{0,63}$` -/
def sourceText (s : String) : Bool :=
  wordText ['_', '.', '-'] 64 s && s.toList.head?.any Char.isAlphanum

def validateDeliveryConfig (config : IntegrationDeliveryConfig) : Except String Unit := do
  let url := config.endpoint
  require (url.protocol = "https:" ∧ url.username = "" ∧ url.password = "" ∧ url.search = "" ∧ url.hash = "" ∧
    url.pathname = "/api/v1/ingress/pms/events") "INTEGRATION_ENDPOINT_INVALID"
  require (wordText ['_', '.', '-'] 64 config.keyId ∧ 32 ≤ config.signingKey.utf8ByteSize ∧
    config.propertyIds ≠ [] ∧ config.propertyIds.Nodup) "INTEGRATION_CONFIG_INVALID"
  require (sourceText config.sourceInstance ∧ ∀ id ∈ config.propertyIds, id ≠ "" ∧ unitCount id ≤ 256)
    "INTEGRATION_SCOPE_INVALID"
  require (100 ≤ config.timeoutMs ∧ config.timeoutMs ≤ 30000 ∧ config.timeoutMs + 5000 ≤ config.leaseMs ∧
    config.leaseMs ≤ 120000) "INTEGRATION_TIMEOUT_INVALID"

/-! ## The answer of the receiver -/

def retryAfterMs (rt : HttpRuntime) (value : Option String) (now : Nat) : Option Nat :=
  match value with
  | none => none
  | some text =>
    if text = "" then none
    else
      let delay : Option Int :=
        if text.toList.all Char.isDigit then (rt.number text).map fun n => n * 1000
        else (rt.dateParse text).map fun instant => instant - now
      delay.map fun ms => (max 0 (min ms 900000)).toNat

/-- The receipt of an acknowledgement of this event with this status. -/
def ackReceipt (ack : Json) (eventId status : String) : Option String :=
  match ack with
  | .obj entries =>
    match Json.field entries "event_id", Json.field entries "status", Json.field entries "receipt_id" with
    | .str id, .str answered, .str receipt =>
      if id = eventId ∧ answered = status ∧ wordText ['_', '.', ':', '-'] 256 receipt then some receipt else none
    | _, _, _ => none
  | _ => none

def httpCode (status : Nat) : String := "HTTP_" ++ toString status

def classifyDelivery (rt : HttpRuntime) (response : DeliveryResponse) (eventId : String) (now : Nat) :
    DeliveryOutcome :=
  if response.status = 401 ∨ response.status = 403 then .pause (httpCode response.status)
  else if response.status ∈ [400, 409, 413, 422] then .deadLetter (httpCode response.status)
  else if response.status = 200 ∨ response.status = 202 then
    match (rt.jsonParse response.body).bind fun ack =>
        ackReceipt ack eventId (if response.status = 202 then "accepted" else "duplicate") with
    | some receipt => .accepted receipt
    | none => .retry "ACK_MISMATCH" none
  else .retry (httpCode response.status) (retryAfterMs rt response.retryAfter now)

/-- The transport answers, or throws and leaves the delivery unconfirmed. -/
def sendClaim (rt : HttpRuntime) (claim : ClaimedDelivery) (transport : Option DeliveryResponse) (now : Nat) :
    DeliveryOutcome :=
  if claim.body.utf8ByteSize > 65536 then .deadLetter "BODY_TOO_LARGE"
  else
    match transport with
    | some response => classifyDelivery rt response claim.eventId now
    | none => .retry "TRANSPORT_UNCONFIRMED" none

def Acknowledged (rt : HttpRuntime) (eventId receipt : String) : Prop :=
  ∃ response now, classifyDelivery rt response eventId now = .accepted receipt

theorem sendClaim_accepted {rt : HttpRuntime} {claim : ClaimedDelivery} {transport : Option DeliveryResponse}
    {now : Nat} {receipt : String} (h : sendClaim rt claim transport now = .accepted receipt) :
    Acknowledged rt claim.eventId receipt := by
  unfold sendClaim at h
  split at h
  · cases h
  · split at h
    · exact ⟨_, now, h⟩
    · cases h

/-! ## Claiming -/

namespace DeliveryTables

def update (t : DeliveryTables) (p : Delivery → Bool) (f : Delivery → Delivery) : DeliveryTables :=
  { t with deliveries := t.deliveries.map fun d => if p d then f d else d }

theorem mem_update {t : DeliveryTables} {p : Delivery → Bool} {f : Delivery → Delivery} {d : Delivery} :
    d ∈ (t.update p f).deliveries ↔ ∃ c ∈ t.deliveries, (if p c then f c else c) = d := List.mem_map

end DeliveryTables

def Delivery.due (now : Nat) (d : Delivery) : Bool :=
  (d.state = .pending && d.nextAttemptAt ≤ now) || (d.state = .sending && d.leaseUntil.any (· < now))

abbrev DeliveryCandidate := Delivery × PublishedEvent

/-- The order of the candidates: by the next attempt, then by the sequence of publication. -/
def DeliveryCandidate.before (a b : DeliveryCandidate) : Bool :=
  a.1.nextAttemptAt < b.1.nextAttemptAt ||
    (a.1.nextAttemptAt = b.1.nextAttemptAt && a.2.sequence ≤ b.2.sequence)

def earliest : List DeliveryCandidate → Option DeliveryCandidate
  | [] => none
  | c :: rest =>
    match earliest rest with
    | none => some c
    | some best => if DeliveryCandidate.before c best then some c else some best

theorem earliest_mem {cs : List DeliveryCandidate} {c : DeliveryCandidate} (h : earliest cs = some c) : c ∈ cs := by
  induction cs with
  | nil => cases h
  | cons a rest ih =>
    rw [earliest] at h
    split at h
    · injection h with h
      exact h ▸ List.mem_cons_self
    · next best hBest =>
      split at h <;> injection h with h <;> subst h
      · exact List.mem_cons_self
      · exact List.mem_cons_of_mem _ (ih hBest)

namespace DeliveryTables

/-- The rows the worker may take; those that another transaction holds are skipped. -/
def candidates (t : DeliveryTables) (config : IntegrationDeliveryConfig) (skipLocked : List String) (now : Nat) :
    List DeliveryCandidate :=
  t.deliveries.filterMap fun d =>
    if d.due now ∧ d.eventId ∉ skipLocked then
      (t.events.find? fun e => e.eventId = d.eventId && config.propertyIds.contains e.propertyId).map (d, ·)
    else none

def claimRow (deliveryId : String) (leaseMs now : Nat) (d : Delivery) : Delivery :=
  { d with
    state := .sending, attempts := d.attempts + 1, generation := d.generation + 1
    firstAttemptAt := some (d.firstAttemptAt.getD now)
    leaseUntil := some (now + leaseMs)
    lastDeliveryId := some deliveryId }

/-- `WITH candidate AS (...) UPDATE ... RETURNING`; the clock is read when a row is selected and
again when it is written. -/
def claimCandidate (t : DeliveryTables) (config : IntegrationDeliveryConfig) (deliveryId : String)
    (skipLocked : List String) (checkedAt writtenAt : Nat) : Option ClaimedDelivery × DeliveryTables :=
  match earliest (t.candidates config skipLocked checkedAt) with
  | none => (none, t)
  | some (d, e) =>
    (some ⟨d.eventId, e.body, d.generation + 1, d.attempts + 1, d.firstAttemptAt.getD writtenAt, deliveryId⟩,
      t.update (fun c => c.eventId = d.eventId) (claimRow deliveryId config.leaseMs writtenAt))

def claimDelivery (t : DeliveryTables) (config : IntegrationDeliveryConfig) (deliveryId : String)
    (skipLocked : List String) (checkedAt writtenAt : Nat) :
    Except String (Option ClaimedDelivery × DeliveryTables) := do
  validateDeliveryConfig config
  if t.paused then pure (none, t)
  else
    require (t.sourceInstance = some config.sourceInstance) "INTEGRATION_SOURCE_MISMATCH"
    pure (t.claimCandidate config deliveryId skipLocked checkedAt writtenAt)

/-- `claimPaymentAllocationDelivery` is the same over its own tables. -/
def claimPaymentDelivery (t : DeliveryTables) (config : IntegrationDeliveryConfig) (deliveryId : String)
    (skipLocked : List String) (checkedAt writtenAt : Nat) :
    Except String (Option ClaimedDelivery × DeliveryTables) := do
  validateDeliveryConfig config
  require (t.sourceInstance = some config.sourceInstance) "PAYMENT_DELIVERY_SOURCE_MISMATCH"
  if t.paused then pure (none, t)
  else pure (t.claimCandidate config deliveryId skipLocked checkedAt writtenAt)

def claim (stream : DeliveryStream) (t : DeliveryTables) (config : IntegrationDeliveryConfig) (deliveryId : String)
    (skipLocked : List String) (checkedAt writtenAt : Nat) :
    Except String (Option ClaimedDelivery × DeliveryTables) :=
  match stream with
  | .integration => t.claimDelivery config deliveryId skipLocked checkedAt writtenAt
  | .payment | .allocation => t.claimPaymentDelivery config deliveryId skipLocked checkedAt writtenAt

/-! ## Finishing -/

/-- The condition of the update: the generation of the claim, still sending, inside its lease. -/
def accepts (claim : ClaimedDelivery) (now : Nat) (d : Delivery) : Bool :=
  d.eventId = claim.eventId && d.generation = claim.generation && d.state = .sending &&
    d.leaseUntil.any (now < ·)

end DeliveryTables

def ClaimedDelivery.expired (claim : ClaimedDelivery) (workerNow : Nat) : Bool :=
  claim.firstAttemptAt + 86400000 ≤ workerNow

namespace DeliveryOutcome

def state (outcome : DeliveryOutcome) (expired : Bool) : DeliveryState :=
  match outcome with
  | .accepted _ => .accepted
  | .deadLetter _ => .deadLetter
  | .retry .. => if expired then .deadLetter else .pending
  | .pause _ => .pending

def code (outcome : DeliveryOutcome) (expired : Bool) : String :=
  match outcome with
  | .accepted _ => "ACK_ACCEPTED"
  | .retry code _ => if expired then "RETRY_EXHAUSTED" else code
  | .pause code | .deadLetter code => code

/-- The pause before the next attempt; `jitter` is `1000 * (0.5 + random() / 2)`. -/
def delay (outcome : DeliveryOutcome) (attempts jitter : Nat) : Nat :=
  let asked := match outcome with
    | .retry _ ms => ms.getD 0
    | _ => 0
  min 900000 (max asked (2 ^ min (attempts - 1) 20 * jitter))

def receipt : DeliveryOutcome → Option String
  | .accepted receipt => some receipt
  | _ => none

def isPause : DeliveryOutcome → Bool
  | .pause _ => true
  | _ => false

end DeliveryOutcome

namespace DeliveryTables

def finishRow (claim : ClaimedDelivery) (outcome : DeliveryOutcome) (expired : Bool) (now jitter : Nat)
    (d : Delivery) : Delivery :=
  { d with
    state := outcome.state expired
    leaseUntil := none
    nextAttemptAt := now + outcome.delay claim.attempts jitter
    receiptId := outcome.receipt
    lastErrorCode := if outcome.receipt.isSome then none else some (outcome.code expired)
    completedAt := if (outcome.state expired).completed then some now else none }

def attemptRow (claim : ClaimedDelivery) (outcome : DeliveryOutcome) (expired : Bool) : DeliveryAudit :=
  ⟨some claim.eventId, .attempt, outcome.code expired, some claim.deliveryId, some claim.generation⟩

/-- `expired` is read off the clock of the worker before the update. -/
def finishDelivery (t : DeliveryTables) (claim : ClaimedDelivery) (outcome : DeliveryOutcome) (expired : Bool)
    (checkedAt writtenAt jitter : Nat) : DeliveryTables × Bool :=
  if t.deliveries.any (accepts claim checkedAt) then
    let updated := t.update (accepts claim checkedAt) (finishRow claim outcome expired writtenAt jitter)
    let flagged := if outcome.isPause then { updated with paused := true, reasonCode := outcome.code expired }
      else updated
    ({ flagged with audit := flagged.audit ++ [attemptRow claim outcome expired] }, true)
  else (t, false)

/-! ## Publication and the operator's control of the flag -/

def publish (t : DeliveryTables) (e : PublishedEvent) (now : Nat) : DeliveryTables :=
  { t with
    events := t.events ++ [e]
    deliveries := t.deliveries ++ [⟨e.eventId, .pending, 0, 0, none, now, none, none, none, none, none⟩] }

/-- PAUSE and RESUME; only the payment streams write their delivery audit here. -/
def control (stream : DeliveryStream) (t : DeliveryTables) (paused : Bool) (reason : String) : DeliveryTables :=
  { t with
    paused := paused, reasonCode := reason
    audit := if stream = .integration then t.audit
      else t.audit ++ [⟨none, if paused then .pause else .resume, reason, none, none⟩] }

end DeliveryTables

end GreenPms
