import GreenPms.Library.Transition
import Mathlib.Data.List.Infix

/-! # Routing between two providers

A question goes to the primary provider until it fails, and then to the backup one until a probe of
the primary succeeds. Probes run while settings change, failures come in and questions are asked.
-/

namespace GreenPms

open TransitionSystem

/-! ## Settings -/

inductive AssistantProviderRole where
  | primary
  | backup
  deriving DecidableEq, Repr

structure ProviderConnection where
  enabled : Bool
  baseUrl : String
  model : String
  encryptedKey : String
  deriving DecidableEq, Repr

structure ProviderSettingsRow where
  version : Nat
  enabled : Bool
  primary : ProviderConnection
  backup : ProviderConnection
  deriving DecidableEq, Repr

def ProviderSettingsRow.connection (row : ProviderSettingsRow) : AssistantProviderRole → ProviderConnection
  | .primary => row.primary
  | .backup => row.backup

/-- Without a row there is neither a key nor a model. -/
def providerAvailable (row : Option ProviderSettingsRow) (role : AssistantProviderRole) : Bool :=
  row.any fun row =>
    let value := row.connection role
    value.enabled && value.encryptedKey != "" && value.baseUrl != "" && value.model != ""

/-! ## Errors -/

inductive ModelFailureCategory where
  | upstream
  | rateLimit
  | authentication
  | quota
  | invalidRequest
  | contextLimit
  | contentFilter
  | incompleteStream
  | protocol
  deriving DecidableEq, Repr

/-- An `AssistantFailure`, any other `DomainError`, an `AbortError` and what is none of them. -/
inductive ProviderError where
  | assistant (diagnostic : String) (category : Option ModelFailureCategory)
  | domain (code : String)
  | aborted
  | other
  deriving DecidableEq, Repr

def faultDiagnostics : List String :=
  ["AI_HTTP_401", "AI_HTTP_402", "AI_HTTP_429", "AI_HTTP_500", "AI_HTTP_502", "AI_HTTP_503", "AI_HTTP_504",
    "AI_MODEL_FIRST_RESPONSE_TIMEOUT", "AI_MODEL_IDLE_TIMEOUT", "AI_MODEL_CONNECTION_FAILED",
    "AI_DNS_TIMEOUT", "AI_DNS_FAILED", "AI_ECONNRESET", "AI_ECONNREFUSED", "AI_ENETUNREACH", "AI_ETIMEDOUT",
    "AI_UPSTREAM_STREAM_ERROR", "AI_UPSTREAM_RATE_LIMITED", "AI_UPSTREAM_AUTH_FAILED", "AI_UPSTREAM_QUOTA_EXCEEDED",
    "AI_STREAM_INCOMPLETE", "AI_INVALID_RESPONSE"]

/-- `AI_INVALID_RESPONSE_[A-Z0-9_]+`. -/
def invalidResponse (diagnostic : String) : Bool :=
  let detail := diagnostic.toList.drop "AI_INVALID_RESPONSE_".length
  "AI_INVALID_RESPONSE_".toList.isPrefixOf diagnostic.toList && !detail.isEmpty &&
    detail.all fun c => c.isUpper || c.isDigit || c == '_'

def finishedEarly (diagnostic : String) : Bool :=
  ["AI_INVALID_RESPONSE_FINISH_CONTENT_FILTER", "AI_INVALID_RESPONSE_FINISH_LENGTH"].any fun part =>
    part.toList <:+: diagnostic.toList

def providerFault : ProviderError → Option String
  | .assistant diagnostic category =>
      if category ∈ [some .invalidRequest, some .contextLimit, some .contentFilter] then none
      else if diagnostic = "AI_HTTP_403" ∧ category = some .authentication then some diagnostic
      else if (faultDiagnostics.contains diagnostic || invalidResponse diagnostic) && !finishedEarly diagnostic then
        some diagnostic
      else none
  | _ => none

def recoveryCancelled : ProviderError → Bool
  | .assistant diagnostic _ =>
      ["AI_CANCELLED", "AI_CONFIG_CHANGED", "AI_RECOVERY_SUPERSEDED", "AI_ATTEMPT_FINISHED"].contains diagnostic
  | .domain code =>
      ["INSUFFICIENT_ACCESS", "AUTHENTICATION_REQUIRED", "SESSION_EXPIRED", "INVALID_CREDENTIALS",
        "AGGREGATE_VERSION_CONFLICT"].contains code
  | .aborted => true
  | .other => false

/-! ## The router -/

def providerRecoveryDelayMs : Nat := 600000

inductive ProbeStage where
  | pending
  /-- The result has been taken, and `finally` is to come. -/
  | settled
  | finished
  deriving DecidableEq, Repr

structure RecoveryProbe where
  generation : Nat
  version : Int
  aborted : Bool
  stage : ProbeStage
  deriving DecidableEq, Repr

structure AssistantProviderRouter where
  version : Int
  generation : Nat
  retryAt : Option Nat
  lastFailure : Option String
  lastCheckedAt : Option Nat
  /-- The place of the running probe. -/
  running : Option Nat
  closed : Bool
  /-- All probes that were started, in their order. -/
  probes : List RecoveryProbe
  deriving DecidableEq, Repr

namespace AssistantProviderRouter

def fresh : AssistantProviderRouter := ⟨-1, 0, none, none, none, none, false, []⟩

/-- The signal of the running probe is aborted and the probe is let go. -/
def letGo (router : AssistantProviderRouter) : AssistantProviderRouter :=
  match router.running with
  | some id => { router with
      running := none, probes := router.probes.modify id fun probe => { probe with aborted := true } }
  | none => router

def rowVersion (row : Option ProviderSettingsRow) : Int := (row.map (·.version)).getD 0

def rowEnabled (row : Option ProviderSettingsRow) : Bool := row.any (·.enabled)

/-- The settings that `sync` starts over for. -/
def Reconfigures (version : Int) (row : Option ProviderSettingsRow) : Prop :=
  version ≤ rowVersion row ∧ (version ≠ rowVersion row ∨ rowEnabled row = false)

instance (version : Int) (row : Option ProviderSettingsRow) : Decidable (Reconfigures version row) :=
  inferInstanceAs (Decidable (_ ∧ _))

def sync (router : AssistantProviderRouter) (row : Option ProviderSettingsRow) : AssistantProviderRouter × Bool :=
  if rowVersion row < router.version then (router, false)
  else if router.version ≠ rowVersion row ∨ rowEnabled row = false then
    ({ router.letGo with
      generation := router.generation + 1, retryAt := none, lastFailure := none, lastCheckedAt := none
      version := rowVersion row }, true)
  else (router, true)

def route (router : AssistantProviderRouter) (row : ProviderSettingsRow) (useBackup : Bool) :
    Except String AssistantProviderRole :=
  if !row.enabled || router.closed then .error "AI 助手尚未启用。"
  else if useBackup then
    if providerAvailable row .backup then .ok .backup
    else .error "备用供应商尚未启用或配置不完整，请联系管理员。"
  else if providerAvailable row .primary && (router.retryAt.isNone || !providerAvailable row .backup) then .ok .primary
  else if providerAvailable row .backup then .ok .backup
  else .error "当前没有可用的模型供应商，请管理员检查配置。"

def select (router : AssistantProviderRouter) (row : ProviderSettingsRow) (useBackup : Bool) :
    AssistantProviderRouter × Except String AssistantProviderRole :=
  let (router, current) := router.sync row
  (router, if current then router.route row useBackup else .error "模型配置已变化，请新建对话后重试。")

def failure (router : AssistantProviderRouter) (version : Int) (error : ProviderError) (now : Nat) :
    AssistantProviderRouter :=
  match providerFault error with
  | some diagnostic =>
      if router.closed || version != router.version then router
      else { router.letGo with
        generation := router.generation + 1, retryAt := some (now + providerRecoveryDelayMs), lastFailure := some diagnostic }
  | none => router

inductive RoutingState where
  | unavailable
  | checking
  | backup
  | primary
  deriving DecidableEq, Repr

structure AssistantRoutingStatus where
  state : RoutingState
  retryAfter : Option Nat
  lastFailure : Option String
  lastCheckedAt : Option Nat
  deriving DecidableEq, Repr

def status (router : AssistantProviderRouter) (row : Option ProviderSettingsRow) :
    AssistantProviderRouter × Except String AssistantRoutingStatus :=
  let (router, current) := router.sync row
  let primary := providerAvailable row .primary
  let backup := providerAvailable row .backup
  (router, if current then .ok {
      state :=
        if !rowEnabled row || (!primary && !backup) then .unavailable
        else if router.running.isSome then .checking
        else if (!primary || router.retryAt.isSome) && backup then .backup
        else .primary
      retryAfter := router.retryAt
      lastFailure := router.lastFailure
      lastCheckedAt := router.lastCheckedAt }
    else .error "模型配置已变化，请重新载入。")

/-- A probe is due when its time has come, as far as a router in step with the row can tell. -/
def due (router : AssistantProviderRouter) (row : ProviderSettingsRow) (now : Nat) : Bool :=
  !router.closed && row.enabled && providerAvailable row .primary && providerAvailable row .backup &&
    router.retryAt.any (· ≤ now) && router.running.isNone

def needsProbe (router : AssistantProviderRouter) (row : ProviderSettingsRow) (now : Nat) :
    AssistantProviderRouter × Bool :=
  let (router, current) := router.sync row
  (router, current && router.due row now)

/-- A probe starts, unless one is running already. -/
def probe (router : AssistantProviderRouter) (row : ProviderSettingsRow) (now : Nat) (force : Bool) :
    AssistantProviderRouter :=
  let (router, current) := router.sync row
  if !current || router.running.isSome then router
  else if router.closed || !row.enabled || !providerAvailable row .primary || (!force && !router.due row now) then router
  else { router with
    running := some router.probes.length
    probes := router.probes ++ [⟨router.generation, router.version, false, .pending⟩] }

/-- The result of a probe still counts. -/
def Counts (router : AssistantProviderRouter) (probe : RecoveryProbe) : Prop :=
  probe.aborted = false ∧ probe.generation = router.generation ∧ probe.version = router.version ∧ router.closed = false

instance (router : AssistantProviderRouter) (probe : RecoveryProbe) : Decidable (router.Counts probe) :=
  inferInstanceAs (Decidable (_ ∧ _))

def settle (router : AssistantProviderRouter) (id : Nat) (stage : ProbeStage) : AssistantProviderRouter :=
  { router with probes := router.probes.modify id fun probe => { probe with stage } }

def succeeded (router : AssistantProviderRouter) (id : Nat) (now : Nat) : AssistantProviderRouter :=
  match router.probes[id]? with
  | none => router
  | some probe =>
      if probe.stage ≠ .pending then router
      else if router.Counts probe then
        { router.settle id .settled with retryAt := none, lastFailure := none, lastCheckedAt := some now }
      else router.settle id .settled

def rejected (router : AssistantProviderRouter) (id : Nat) (error : ProviderError) (now : Nat) : AssistantProviderRouter :=
  match router.probes[id]? with
  | none => router
  | some probe =>
      if probe.stage ≠ .pending then router
      else if router.Counts probe ∧ recoveryCancelled error = false then
        { router.settle id .settled with
          retryAt := some (now + providerRecoveryDelayMs)
          lastFailure := some ((providerFault error).getD "AI_RECOVERY_FAILED")
          lastCheckedAt := some now }
      else router.settle id .settled

/-- `finally`. -/
def finish (router : AssistantProviderRouter) (id : Nat) : AssistantProviderRouter :=
  match router.probes[id]? with
  | none => router
  | some probe =>
      if probe.stage ≠ .settled then router
      else { router.settle id .finished with running := if router.running = some id then none else router.running }

def close (router : AssistantProviderRouter) : AssistantProviderRouter :=
  { router.letGo with closed := true, generation := router.generation + 1 }

end AssistantProviderRouter

inductive RouterAction where
  | sync (row : Option ProviderSettingsRow)
  | select (row : ProviderSettingsRow) (useBackup : Bool)
  | failure (version : Int) (error : ProviderError) (now : Nat)
  | status (row : Option ProviderSettingsRow)
  | needsProbe (row : ProviderSettingsRow) (now : Nat)
  | probe (row : ProviderSettingsRow) (now : Nat) (force : Bool)
  | succeeded (id : Nat) (now : Nat)
  | rejected (id : Nat) (error : ProviderError) (now : Nat)
  | finish (id : Nat)
  | close
  deriving DecidableEq, Repr

def RouterAction.row? : RouterAction → Option (Option ProviderSettingsRow)
  | sync row | status row => some row
  | select row _ | needsProbe row _ | probe row _ _ => some (some row)
  | _ => none

namespace AssistantProviderRouter

def perform (router : AssistantProviderRouter) : RouterAction → AssistantProviderRouter
  | .sync row => (router.sync row).1
  | .select row useBackup => (router.select row useBackup).1
  | .failure version error now => router.failure version error now
  | .status row => (router.status row).1
  | .needsProbe row now => (router.needsProbe row now).1
  | .probe row now force => router.probe row now force
  | .succeeded id now => router.succeeded id now
  | .rejected id error now => router.rejected id error now
  | .finish id => router.finish id
  | .close => router.close

end AssistantProviderRouter

/-- Actions in any order: callbacks of probes come whenever they come. -/
def routerSystem : System AssistantProviderRouter RouterAction where
  init router := router = .fresh
  step router action after := after = router.perform action

end GreenPms
