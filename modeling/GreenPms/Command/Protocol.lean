import GreenPms.Command.Types
import GreenPms.Library.Transition

/-! # The command protocol: tables, client calls and transactions in flight

A client call is a sequential program whose database work is cut at the statements that other
transactions can observe or block on: the try-lock, the insert into `command_executions`, the
`SELECT ... FOR UPDATE` on the Preview, the commit. What a transaction has written and not yet
committed is a function of its phase, so a rollback is a change of phase. The effect builders
and appliers of the commands are parameters, and they read an arbitrary view of the business
tables, because under read committed the statements of one step may see different commits.
-/

namespace GreenPms

inductive ExecutionType where
  | preview (command : CommandType)
  | command (command : CommandType)
  | createQuote
  | historical (name : String)
  deriving DecidableEq, Repr

/-- The unique scope of `command_executions`. -/
structure CommandKey where
  subjectId : String
  propertyId : String
  commandType : ExecutionType
  idempotencyKey : String
  deriving DecidableEq, Repr

inductive PreviewStatus where
  | opened | used | expired
  deriving DecidableEq, Repr

inductive HistoricalProtocolVersion where
  | legacyStage910 | legacyStage10 | preStage11 | preInhouseMembershipFulfillment
  deriving DecidableEq, Repr

def HistoricalProtocolVersion.name : HistoricalProtocolVersion → String
  | .legacyStage910 => "LEGACY_STAGE_9_10"
  | .legacyStage10 => "LEGACY_STAGE_10"
  | .preStage11 => "PRE_STAGE_11"
  | .preInhouseMembershipFulfillment => "PRE_INHOUSE_MEMBERSHIP_FULFILLMENT"

def historicalProtocolEpochMigration : HistoricalProtocolVersion → String
  | .preInhouseMembershipFulfillment => "044_inhouse_membership_fulfillment_guards.sql"
  | _ => "028_stage11_move_unit_guards.sql"

structure Preview where
  id : Nat
  subjectId : String
  propertyId : String
  commandType : CommandType
  normalizedInput : Json
  effect : Json
  effectHash : String
  basisVersions : Json
  createdAt : Nat
  expiresAt : Nat
  status : PreviewStatus

inductive ExecutionState where
  | executing | applied | rejected
  deriving DecidableEq, Repr

structure Execution where
  id : Nat
  key : CommandKey
  requestHash : String
  state : ExecutionState
  deriving DecidableEq, Repr

inductive ExecutionStatus where
  | executed | notExecuted
  deriving DecidableEq, Repr

structure Receipt where
  commandId : Nat
  executionStatus : ExecutionStatus
  businessCommitted : Bool
  error : Option DomainError
  deriving DecidableEq, Repr

inductive EffectSource where
  | confirmed (previewId : Nat)
  | created (previewId : Nat)
  | quoted
  deriving DecidableEq, Repr

structure AppliedEffect (δ : Type) where
  commandId : Nat
  source : EffectSource
  delta : Option δ

structure WriteSet (δ : Type) where
  execution : Option Execution := none
  receipt : Option Receipt := none
  newPreview : Option Preview := none
  previewStatus : Option (Nat × PreviewStatus) := none
  effect : Option (AppliedEffect δ) := none

structure Tables (β : Type) where
  previews : List Preview
  executions : List Execution
  receipts : List Receipt
  business : β

structure BuiltEffect where
  propertyId : String
  effect : Json
  basisVersions : Json
  effectHash : String

structure CommandReason where
  code : String
  note : String
  deriving DecidableEq, Repr

structure ApplyOptions where
  commandType : CommandType
  input : Json
  effect : Json
  reason : CommandReason
  commandId : Nat
  previewId : Nat

/-- The parts of the system that the protocol calls. `lockId` is the 64-bit hash of an
execution lock key, `merge` the effect of a committed transaction on the business tables, and
`receiptReadError` the evidence checks of a receipt that is read back. -/
structure Environment (β δ : Type) where
  runtime : JsRuntime
  lockId : CommandKey → Nat
  previewTtl : Nat
  cleaningWorkflow : Bool
  merge : β → δ → β
  buildEffect : β → CommandType → Json → Except Thrown (String × Json × Json)
  createQuote : β → Json → Except Thrown δ
  applyCommand : β → ApplyOptions → Except Thrown δ
  bindExternalPayments : β → δ → Nat → Json → Except Thrown δ
  bindPersistedEffectHash : β → δ → CommandType → Json → Except Thrown Unit
  legacyEffectProtocol : CommandType → List (String × Json) → Option HistoricalProtocolVersion
  migrationAppliedAt : String → Option Nat
  receiptReadError : Receipt → Option Thrown

/-- `finalize`: the hash covers the effect together with its basis versions. -/
def finalize (rt : JsRuntime) (propertyId : String) (effect basisVersions : Json) : BuiltEffect :=
  ⟨propertyId, effect, basisVersions,
    Json.stableHash rt (.obj [("effect", effect), ("basisVersions", basisVersions)])⟩

def buildCommandEffect {β δ : Type} (env : Environment β δ) (view : β) (c : CommandType)
    (input : Json) : Except Thrown BuiltEffect :=
  (env.buildEffect view c input).map fun built => finalize env.runtime built.1 built.2.1 built.2.2

namespace Tables

variable {β δ : Type}

def execution? (t : Tables β) (key : CommandKey) : Option Execution :=
  t.executions.find? fun x => x.key = key

def receipt? (t : Tables β) (commandId : Nat) : Option Receipt :=
  t.receipts.find? fun r => r.commandId = commandId

def preview? (t : Tables β) (id : Nat) : Option Preview := t.previews.find? fun p => p.id = id

def setStatus (id : Nat) (status : PreviewStatus) (p : Preview) : Preview :=
  if p.id = id then { p with status := status } else p

def commit (merge : β → δ → β) (t : Tables β) (w : WriteSet δ) : Tables β where
  previews := (match w.previewStatus with
    | some (id, status) => t.previews.map (setStatus id status)
    | none => t.previews) ++ w.newPreview.toList
  executions := t.executions ++ w.execution.toList
  receipts := t.receipts ++ w.receipt.toList
  business := match w.effect.bind AppliedEffect.delta with
    | some delta => merge t.business delta
    | none => t.business

end Tables

structure Confirmation where
  propertyId : String
  commandType : CommandType
  confirmation : Bool
  expectedEffectHash : String
  reason : CommandReason
  deriving DecidableEq, Repr

def Confirmation.toJson (c : Confirmation) : Json :=
  .obj [("propertyId", .str c.propertyId), ("commandType", .str c.commandType.text),
    ("confirmation", .bool c.confirmation), ("expectedEffectHash", .str c.expectedEffectHash),
    ("reason", .obj [("code", .str c.reason.code), ("note", .str c.reason.note)])]

structure PreviewCall where
  subjectId : String
  propertyId : String
  commandType : CommandType
  input : Json
  idempotencyKey : String

structure QuoteCall where
  subjectId : String
  propertyId : String
  input : Json
  idempotencyKey : String

structure ConfirmCall where
  subjectId : String
  previewId : Nat
  confirmation : Confirmation
  idempotencyKey : String

structure ResolveCall where
  subjectId : String
  propertyId : String
  commandType : ExecutionType
  idempotencyKey : String

def PreviewCall.requestHash (rt : JsRuntime) (q : PreviewCall) : String :=
  Json.stableHash rt (.obj [("commandType", .str q.commandType.text), ("input", q.input)])

def QuoteCall.requestHash (rt : JsRuntime) (q : QuoteCall) : String := Json.stableHash rt q.input

def QuoteCall.key (q : QuoteCall) : CommandKey :=
  ⟨q.subjectId, q.propertyId, .createQuote, q.idempotencyKey⟩

def ConfirmCall.requestHash (rt : JsRuntime) (c : ConfirmCall) : String :=
  Json.stableHash rt
    (.obj [("previewId", .num c.previewId), ("confirmation", c.confirmation.toJson)])

def ResolveCall.key (q : ResolveCall) : CommandKey :=
  ⟨q.subjectId, q.propertyId, q.commandType, q.idempotencyKey⟩

inductive Call where
  | preview (q : PreviewCall)
  | quote (q : QuoteCall)
  | confirm (c : ConfirmCall)
  | resolve (q : ResolveCall)

inductive Response where
  | receipt (r : Receipt)
  | unknown
  | error (t : Thrown)
  | connectionLost
  deriving DecidableEq, Repr

end GreenPms
