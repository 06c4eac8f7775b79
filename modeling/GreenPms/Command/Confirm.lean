import GreenPms.Command.Protocol

/-! # The decisions of a confirmation

Each definition is one stretch of `confirmCommandPreview` between two statements that can
block: the checks before the insert, the gate on the locked Preview, the rebuild with the
application of the effect, and what the catch block does with a thrown error.
-/

namespace GreenPms

open Json

variable {β δ : Type} (env : Environment β δ)

/-- `receiptByCommand` on the committed tables. -/
def receiptByCommand (t : Tables β) (commandId : Nat) : Except Thrown (Option Receipt) :=
  match t.receipt? commandId with
  | some r => match env.receiptReadError r with
    | some e => .error e
    | none => .ok (some r)
  | none => .ok none

def replayOrConflict (t : Tables β) (key : CommandKey) (requestHash : String) :
    Except Thrown (Option Receipt) :=
  match t.execution? key with
  | none => .ok none
  | some x =>
      if x.requestHash ≠ requestHash then
        .error (.domain (domainError .idempotencyKeyReused
          "Idempotency key was already used with a different request"))
      else
        match receiptByCommand env t x.id with
        | .error e => .error e
        | .ok (some r) => .ok (some r)
        | .ok none => .error (.domain
            (statusUnknownError "Command is still executing or its final state is unknown"))

def createOrderConfirmationReasonCodes : List String :=
  ["CREATE_STANDARD_ORDER", "BACKFILL_STAY", "TEMPORARY_OTHER_ROOM"]

/-- The checks of the confirmation itself, made with and without a stored Preview. -/
def confirmationFieldError (command : CommandType) (c : Confirmation) : Option DomainError :=
  if c.confirmation = false then
    some (domainError .confirmationRequired "Explicit confirmation is required")
  else if env.runtime.trim c.expectedEffectHash = "" then
    some (domainError .confirmationMismatch "expectedEffectHash is required")
  else if env.runtime.trim c.reason.code = "" ∨
      (command ≠ .createOrder ∧ env.runtime.trim c.reason.note = "") then
    some (domainError .reasonRequired "A structured reason is required")
  else if command = .createOrder ∧ ¬ createOrderConfirmationReasonCodes.contains c.reason.code then
    some (domainError .validationError ("CREATE_ORDER confirmation reason must be " ++
      "CREATE_STANDARD_ORDER, BACKFILL_STAY, or TEMPORARY_OTHER_ROOM"))
  else none

/-- A confirmation whose Preview does not exist may only replay an earlier receipt. -/
def missingPreviewOutcome (t : Tables β) (c : ConfirmCall) (denied : Option ErrorCode) :
    Except Thrown Receipt :=
  let propertyId := env.runtime.trim c.confirmation.propertyId
  let command := c.confirmation.commandType
  if propertyId = "" then .error (.domain (domainError .validationError "propertyId is required"))
  else
    match confirmationFieldError env command c.confirmation, denied with
    | some e, _ => .error (.domain e)
    | none, some code => .error (.authorization code)
    | none, none =>
        match replayOrConflict env t ⟨c.subjectId, propertyId, .command command, c.idempotencyKey⟩
          (c.requestHash env.runtime) with
        | .error e => .error e
        | .ok (some r) => .ok r
        | .ok none => .error (.domain previewNotFoundError)

/-- The statements of the transaction before the insert. `denied` is what the authorization
and the token ceilings threw, if they did. -/
def confirmChecks (t : Tables β) (c : ConfirmCall) (key : CommandKey) (command : CommandType)
    (denied : Option Thrown) : Except Thrown (Option Receipt) :=
  match t.preview? c.previewId with
  | none => .error (.domain previewNotFoundError)
  | some p =>
      if p.subjectId ≠ c.subjectId then .error (.authorization .previewNotFound)
      else if p.normalizedInput.asRecord.isNone then
        .error (.domain (domainError .internalError "Stored Preview input is malformed"))
      else if p.effect.asRecord.isNone then
        .error (.domain (domainError .internalError "Stored Preview effect is malformed"))
      else
        match denied with
        | some e => .error e
        | none =>
            if env.runtime.trim c.confirmation.propertyId ≠ key.propertyId ∨
                c.confirmation.commandType ≠ command then
              .error .identityMismatch
            else
              match confirmationFieldError env command c.confirmation with
              | some e => .error (.domain e)
              | none => replayOrConflict env t key (c.requestHash env.runtime)

/-- `assertCreateOrderConfirmationReason`. -/
def createOrderReasonError (effect : List (String × Json)) (reason : CommandReason) :
    Option DomainError :=
  let rt := env.runtime
  match (field effect "backfill").asRecord with
  | some backfill =>
      let lockedReason := trimmedField rt backfill "reason"
      if lockedReason = "" ∨ reason.code ≠ "BACKFILL_STAY" ∨ rt.trim reason.note ≠ lockedReason then
        some (domainError .confirmationMismatch "补录确认原因必须与核对页锁定的原因一致")
      else none
  | none =>
      match (field effect "temporaryOtherRoomArrangement").asRecord with
      | some _ =>
          let lockedReason := trimmedField rt effect "temporaryOtherRoomReason"
          if lockedReason = "" ∨ lockedReason.length > 200 ∨ reason.code ≠ "TEMPORARY_OTHER_ROOM" ∨
              reason.note ≠ lockedReason then
            some (domainError .confirmationMismatch "临时安排确认原因必须与核对页锁定的原因一致")
          else none
      | none =>
          if reason.code ≠ "CREATE_STANDARD_ORDER" ∨ reason.note ≠ "" then
            some (domainError .confirmationMismatch "普通创建订单必须使用标准建单确认原因")
          else none

def completeStayReasonError (effect : List (String × Json)) (reason : CommandReason) :
    Option DomainError :=
  let lockedReason := trimmedField env.runtime effect "reasonNote"
  if reason.code ≠ "COMPLETE_STAY" ∨ lockedReason = "" ∨
      env.runtime.trim reason.note ≠ lockedReason then
    some (domainError .confirmationMismatch "完成住宿确认原因必须与核对页锁定的说明一致")
  else none

def lockedReasonError (command : CommandType) (effect : List (String × Json))
    (reason : CommandReason) : Option DomainError :=
  if command = .createOrder then createOrderReasonError env effect reason
  else if command = .completeStay then completeStayReasonError env effect reason
  else none

def historicalProtocolEpoch (version : HistoricalProtocolVersion) : Except Thrown Nat :=
  let migrationName := historicalProtocolEpochMigration version
  match env.migrationAppliedAt migrationName with
  | some appliedAt => .ok appliedAt
  | none => .error (.domain (domainError .internalError
      ("Historical protocol epoch " ++ migrationName ++ " is unavailable")))

/-- `assertHistoricalReadPredatesProtocolEpoch`. -/
def predatesProtocolEpoch (version : HistoricalProtocolVersion) (createdAt : Nat) (resource : String) :
    Except Thrown Unit :=
  match historicalProtocolEpoch env version with
  | .error e => .error e
  | .ok epoch =>
      if epoch ≤ createdAt then .error (.domain (domainError .internalError
        (resource ++ " uses " ++ version.name ++ " after its protocol epoch")))
      else .ok ()

def previewGate (now : Nat) (t : Tables β) (c : ConfirmCall) (key : CommandKey)
    (command : CommandType) : Except Thrown Preview :=
  match t.preview? c.previewId with
  | none => .error (.domain previewNotFoundError)
  | some p =>
      if p.subjectId ≠ c.subjectId then .error (.authorization .previewNotFound)
      else if p.propertyId ≠ key.propertyId ∨ p.commandType ≠ command then
        .error (.domain (domainError .internalError
          "Stored Preview identity changed while confirming"))
      else if p.status = .expired then .error (.domain previewExpiredError)
      else if p.status ≠ .opened then
        .error (.domain (domainError .previewAlreadyUsed "Preview has already been used"))
      else if p.expiresAt ≤ now then .error (.domain previewExpiredError)
      else
        match p.effect.asRecord with
        | none => .error (.domain (domainError .internalError "Stored Preview effect is malformed"))
        | some effect =>
            match env.legacyEffectProtocol p.commandType effect with
            | some version =>
                match predatesProtocolEpoch env version p.createdAt "Stored preview" with
                | .error e => .error e
                | .ok _ => .error .historicalPreviewReadOnly
            | none =>
                match lockedReasonError env command effect c.confirmation.reason with
                | some e => .error (.domain e)
                | none =>
                    if p.effectHash ≠ c.confirmation.expectedEffectHash then
                      .error (.domain (domainError .confirmationMismatch
                        "Confirmed effect hash does not match the preview"))
                    else .ok p

/-- `strictRecoveryEvidenceCommands`. -/
def strictRecoveryEvidenceCommands : List CommandType :=
  [.manageOrderOccupants, .revokeCheckOut, .rescheduleStay, .extendStay, .shortenStay, .moveUnit,
    .cancelOrder, .markNoShow, .revokeCheckIn, .convertStayCollectionsToMembership, .completeStay,
    .correctHistoricalStayArrangements, .correctMemberProfile, .correctMembershipEffectiveDate,
    .backfillHistoricalMembership, .voidErroneousMembershipAndReconvertStay]

def requiresStrictRecoveryEvidence (command : CommandType) (effect : Json) : Bool :=
  match effect.asRecord with
  | none => strictRecoveryEvidenceCommands.contains command
  | some entries =>
      strictRecoveryEvidenceCommands.contains command ||
        (field entries "temporaryOtherRoomArrangement").asRecord.isSome ||
        (command == .createOrder && (field entries "backfill").asRecord.isSome)

/-- `basisVersions.externalPayments ?? []`. -/
def externalPayments (basisVersions : Json) : Json :=
  match basisVersions.asRecord.map (field · "externalPayments") with
  | some (.arr items) => .arr items
  | _ => .arr []

/-- `rebuildAndApply` and the evidence binding after it. The rebuild and the application read
the views `v` and `v'`; `denied` is what the token ceilings threw on the rebuilt effect. -/
def rebuildAndApply (v v' : β) (denied : Option Thrown) (c : ConfirmCall) (p : Preview)
    (commandId : Nat) : Except Thrown (BuiltEffect × δ) :=
  match buildCommandEffect env v p.commandType p.normalizedInput, denied with
  | .error e, _ => .error (rebuildThrown p.commandType e)
  | .ok _, some e => .error (rebuildThrown p.commandType e)
  | .ok rebuilt, none =>
      if rebuilt.effectHash ≠ p.effectHash then
        .error (.domain (previewBasisChangedError none))
      else
        match env.applyCommand v' ⟨p.commandType, p.normalizedInput, rebuilt.effect,
          c.confirmation.reason, commandId, p.id⟩ with
        | .error e => .error e
        | .ok applied =>
            match env.bindExternalPayments v' applied commandId
                (externalPayments rebuilt.basisVersions) with
            | .error e => .error e
            | .ok bound =>
                if requiresStrictRecoveryEvidence p.commandType p.effect then
                  match env.bindPersistedEffectHash v' bound p.commandType p.effect with
                  | .error e => .error e
                  | .ok _ => .ok (rebuilt, bound)
                else .ok (rebuilt, bound)

/-- The errors that the catch block rethrows without recording a rejected command. -/
def rethrown (command : CommandType) : Thrown → Bool
  | .authorization _ => true
  | .identityMismatch => true
  | .historicalPreviewReadOnly => false
  | .domain e => e.code = .previewNotFound ||
      (command == .completeCleaning && !env.cleaningWorkflow && e.code = .validationError)
  | .sqlFailure _ | .failure => false

def retryableSqlStates : List String := ["40001", "40P01", "55P03", "57014"]

/-- `classifyTransactionFailure`, for the SQLSTATE of an error of the database. -/
def classifyTransactionFailure (sqlState : Option String) : DomainError :=
  if sqlState.any retryableSqlStates.contains then
    ⟨.commandInterrupted, "数据库事务暂时中断；请刷新预览后重试", true, none⟩
  else domainError .commandInterrupted "操作未完成，请联系管理员核查；请勿反复提交"

/-- `rejectionError`. -/
def rejectionError : Thrown → DomainError
  | .authorization code => domainError code "Command access was denied"
  | .identityMismatch => identityMismatchError
  | .historicalPreviewReadOnly => historicalPreviewReadOnlyError
  | .domain e => e
  | .sqlFailure sqlState => classifyTransactionFailure (some sqlState)
  | .failure => classifyTransactionFailure none

def closesPreview (t : Thrown) : Bool :=
  (rejectionError t).code = .previewStale && t ≠ .historicalPreviewReadOnly

/-- The rows that the closing update of `persistRejected` matches. -/
def closable (t : Tables β) (c : ConfirmCall) (key : CommandKey) : Bool :=
  match t.preview? c.previewId with
  | none => false
  | some p => p.subjectId = c.subjectId && p.propertyId = key.propertyId &&
      ExecutionType.command p.commandType = key.commandType && p.status = .opened

end GreenPms
