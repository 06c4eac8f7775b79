import Mathlib.Data.List.Dedup
import Mathlib.Data.List.Sort
import GreenPms.Command.Types
import GreenPms.Library.Checked

/-! # API tokens: grants, ceilings and the authorization of a command

Commands are authorized by their names. A command that a preview or a confirmation executes is
one of the executable types; quotes are not among them. Only API tokens call here: what the code
decides for a session is left out.
-/

namespace GreenPms

open Checked

/-- What the authorization uses of the JavaScript runtime and of the database. -/
structure TokenRuntime where
  trim : String → String
  /-- `Date.parse`, in milliseconds. -/
  dateParse : String → Option Int
  /-- `strictDateTime` with a real date and time of day. -/
  strictDateTime : String → Bool
  toISOString : Int → String
  /-- The instant that PostgreSQL stores for a text, in microseconds. -/
  timestamptz : String → Int

inductive AccessLevel where
  | read | write
  deriving DecidableEq

def accessAllows (actual required : AccessLevel) : Bool := actual = .write || required = .read

inductive SubjectStatus where
  | active | disabled
  deriving DecidableEq

structure Subject where
  displayName : String
  status : SubjectStatus
  authVersion : Nat

structure ApiToken where
  subjectId : Nat
  label : String
  secretHash : String
  accessCeiling : AccessLevel
  expiresAt : Int
  revokedAt : Option Int
  rotatedFromId : Option Nat
  replacedById : Option Nat

/-- `new Date` of a stored instant keeps milliseconds. -/
def ApiToken.expiresAtMs (x : ApiToken) : Int := x.expiresAt / 1000

inductive CommandClass where
  | directRead | humanCommand | systemDerived | futureDisabled | historicalRead
  deriving DecidableEq

structure TokenPrincipal where
  subjectId : Nat
  credentialId : Nat

/-- The input of the token lifecycle commands, the secret already replaced by its hash. -/
inductive TokenCommand where
  | issue (subjectId : Nat) (label accessCeiling : String) (commandCeiling : Option (List String))
      (expiresAt tokenSecretHash : String)
  | rotate (tokenId : Nat) (commandCeiling : Option (List String)) (expiresAt : Option String)
      (tokenSecretHash : String)
  | revoke (tokenId : Nat)

def TokenCommand.commandType : TokenCommand → CommandType
  | .issue .. => .issueToken
  | .rotate .. => .rotateToken
  | .revoke _ => .revokeToken

/-- A domain error; `denialReason` is set when it is an authorization denial. -/
structure TokenError where
  code : ErrorCode
  message : String
  denialReason : Option String
  deriving DecidableEq

def validation (message : String) : TokenError := ⟨.validationError, message, none⟩

def denial (reason message : String) : TokenError := ⟨.insufficientAccess, message, some reason⟩

def denialWith (code : ErrorCode) (reason message : String) : TokenError := ⟨code, message, some reason⟩

/-! ## Grants -/

def ordinaryStaffCommandGrants : List CommandType :=
  [.createMember, .createMembershipOrder, .recordMembershipPayment, .correctMembershipPayment,
    .activateMembershipOrder, .cancelMembershipOrder, .createOrder, .manageOrderOccupants, .rescheduleStay,
    .extendStay, .shortenStay, .moveUnit, .repriceOrder, .cancelOrder, .markNoShow, .revokeCheckIn,
    .lockMaintenance, .releaseMaintenance, .recordCollection, .recordRefund, .reverseFact, .retainOrderFunds,
    .applyRetainedFunds, .releaseRetainedFunds, .refundRetainedFunds, .convertStayCollectionsToMembership,
    .checkIn, .checkOut, .completeStay, .correctMemberEntitlementBalance]

def administratorCommandGrants : List CommandType :=
  ordinaryStaffCommandGrants ++ [.manageRoomCatalog, .revokeCheckOut, .correctOrderOccupant,
    .correctHistoricalStayArrangements, .correctMemberProfile, .correctMembershipEffectiveDate,
    .backfillHistoricalMembership, .voidErroneousMembershipAndReconvertStay, .completeCleaning, .issueToken,
    .rotateToken, .revokeToken]

def isHumanGrantableCommandCapability (command : String) : Bool :=
  (administratorCommandGrants.map CommandType.text).contains command

/-- `currentReleaseFeatures`, those that gate a command. -/
structure ReleaseFeatures where
  cleaningWorkflow : Bool
  historicalStayArrangementCorrection : Bool
  memberProfileCorrection : Bool
  membershipEffectiveDateCorrection : Bool
  historicalMembershipBackfill : Bool
  membershipConversionVoidCorrection : Bool

def currentReleaseFeatures : ReleaseFeatures := ⟨false, true, true, true, true, true⟩

def commandFeatureEnabled (command : String) : Bool :=
  if command = "COMPLETE_CLEANING" then currentReleaseFeatures.cleaningWorkflow
  else if command = "CORRECT_HISTORICAL_STAY_ARRANGEMENTS" then
    currentReleaseFeatures.historicalStayArrangementCorrection
  else if command = "CORRECT_MEMBER_PROFILE" then currentReleaseFeatures.memberProfileCorrection
  else if command = "CORRECT_MEMBERSHIP_EFFECTIVE_DATE" then
    currentReleaseFeatures.membershipEffectiveDateCorrection
  else if command = "BACKFILL_HISTORICAL_MEMBERSHIP" then currentReleaseFeatures.historicalMembershipBackfill
  else if command = "VOID_ERRONEOUS_MEMBERSHIP_AND_RECONVERT_STAY" then
    currentReleaseFeatures.membershipConversionVoidCorrection
  else true

inductive CommandAuthorizationDenialReason where
  | subjectDisabled | propertyWriteRequired | subjectCommandGrantMissing | tokenCommandCeilingMissing
  | featureDisabled
  deriving DecidableEq

/-- The evaluation for a token; `none` allows the command. -/
def evaluateCommandAuthorization (command : String) (status : SubjectStatus) (propertyAccess : AccessLevel)
    (subjectCommandGrants tokenCommandCeiling : List String) : Option CommandAuthorizationDenialReason :=
  if status ≠ .active then some .subjectDisabled
  else if propertyAccess ≠ .write then some .propertyWriteRequired
  else if !isHumanGrantableCommandCapability command || !subjectCommandGrants.contains command then
    some .subjectCommandGrantMissing
  else if command = "MANAGE_ROOM_CATALOG" || !tokenCommandCeiling.contains command then
    some .tokenCommandCeilingMissing
  else if !commandFeatureEnabled command then some .featureDisabled
  else none

def CommandAuthorizationDenialReason.error : CommandAuthorizationDenialReason → TokenError
  | .featureDisabled => denial "FEATURE_DISABLED" "Command feature is disabled in this release"
  | .tokenCommandCeilingMissing =>
      denial "TOKEN_COMMAND_CEILING_MISSING" "Token command ceiling does not include this command"
  | .propertyWriteRequired => denial "PROPERTY_WRITE_REQUIRED" "WRITE access is required"
  | .subjectDisabled => denialWith .subjectDisabled "SUBJECT_DISABLED" "Subject is disabled"
  | .subjectCommandGrantMissing => denial "SUBJECT_COMMAND_GRANT_MISSING" "Exact command grant is required"

def sortedUniqueStrings (xs : List String) : List String := xs.dedup.insertionSort (· ≤ ·)

@[simp] theorem mem_sortedUniqueStrings {xs : List String} {x : String} : x ∈ sortedUniqueStrings xs ↔ x ∈ xs := by
  rw [sortedUniqueStrings, List.mem_insertionSort, List.mem_dedup]

/-! ## The tables of one property -/

inductive PreviewState where
  | opened | used
  deriving DecidableEq

structure TokenEffect where
  tokenId : Option Nat
  subjectId : Nat
  subjectDisplayName : String
  label : String
  accessCeiling : AccessLevel
  commandCeiling : List String
  persistedCommandCeiling : List String
  previousCommandCeiling : List String
  previousPersistedCommandCeiling : List String
  previousExpiresAt : Option String
  expiresAt : String

structure TokenBasis where
  tokenRevokedAt : Option Int
  replacedById : Option Nat
  subjectAuthVersion : Nat
  previousExpiresAt : Option String
  previousCommandCeiling : List String
  previousPersistedCommandCeiling : List String
  persistedCommandCeiling : List String
  subjectAccess : Option AccessLevel
  targetCommandGrants : List (String × CommandClass × Bool)
  tokenSecretHash : Option String

structure TokenPreview where
  subjectId : Nat
  input : TokenCommand
  effect : TokenEffect
  effectHash : String
  expiresAt : Int
  state : PreviewState

/-- The rows of a property, by their keys. The ceilings are those of `token_command_ceilings`. -/
structure TokenTables where
  now : Int
  subjects : Nat → Option Subject
  propertyGrants : Nat → Option AccessLevel
  commandGrants : Nat → List String
  commandCatalog : String → CommandClass
  tokens : Nat → Option ApiToken
  ceilings : Nat → List String
  previews : Nat → Option TokenPreview

/-! ## Authorization -/

section

variable (rt : TokenRuntime) (t : TokenTables) (p : TokenPrincipal)

def exactCommandCeiling (value : Option (List String)) : Except TokenError (List String) := do
  let entries ← expect (validation "commandCeiling is required") value
  require (∀ entry ∈ entries, rt.trim entry ≠ "")
    (validation "commandCeiling must be an array of exact command names")
  let normalized := sortedUniqueStrings (entries.map rt.trim)
  require (∀ entry ∈ normalized, isHumanGrantableCommandCapability entry ∧ entry ≠ "MANAGE_ROOM_CATALOG")
    (validation "commandCeiling contains a non-grantable command")
  pure normalized

def requiredConstraintString (value field : String) : Except TokenError String := do
  require (rt.trim value ≠ "") (validation (field ++ " is required"))
  pure (rt.trim value)

def requiredAccessLevel (value : String) : Except TokenError AccessLevel := do
  let level ← requiredConstraintString rt value "accessCeiling"
  if level = "READ" then pure .read
  else do
    require (level = "WRITE") (validation "accessCeiling must be READ or WRITE")
    pure .write

def timestampMillis (value : String) : Except TokenError Int :=
  expect (validation "expiresAt must be an RFC 3339 date-time") (rt.dateParse value)

/-- `currentlyEnabledSubjectGrants` -/
def enabledGrants (grants : List String) : List String :=
  grants.filter fun c => isHumanGrantableCommandCapability c && commandFeatureEnabled c

def effectiveCallerCommandGrants (subjectCommandGrants tokenCommandCeiling : List String) : List String :=
  (enabledGrants subjectCommandGrants).filter tokenCommandCeiling.contains

/-- The caller's token, neither revoked nor expired. -/
def lockCredentialSnapshot : Except TokenError ApiToken := do
  let token ← expect (denialWith .authenticationRequired "TOKEN_INVALID" "Bearer token is invalid")
    (t.tokens p.credentialId)
  require (token.subjectId = p.subjectId)
    (denialWith .authenticationRequired "TOKEN_INVALID" "Bearer token is invalid")
  require (token.revokedAt = none) (denialWith .tokenRevoked "TOKEN_REVOKED" "Bearer token has been revoked")
  require (t.now < token.expiresAtMs) (denialWith .tokenExpired "TOKEN_EXPIRED" "Bearer token has expired")
  pure token

def resourceNotFound (reason : String) : TokenError := denialWith .notFound reason "Resource not found"

def lockedTokenTargetSubjectState (targetSubjectId : Nat) : Except TokenError (Subject × AccessLevel) := do
  let subject ← expect (resourceNotFound "SUBJECT_SCOPE_MISSING") (t.subjects targetSubjectId)
  let access ← expect (resourceNotFound "SUBJECT_SCOPE_MISSING") (t.propertyGrants targetSubjectId)
  require (subject.status = .active)
    (denialWith .subjectDisabled "TOKEN_TARGET_SUBJECT_DISABLED" "Subject is disabled")
  pure (subject, access)

/-- The ceiling a token may be given: within the target's grants and within the caller's scope. -/
def denyIfCommandCeilingExceeds (requested targetGrants callerCommands : List String) : Except TokenError Unit := do
  require (∀ c ∈ requested, c ∈ targetGrants) (denial "TOKEN_TARGET_COMMAND_CEILING_EXCEEDED"
    "Token command ceiling cannot exceed the target subject's exact command grants")
  require (∀ c ∈ requested, c ∈ callerCommands) (denial "TOKEN_COMMAND_CEILING_ESCALATION"
    "Token command ceiling cannot exceed the caller's current command scope")

def expiryCeilingExceeded : TokenError :=
  denial "TOKEN_EXPIRY_CEILING_EXCEEDED" "A Token cannot issue or rotate a Token beyond its own expiry"

def targetAccessExceeded : TokenError := denial "TOKEN_TARGET_ACCESS_CEILING_EXCEEDED"
  "Token access ceiling cannot exceed the target subject's property access"

def tokenNotFound : TokenError := denialWith .notFound "SUBJECT_SCOPE_MISSING" "Token not found"

def assertResolvedTokenLifecycleConstraint (caller : ApiToken) (constraint : TokenCommand) :
    Except TokenError Unit := do
  let callerCommands := effectiveCallerCommandGrants (t.commandGrants p.subjectId) (t.ceilings p.credentialId)
  match constraint with
  | .issue subjectId _ accessCeiling commandCeiling expiresAt _ =>
    let requestedAccess ← requiredAccessLevel rt accessCeiling
    let requested ← exactCommandCeiling rt commandCeiling
    let requestedExpiresAt ← requiredConstraintString rt expiresAt "expiresAt"
    let target ← lockedTokenTargetSubjectState t subjectId
    require (accessAllows target.2 requestedAccess) targetAccessExceeded
    require (requestedAccess = .read → requested = []) (validation "READ tokens cannot carry command ceilings")
    denyIfCommandCeilingExceeds requested (t.commandGrants subjectId) callerCommands
    let instant ← timestampMillis rt requestedExpiresAt
    require (instant ≤ caller.expiresAtMs) expiryCeilingExceeded
  | .rotate tokenId commandCeiling expiresAt _ =>
    let token ← expect tokenNotFound (t.tokens tokenId)
    let target ← lockedTokenTargetSubjectState t token.subjectId
    require (accessAllows target.2 token.accessCeiling) targetAccessExceeded
    require (token.revokedAt = none) (denial "TOKEN_TARGET_REVOKED" "Token is already revoked")
    require (t.now < token.expiresAtMs) (denial "TOKEN_TARGET_EXPIRED" "Token has expired")
    let requested ← exactCommandCeiling rt commandCeiling
    denyIfCommandCeilingExceeds requested (t.commandGrants token.subjectId) callerCommands
    match expiresAt with
    | none => require (token.expiresAtMs ≤ caller.expiresAtMs) expiryCeilingExceeded
    | some text => do
      let requestedExpiresAt ← requiredConstraintString rt text "expiresAt"
      let instant ← timestampMillis rt requestedExpiresAt
      require (instant ≤ caller.expiresAtMs) expiryCeilingExceeded
  | .revoke tokenId => do
    let token ← expect tokenNotFound (t.tokens tokenId)
    let _ ← lockedTokenTargetSubjectState t token.subjectId

/-- The caller may execute the command now: its subject, its property access and its token. -/
def authorizeCaller (commandType : CommandType) : Except TokenError ApiToken := do
  require (commandType ≠ .manageRoomCatalog) (denial "ADMIN_SESSION_REQUIRED" "仅管理员登录后可维护房型与价格")
  let subject ← expect (denialWith .authenticationRequired "SUBJECT_MISSING" "Subject is unavailable")
    (t.subjects p.subjectId)
  let access ← expect (resourceNotFound "PROPERTY_SCOPE_MISSING") (t.propertyGrants p.subjectId)
  let token ← lockCredentialSnapshot t p
  let propertyAccess := if access = .read ∨ token.accessCeiling = .read then AccessLevel.read else .write
  match evaluateCommandAuthorization commandType.text subject.status propertyAccess (t.commandGrants p.subjectId)
      (t.ceilings p.credentialId) with
  | some reason => .error reason.error
  | none => pure token

/-- `authorizeCommandAccess` with mode EXECUTE; the preflight of the lifecycle commands makes the
checks of `authorizeCaller` on the same rows. -/
def authorizeCommandAccess (commandType : CommandType) (constraint : Option TokenCommand) :
    Except TokenError Unit := do
  let caller ← authorizeCaller t p commandType
  match constraint with
  | none => pure ()
  | some constraint => assertResolvedTokenLifecycleConstraint rt t p caller constraint

end

theorem evaluateCommandAuthorization_eq_none {command : String} {status : SubjectStatus} {access : AccessLevel}
    {grants ceiling : List String} (h : evaluateCommandAuthorization command status access grants ceiling = none) :
    command ∈ grants ∧ command ∈ ceiling := by
  unfold evaluateCommandAuthorization at h
  split at h
  · cases h
  · split at h
    · cases h
    · split at h
      · cases h
      · next hGrant =>
        split at h
        · cases h
        · next hCeiling => exact ⟨by simp_all, by simp_all⟩

/-- An accepted authorization has the command in the caller's grants and in its token's ceiling. -/
theorem authorizeCaller_eq_ok {t : TokenTables} {p : TokenPrincipal} {commandType : CommandType} {token : ApiToken}
    (h : authorizeCaller t p commandType = .ok token) : t.tokens p.credentialId = some token ∧
      token.subjectId = p.subjectId ∧ commandType.text ∈ t.commandGrants p.subjectId ∧
      commandType.text ∈ t.ceilings p.credentialId := by
  simp only [authorizeCaller, lockCredentialSnapshot, bind_eq_ok, require_eq_ok, expect_eq_ok, pure_eq_ok] at h
  obtain ⟨-, -, subject, -, access, -, _, ⟨_, hToken, -, hSubject, -, -, -, -, rfl⟩, h⟩ := h
  split at h
  · cases h
  · next hAllowed =>
    obtain rfl := pure_eq_ok.mp h
    obtain ⟨hGrant, hCeiling⟩ := evaluateCommandAuthorization_eq_none hAllowed
    exact ⟨hToken, hSubject, hGrant, hCeiling⟩

end GreenPms
