import GreenPms.Foundation.Json

/-! # Command vocabulary: command types, error codes and thrown errors

The rebuild of a Preview at confirmation treats a fixed set of command and error pairs as a
stale Preview; `rebuildErrorIsStale` is that set.
-/

namespace GreenPms

inductive CommandType where
  | manageRoomCatalog | createMember | createMembershipOrder | recordMembershipPayment
  | correctMembershipPayment | activateMembershipOrder | cancelMembershipOrder | createOrder
  | correctOrderOccupant | manageOrderOccupants | correctHistoricalStayArrangements
  | correctMemberProfile | correctMembershipEffectiveDate | backfillHistoricalMembership
  | voidErroneousMembershipAndReconvertStay | rescheduleStay | extendStay | shortenStay | moveUnit
  | repriceOrder | cancelOrder | markNoShow | revokeCheckIn | lockMaintenance | releaseMaintenance
  | completeCleaning | recordCollection | recordRefund | reverseFact | retainOrderFunds
  | applyRetainedFunds | releaseRetainedFunds | refundRetainedFunds
  | convertStayCollectionsToMembership | checkIn | checkOut | revokeCheckOut | completeStay
  | refreshMemberCoverage | addMemberEntitlementLot | adjustMemberEntitlement
  | correctMemberEntitlementBalance | expireMemberEntitlement | issueToken | rotateToken | revokeToken
  deriving DecidableEq, Repr

def CommandType.text : CommandType → String
  | .manageRoomCatalog => "MANAGE_ROOM_CATALOG"
  | .createMember => "CREATE_MEMBER"
  | .createMembershipOrder => "CREATE_MEMBERSHIP_ORDER"
  | .recordMembershipPayment => "RECORD_MEMBERSHIP_PAYMENT"
  | .correctMembershipPayment => "CORRECT_MEMBERSHIP_PAYMENT"
  | .activateMembershipOrder => "ACTIVATE_MEMBERSHIP_ORDER"
  | .cancelMembershipOrder => "CANCEL_MEMBERSHIP_ORDER"
  | .createOrder => "CREATE_ORDER"
  | .correctOrderOccupant => "CORRECT_ORDER_OCCUPANT"
  | .manageOrderOccupants => "MANAGE_ORDER_OCCUPANTS"
  | .correctHistoricalStayArrangements => "CORRECT_HISTORICAL_STAY_ARRANGEMENTS"
  | .correctMemberProfile => "CORRECT_MEMBER_PROFILE"
  | .correctMembershipEffectiveDate => "CORRECT_MEMBERSHIP_EFFECTIVE_DATE"
  | .backfillHistoricalMembership => "BACKFILL_HISTORICAL_MEMBERSHIP"
  | .voidErroneousMembershipAndReconvertStay => "VOID_ERRONEOUS_MEMBERSHIP_AND_RECONVERT_STAY"
  | .rescheduleStay => "RESCHEDULE_STAY"
  | .extendStay => "EXTEND_STAY"
  | .shortenStay => "SHORTEN_STAY"
  | .moveUnit => "MOVE_UNIT"
  | .repriceOrder => "REPRICE_ORDER"
  | .cancelOrder => "CANCEL_ORDER"
  | .markNoShow => "MARK_NO_SHOW"
  | .revokeCheckIn => "REVOKE_CHECK_IN"
  | .lockMaintenance => "LOCK_MAINTENANCE"
  | .releaseMaintenance => "RELEASE_MAINTENANCE"
  | .completeCleaning => "COMPLETE_CLEANING"
  | .recordCollection => "RECORD_COLLECTION"
  | .recordRefund => "RECORD_REFUND"
  | .reverseFact => "REVERSE_FACT"
  | .retainOrderFunds => "RETAIN_ORDER_FUNDS"
  | .applyRetainedFunds => "APPLY_RETAINED_FUNDS"
  | .releaseRetainedFunds => "RELEASE_RETAINED_FUNDS"
  | .refundRetainedFunds => "REFUND_RETAINED_FUNDS"
  | .convertStayCollectionsToMembership => "CONVERT_STAY_COLLECTIONS_TO_MEMBERSHIP"
  | .checkIn => "CHECK_IN"
  | .checkOut => "CHECK_OUT"
  | .revokeCheckOut => "REVOKE_CHECK_OUT"
  | .completeStay => "COMPLETE_STAY"
  | .refreshMemberCoverage => "REFRESH_MEMBER_COVERAGE"
  | .addMemberEntitlementLot => "ADD_MEMBER_ENTITLEMENT_LOT"
  | .adjustMemberEntitlement => "ADJUST_MEMBER_ENTITLEMENT"
  | .correctMemberEntitlementBalance => "CORRECT_MEMBER_ENTITLEMENT_BALANCE"
  | .expireMemberEntitlement => "EXPIRE_MEMBER_ENTITLEMENT"
  | .issueToken => "ISSUE_TOKEN"
  | .rotateToken => "ROTATE_TOKEN"
  | .revokeToken => "REVOKE_TOKEN"

inductive ErrorCode where
  | cursorExpired | authenticationRequired | invalidCredentials | tokenExpired | tokenRevoked
  | subjectDisabled | insufficientAccess | resourceScopeDenied | idempotencyKeyRequired
  | correlationIdRequired | idempotencyKeyReused | previewRequired | previewNotFound | previewStale
  | previewAlreadyUsed | confirmationRequired | confirmationMismatch | reasonRequired
  | aggregateVersionConflict | inventoryConflict | entitlementConflict | invalidOrderState
  | crossOrderFactReference | factAlreadyReversed | refundLimitExceeded | pricingPolicyUnconfigured
  | policyVersionNotFound | quoteExpired | validationError | notFound | commandStatusUnknown
  | commandInterrupted | rateLimited | serviceNotReady | internalError
  deriving DecidableEq, Repr

/-- `errorCauseCodes`: the error codes and the code of an expired Preview. -/
inductive ErrorCauseCode where
  | code (code : ErrorCode)
  | previewExpired
  deriving DecidableEq, Repr

structure DomainError where
  code : ErrorCode
  message : String
  retryable : Bool
  causeCode : Option ErrorCauseCode
  deriving DecidableEq, Repr

def domainError (code : ErrorCode) (message : String) : DomainError := ⟨code, message, false, none⟩

/-- What a command may throw: the subclasses of `DomainError` that confirmation tells apart,
any other domain error, and an error that is not a domain error, of the database or not. -/
inductive Thrown where
  | authorization (code : ErrorCode)
  | identityMismatch
  | historicalPreviewReadOnly
  | domain (error : DomainError)
  | sqlFailure (sqlState : String)
  | failure
  deriving DecidableEq, Repr

def identityMismatchError : DomainError :=
  domainError .confirmationMismatch "Confirmed property or command type does not match the preview"

def historicalPreviewReadOnlyError : DomainError :=
  domainError .previewStale "Historical previews are read-only; request a new preview"

def previewNotFoundError : DomainError := domainError .previewNotFound "Preview not found"

def statusUnknownError (message : String) : DomainError := ⟨.commandStatusUnknown, message, true, none⟩

def previewExpiredError : DomainError :=
  ⟨.previewStale, "Preview has expired; request a new preview", false, some .previewExpired⟩

def previewBasisChangedError (causeCode : Option ErrorCauseCode) : DomainError :=
  ⟨.previewStale, "Preview basis changed; request a new preview", false, causeCode⟩

def isTokenLifecycleCommand (c : CommandType) : Bool :=
  c == .issueToken || c == .rotateToken || c == .revokeToken

def isMemberCorrectionCommandType (c : CommandType) : Bool :=
  c == .correctMemberProfile || c == .correctMembershipEffectiveDate ||
    c == .backfillHistoricalMembership || c == .voidErroneousMembershipAndReconvertStay

def staleRebuildCodes : List ErrorCode :=
  [.inventoryConflict, .entitlementConflict, .aggregateVersionConflict, .invalidOrderState,
    .quoteExpired, .factAlreadyReversed, .refundLimitExceeded]

/-- The commands for which a validation error of the rebuild means a stale Preview. -/
def staleOnValidationError (c : CommandType) : Bool :=
  isTokenLifecycleCommand c || c == .createOrder || c == .rescheduleStay || c == .extendStay ||
    c == .shortenStay || c == .moveUnit || c == .manageOrderOccupants || c == .manageRoomCatalog ||
    c == .completeStay || c == .convertStayCollectionsToMembership ||
    c == .correctHistoricalStayArrangements || isMemberCorrectionCommandType c || c == .createMember

def staleOnNotFound (c : CommandType) : Bool := c == .manageOrderOccupants || c == .manageRoomCatalog

def rebuildErrorIsStale (c : CommandType) (code : ErrorCode) : Bool :=
  staleRebuildCodes.contains code || (code == .validationError && staleOnValidationError c) ||
    (code == .notFound && staleOnNotFound c)

/-- The code of a thrown error that is a `DomainError`. -/
def Thrown.code? : Thrown → Option ErrorCode
  | .authorization code => some code
  | .identityMismatch => some identityMismatchError.code
  | .historicalPreviewReadOnly => some historicalPreviewReadOnlyError.code
  | .domain error => some error.code
  | .sqlFailure _ | .failure => none

/-- The error a confirmation throws when rebuilding the effect threw `t`. -/
def rebuildThrown (c : CommandType) (t : Thrown) : Thrown :=
  match t.code? with
  | some code =>
      if rebuildErrorIsStale c code then .domain (previewBasisChangedError (some (.code code))) else t
  | none => t

end GreenPms
