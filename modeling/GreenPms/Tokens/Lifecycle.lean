import Mathlib.Logic.Function.Basic
import GreenPms.Library.Transition
import GreenPms.Tokens.Authorization

/-! # Issuing, rotating and revoking API tokens

A preview stores the input and the effect that was built of it. A confirmation authorizes the
caller anew, checks the stored effect, rebuilds it on the rows of its own transaction, checks it
again and writes; the deferred guard of the runtime role runs at the commit.
-/

namespace GreenPms

open Checked TransitionSystem

/-! ## The effect -/

section

variable (rt : TokenRuntime) (t : TokenTables) (p : TokenPrincipal)

/-- `requireFutureDateTime`: the text itself, checked. -/
def requireFutureDateTime (value : String) : Except TokenError String := do
  require (rt.trim value ≠ "") (validation "expiresAt is required")
  let text := rt.trim value
  require (rt.strictDateTime text = true) (validation "expiresAt must be an RFC 3339 date-time")
  let instant ← timestampMillis rt text
  require (t.now < instant) (validation "expiresAt must be in the future")
  pure text

/-- The ceiling as the effect reads it: `MANAGE_ROOM_CATALOG` is not refused here. -/
def requireCommandCeiling (value : Option (List String)) : Except TokenError (List String) := do
  let entries ← expect (validation "commandCeiling is required") value
  require (∀ entry ∈ entries, rt.trim entry ≠ "")
    (validation "commandCeiling must be an array of exact command names")
  let normalized := sortedUniqueStrings (entries.map rt.trim)
  require (∀ entry ∈ normalized, isHumanGrantableCommandCapability entry)
    (validation "commandCeiling contains a non-grantable command")
  pure normalized

def executableCommandCeilingFromGrants (grants : List String) : List String :=
  sortedUniqueStrings (grants.filter fun c =>
    t.commandCatalog c = .humanCommand && isHumanGrantableCommandCapability c && commandFeatureEnabled c)

def resolveTokenCommandCeiling (requested targetGrants : List String) (accessCeiling : AccessLevel) :
    Except TokenError (List String) :=
  match accessCeiling with
  | .read => do
    require (requested = []) (validation "READ tokens cannot carry command ceilings")
    pure []
  | .write => do
    let ceiling := sortedUniqueStrings requested
    require (∀ c ∈ ceiling, c ∈ executableCommandCeilingFromGrants t targetGrants)
      ⟨.insufficientAccess, "Token command ceiling cannot exceed the target subject's exact command grants", none⟩
    pure ceiling

def persistedTokenCommandCeiling (accessCeiling : AccessLevel) (commandCeiling : List String) : List String :=
  match accessCeiling with
  | .read => []
  | .write => commandCeiling

def commandGrantBasis (grants : List String) : List (String × CommandClass × Bool) :=
  grants.map fun c => (c, t.commandCatalog c, commandFeatureEnabled c)

/-- The expiry of a rotated token: the one asked for, or that of the token it replaces. -/
def rotatedExpiresAt (token : ApiToken) (requested : Option String) : Except TokenError String :=
  match requested with
  | none => pure (rt.toISOString token.expiresAtMs)
  | some text =>
    if rt.trim text = "" then pure (rt.toISOString token.expiresAtMs) else requireFutureDateTime rt t text

def tokenSubject (subjectId : Nat) (missing : String) : Except TokenError (Subject × AccessLevel) := do
  let subject ← expect ⟨.notFound, missing, none⟩ (t.subjects subjectId)
  let access ← expect ⟨.notFound, missing, none⟩ (t.propertyGrants subjectId)
  require (subject.status = .active)
    ⟨.subjectDisabled, "Subject is not active for this property", none⟩
  pure (subject, access)

def buildTokenEffect (input : TokenCommand) : Except TokenError (TokenEffect × TokenBasis) :=
  match input with
  | .issue subjectId label accessCeiling commandCeiling expiresAt tokenSecretHash => do
    require (rt.trim label ≠ "") (validation "label is required")
    let access ← requiredAccessLevel rt accessCeiling
    let expiresAt ← requireFutureDateTime rt t expiresAt
    let requested ← requireCommandCeiling rt commandCeiling
    let subject ← tokenSubject t subjectId "Subject not found"
    require (accessAllows subject.2 access) ⟨.insufficientAccess, "Token cannot exceed subject READ access", none⟩
    let commandCeiling ← resolveTokenCommandCeiling t requested (t.commandGrants subjectId) access
    let persisted := persistedTokenCommandCeiling access commandCeiling
    pure (⟨none, subjectId, subject.1.displayName, rt.trim label, access, commandCeiling, persisted, [], [], none,
        expiresAt⟩,
      ⟨none, none, subject.1.authVersion, none, [], [], persisted, some subject.2,
        commandGrantBasis t (t.commandGrants subjectId), some tokenSecretHash⟩)
  | .rotate tokenId commandCeiling requestedExpiresAt tokenSecretHash => do
    let token ← expect ⟨.notFound, "Token not found", none⟩ (t.tokens tokenId)
    let subject ← tokenSubject t token.subjectId "Token not found"
    require (accessAllows subject.2 token.accessCeiling) ⟨.insufficientAccess, "Token exceeds subject READ access", none⟩
    require (token.revokedAt = none) ⟨.aggregateVersionConflict, "Token is already revoked", none⟩
    let expiresAt ← rotatedExpiresAt rt t token requestedExpiresAt
    let instant ← timestampMillis rt expiresAt
    require (t.now < instant) (validation "Rotated token expiry must be in the future")
    let previousPersisted := sortedUniqueStrings (t.ceilings tokenId)
    let previous := executableCommandCeilingFromGrants t (t.ceilings tokenId)
    let requested ← requireCommandCeiling rt commandCeiling
    let ceiling ← resolveTokenCommandCeiling t requested (t.commandGrants token.subjectId) token.accessCeiling
    let persisted := persistedTokenCommandCeiling token.accessCeiling ceiling
    let previousExpiresAt := some (rt.toISOString token.expiresAtMs)
    pure (⟨some tokenId, token.subjectId, subject.1.displayName, token.label, token.accessCeiling, ceiling, persisted,
        previous, previousPersisted, previousExpiresAt, expiresAt⟩,
      ⟨token.revokedAt, token.replacedById, subject.1.authVersion, previousExpiresAt, previous, previousPersisted,
        persisted, some subject.2, commandGrantBasis t (t.commandGrants token.subjectId), some tokenSecretHash⟩)
  | .revoke tokenId => do
    let token ← expect ⟨.notFound, "Token not found", none⟩ (t.tokens tokenId)
    let subject ← tokenSubject t token.subjectId "Token not found"
    require (token.revokedAt = none) ⟨.aggregateVersionConflict, "Token is already revoked", none⟩
    let previousPersisted := sortedUniqueStrings (t.ceilings tokenId)
    let previous := executableCommandCeilingFromGrants t (t.ceilings tokenId)
    let expiresAt := rt.toISOString token.expiresAtMs
    pure (⟨some tokenId, token.subjectId, subject.1.displayName, token.label, token.accessCeiling, previous,
        previousPersisted, [], [], none, expiresAt⟩,
      ⟨token.revokedAt, token.replacedById, subject.1.authVersion, some expiresAt, previous, previousPersisted,
        previousPersisted, none, [], none⟩)

/-! ## The two ceilings of an effect -/

def createsToken : TokenCommand → Bool
  | .revoke _ => false
  | _ => true

def assertTokenExpiryCeiling (input : TokenCommand) (effect : TokenEffect) : Except TokenError Unit := do
  if createsToken input then do
    let caller ← expect (denialWith .authenticationRequired "TOKEN_INVALID" "Bearer token is invalid")
      (t.tokens p.credentialId)
    require (caller.subjectId = p.subjectId)
      (denialWith .authenticationRequired "TOKEN_INVALID" "Bearer token is invalid")
    let instant ← timestampMillis rt effect.expiresAt
    require (instant ≤ caller.expiresAtMs) expiryCeilingExceeded
  else pure ()

/-- `effectiveSubjectCommandGrants` of a token. -/
def effectiveSubjectCommandGrants : List String :=
  (enabledGrants (t.commandGrants p.subjectId)).filter fun c =>
    c ≠ "MANAGE_ROOM_CATALOG" && (t.ceilings p.credentialId).contains c

def assertTokenCommandCeiling (input : TokenCommand) (effect : TokenEffect) : Except TokenError Unit := do
  if createsToken input then
    require (effect.persistedCommandCeiling.length = effect.commandCeiling.length ∧
        (∀ c ∈ effect.persistedCommandCeiling, c ∈ effect.commandCeiling) ∧
        ∀ c ∈ effect.persistedCommandCeiling, c ∈ effectiveSubjectCommandGrants t p)
      (denial "TOKEN_COMMAND_CEILING_ESCALATION" ("Persisted Token command ceiling must equal the explicit ceiling " ++
        "and remain within the caller's current command scope"))
  else pure ()

/-! ## Preview and confirmation -/

variable (effectHash : TokenEffect → TokenBasis → String)

def createTokenPreview (input : TokenCommand) (previewId : Nat) (ttl : Int) : Except TokenError TokenTables := do
  authorizeCommandAccess rt t p input.commandType (some input)
  let (effect, basis) ← buildTokenEffect rt t input
  assertTokenExpiryCeiling rt t p input effect
  assertTokenCommandCeiling t p input effect
  require (t.previews previewId = none) ⟨.internalError, "duplicate key", none⟩
  pure { t with
    previews := Function.update t.previews previewId
      (some ⟨p.subjectId, input, effect, effectHash effect basis, t.now + ttl, .opened⟩) }

def insertToken (tokenId : Nat) (token : ApiToken) (ceiling : List String) : TokenTables :=
  { t with
    tokens := Function.update t.tokens tokenId (some token)
    ceilings := Function.update t.ceilings tokenId ceiling }

def updateToken (tokenId : Nat) (f : ApiToken → ApiToken) : TokenTables :=
  { t with tokens := fun id => if id = tokenId then (t.tokens id).map f else t.tokens id }

def applyTokenCommand (input : TokenCommand) (effect : TokenEffect) (newId : Nat) : Except TokenError TokenTables := do
  match input with
  | .issue _ _ _ _ _ secretHash => do
    require (t.tokens newId = none) ⟨.internalError, "duplicate key", none⟩
    pure (insertToken t newId ⟨effect.subjectId, effect.label, secretHash, effect.accessCeiling,
      rt.timestamptz effect.expiresAt, none, none, none⟩ effect.persistedCommandCeiling)
  | .rotate tokenId _ _ secretHash => do
    require (t.tokens newId = none) ⟨.internalError, "duplicate key", none⟩
    pure (updateToken (insertToken t newId ⟨effect.subjectId, effect.label, secretHash, effect.accessCeiling,
      rt.timestamptz effect.expiresAt, none, some tokenId, none⟩ effect.persistedCommandCeiling) tokenId fun x =>
        { x with revokedAt := some t.now, replacedById := some newId })
  | .revoke tokenId => pure (updateToken t tokenId fun x => { x with revokedAt := some t.now })

/-- `qintopia_guard_runtime_token_mutation` on the caller's token; what it asks of staff profiles
only refuses more. -/
def runtimeTokenMutationGuard (caller : ApiToken) (input : TokenCommand) (effect : TokenEffect) :
    Except TokenError Unit :=
  if createsToken input then
    require (caller.accessCeiling = .write ∧ rt.timestamptz effect.expiresAt ≤ caller.expiresAt ∧
      ∀ c ∈ effect.commandCeiling, c ∈ t.ceilings p.credentialId)
      ⟨.internalError, "runtime Token mutations require same-transaction typed command evidence", none⟩
  else pure ()

/-- The transaction of an accepted confirmation; `newId` is the id of the token it may create. -/
def confirmTokenCommand (previewId newId : Nat) : Except TokenError (TokenCommand × TokenTables) := do
  let preview ← expect ⟨.previewNotFound, "Preview not found", none⟩ (t.previews previewId)
  require (preview.subjectId = p.subjectId) ⟨.previewNotFound, "Preview not found", none⟩
  let input := preview.input
  authorizeCommandAccess rt t p input.commandType (some input)
  assertTokenExpiryCeiling rt t p input preview.effect
  assertTokenCommandCeiling t p input preview.effect
  require (preview.state = .opened) ⟨.previewAlreadyUsed, "Preview has already been used", none⟩
  require (t.now < preview.expiresAt) ⟨.previewStale, "Preview has expired; request a new preview", none⟩
  let (effect, basis) ← buildTokenEffect rt t input
  assertTokenExpiryCeiling rt t p input effect
  assertTokenCommandCeiling t p input effect
  require (effectHash effect basis = preview.effectHash)
    ⟨.previewStale, "Preview basis changed; request a new preview", none⟩
  let written ← applyTokenCommand rt t input effect newId
  let caller ← expect (denialWith .authenticationRequired "TOKEN_INVALID" "Bearer token is invalid")
    (t.tokens p.credentialId)
  runtimeTokenMutationGuard rt t p caller input effect
  pure (input, { written with
    previews := Function.update t.previews previewId (some { preview with state := .used }) })

end

/-! ## Runs -/

inductive TokenEvent where
  | previewed (caller : Nat)
  | confirmed (caller : Nat) (input : TokenCommand) (newId : Nat)
  | grantsChanged
  | ticked

/-- The token an accepted confirmation creates, with the token of its caller. -/
def TokenEvent.creation : TokenEvent → Option (Nat × Nat)
  | .confirmed caller input newId => if createsToken input then some (caller, newId) else none
  | _ => none

/-- New grants and access of the subjects. Both foreign keys cascade: without access a subject has
no grants, and a ceiling keeps only what its own subject is still granted. -/
def changeGrants (t : TokenTables) (subjects : Nat → Option Subject) (access : Nat → Option AccessLevel)
    (grants : Nat → List String) (catalog : String → CommandClass) : TokenTables :=
  let kept := fun id => if (access id).isSome then grants id else []
  { t with
    subjects := subjects
    propertyGrants := access
    commandGrants := kept
    commandCatalog := catalog
    ceilings := fun id => match t.tokens id with
      | some x => (t.ceilings id).filter (kept x.subjectId).contains
      | none => t.ceilings id }

inductive TokenStep (rt : TokenRuntime) (effectHash : TokenEffect → TokenBasis → String) :
    TokenTables → TokenEvent → TokenTables → Prop
  | previewed {t t' : TokenTables} (p : TokenPrincipal) (input : TokenCommand) (previewId : Nat) (ttl : Int)
      (hPreview : createTokenPreview rt t p effectHash input previewId ttl = .ok t') :
      TokenStep rt effectHash t (.previewed p.credentialId) t'
  | confirmed {t t' : TokenTables} {input : TokenCommand} (p : TokenPrincipal) (previewId newId : Nat)
      (hConfirm : confirmTokenCommand rt t p effectHash previewId newId = .ok (input, t')) :
      TokenStep rt effectHash t (.confirmed p.credentialId input newId) t'
  | grantsChanged {t : TokenTables} (subjects : Nat → Option Subject) (access : Nat → Option AccessLevel)
      (grants : Nat → List String) (catalog : String → CommandClass) :
      TokenStep rt effectHash t .grantsChanged (changeGrants t subjects access grants catalog)
  | ticked {t : TokenTables} (later : Int) (hLater : t.now ≤ later) :
      TokenStep rt effectHash t .ticked { t with now := later }

def tokenSystem (rt : TokenRuntime) (effectHash : TokenEffect → TokenBasis → String) :
    System TokenTables TokenEvent where
  init _ := True
  step := TokenStep rt effectHash

end GreenPms
