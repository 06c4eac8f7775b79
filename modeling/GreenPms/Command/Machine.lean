import GreenPms.Command.Confirm

/-! # The step relation of the command protocol

`Advance` moves one call between two of its statements without committing anything, a commit
writes the whole write set of its phase, and the environment may drop an advisory lock or let
time pass at any moment. A call whose transaction fails only changes its phase. The insert is
enabled when no committed row and no transaction in flight holds the key, which is how the
unique index makes an `ON CONFLICT DO NOTHING` wait; `SELECT ... FOR UPDATE` is enabled when no
other transaction in flight holds the row.
-/

namespace GreenPms

inductive Phase (δ : Type) where
  | idle
  | finished (call : Call) (response : Response)
  | previewStart (q : PreviewCall)
  | previewLocked (q : PreviewCall)
  | previewBuilt (q : PreviewCall) (input : Json) (built : BuiltEffect)
  | previewInserted (q : PreviewCall) (commandId : Nat) (p : Preview)
  | quoteStart (q : QuoteCall)
  | quoteLocked (q : QuoteCall)
  | quoteInserted (q : QuoteCall) (commandId : Nat) (delta : δ)
  | confirmStart (c : ConfirmCall)
  | confirmIdentified (c : ConfirmCall) (key : CommandKey) (command : CommandType)
  | confirmLocked (c : ConfirmCall) (key : CommandKey) (command : CommandType)
  | confirmChecked (c : ConfirmCall) (key : CommandKey) (command : CommandType)
  | confirmInserted (c : ConfirmCall) (key : CommandKey) (command : CommandType) (commandId : Nat)
  | confirmGated (c : ConfirmCall) (key : CommandKey) (command : CommandType) (commandId : Nat)
      (p : Preview)
  | confirmApplied (c : ConfirmCall) (key : CommandKey) (command : CommandType) (commandId : Nat)
      (p : Preview) (rebuilt : BuiltEffect) (delta : δ)
  | confirmFailed (c : ConfirmCall) (key : CommandKey) (command : CommandType) (t : Thrown)
  | rejecting (c : ConfirmCall) (key : CommandKey) (t : Thrown)
  | rejectClosed (c : ConfirmCall) (key : CommandKey) (t : Thrown) (closed : Bool)
  | rejectInserted (c : ConfirmCall) (key : CommandKey) (t : Thrown) (closed : Bool)
      (commandId : Nat)
  | resolveStart (q : ResolveCall)
  | resolveLocked (q : ResolveCall)
  | resolveMissing (q : ResolveCall)
  | resolveInserted (q : ResolveCall) (commandId : Nat)

def executedReceipt (commandId : Nat) : Receipt := ⟨commandId, .executed, true, none⟩

def rejectedReceipt (commandId : Nat) (e : DomainError) : Receipt :=
  ⟨commandId, .notExecuted, false, some e⟩

def fenceError : DomainError :=
  domainError .commandInterrupted
    "The original request was not executed and its idempotency key is now closed"

/-- The request hash of the row that closes a key, of a protocol tag no request carries. -/
def fenceHash (rt : JsRuntime) (q : ResolveCall) : String :=
  Json.stableHash rt (.obj [("protocol", .str "COMMAND_RESULT_RESOLUTION_FENCE_V1"),
    ("subjectId", .str q.subjectId), ("propertyId", .str q.propertyId),
    ("commandType", .str (match q.commandType with
      | .preview c => "PREVIEW:" ++ c.text
      | .command c => c.text
      | .createQuote => "CREATE_QUOTE"
      | .historical name => name)),
    ("idempotencyKey", .str q.idempotencyKey)])

def PreviewCall.key (q : PreviewCall) (propertyId : String) : CommandKey :=
  ⟨q.subjectId, propertyId, .preview q.commandType, q.idempotencyKey⟩

def ConfirmCall.key (c : ConfirmCall) (p : Preview) : CommandKey :=
  ⟨c.subjectId, p.propertyId, .command p.commandType, c.idempotencyKey⟩

section

variable {β δ : Type} (env : Environment β δ)

def Phase.writes : Phase δ → WriteSet δ
  | .previewInserted q commandId p =>
      { execution := some ⟨commandId, q.key p.propertyId, q.requestHash env.runtime, .applied⟩
        receipt := some (executedReceipt commandId)
        newPreview := some p
        effect := some ⟨commandId, .created p.id, none⟩ }
  | .quoteInserted q commandId delta =>
      { execution := some ⟨commandId, q.key, q.requestHash env.runtime, .applied⟩
        receipt := some (executedReceipt commandId)
        effect := some ⟨commandId, .quoted, some delta⟩ }
  | .confirmInserted c key _ commandId =>
      { execution := some ⟨commandId, key, c.requestHash env.runtime, .executing⟩ }
  | .confirmGated c key _ commandId _ =>
      { execution := some ⟨commandId, key, c.requestHash env.runtime, .executing⟩ }
  | .confirmApplied c key _ commandId p _ delta =>
      { execution := some ⟨commandId, key, c.requestHash env.runtime, .applied⟩
        receipt := some (executedReceipt commandId)
        previewStatus := some (p.id, .used)
        effect := some ⟨commandId, .confirmed p.id, some delta⟩ }
  | .rejectClosed c _ _ closed =>
      { previewStatus := if closed then some (c.previewId, .expired) else none }
  | .rejectInserted c key t closed commandId =>
      { execution := some ⟨commandId, key, c.requestHash env.runtime, .rejected⟩
        receipt := some (rejectedReceipt commandId (rejectionError t))
        previewStatus := if closed then some (c.previewId, .expired) else none }
  | .resolveInserted q commandId =>
      { execution := some ⟨commandId, q.key, fenceHash env.runtime q, .rejected⟩
        receipt := some (rejectedReceipt commandId fenceError) }
  | _ => {}

def Phase.rowLock : Phase δ → Option Nat
  | .confirmGated c _ _ _ _ => some c.previewId
  | .confirmApplied c _ _ _ _ _ _ => some c.previewId
  | .rejectClosed c _ _ closed => if closed then some c.previewId else none
  | .rejectInserted c _ _ closed _ => if closed then some c.previewId else none
  | _ => none

/-- The response of a phase whose next statement is a commit, when the commit is reported. -/
def Phase.commitPoint : Phase δ → Option (Call × Receipt)
  | .previewInserted q commandId _ => some (.preview q, executedReceipt commandId)
  | .quoteInserted q commandId _ => some (.quote q, executedReceipt commandId)
  | .confirmApplied c _ _ commandId _ _ _ => some (.confirm c, executedReceipt commandId)
  | .rejectInserted c _ t _ commandId =>
      some (.confirm c, rejectedReceipt commandId (rejectionError t))
  | .resolveInserted q commandId => some (.resolve q, rejectedReceipt commandId fenceError)
  | _ => none

/-- The call of a phase whose session is running. -/
def Phase.call? : Phase δ → Option Call
  | .idle | .finished _ _ => none
  | .previewStart q | .previewLocked q | .previewBuilt q _ _ | .previewInserted q _ _ =>
      some (.preview q)
  | .quoteStart q | .quoteLocked q | .quoteInserted q _ _ => some (.quote q)
  | .confirmStart c | .confirmIdentified c _ _ | .confirmLocked c _ _ | .confirmChecked c _ _
  | .confirmInserted c _ _ _ | .confirmGated c _ _ _ _ | .confirmApplied c _ _ _ _ _ _
  | .confirmFailed c _ _ _ | .rejecting c _ _ | .rejectClosed c _ _ _
  | .rejectInserted c _ _ _ _ => some (.confirm c)
  | .resolveStart q | .resolveLocked q | .resolveMissing q | .resolveInserted q _ =>
      some (.resolve q)

/-- The confirmation whose transaction is open in a phase, when it may still roll back. -/
def Phase.confirming : Phase δ → Option (ConfirmCall × CommandKey × CommandType)
  | .confirmLocked c key command | .confirmChecked c key command
  | .confirmInserted c key command _ | .confirmGated c key command _ _
  | .confirmApplied c key command _ _ _ _ => some (c, key, command)
  | _ => none

/-- One committed transaction: who committed it, in which phase, and the tables around it. -/
structure CommitRecord (β δ : Type) where
  session : Nat
  phase : Phase δ
  before : Tables β
  after : Tables β

structure State (β δ : Type) where
  tables : Tables β
  sessions : Nat → Phase δ
  locks : Nat → Option Nat
  nextId : Nat
  now : Nat
  history : List (CommitRecord β δ)

namespace State

variable {env}

def release (locks : Nat → Option Nat) (sid : Nat) : Nat → Option Nat :=
  fun l => if locks l = some sid then none else locks l

def pendingKey (env : Environment β δ) (s : State β δ) (sid : Nat) : Option CommandKey :=
  ((s.sessions sid).writes env).execution.map Execution.key

def KeyFree (env : Environment β δ) (s : State β δ) (sid : Nat) (key : CommandKey) : Prop :=
  (∀ x ∈ s.tables.executions, x.key ≠ key) ∧
    ∀ other, other ≠ sid → s.pendingKey env other ≠ some key

def RowFree (s : State β δ) (sid previewId : Nat) : Prop :=
  ∀ other, other ≠ sid → (s.sessions other).rowLock ≠ some previewId

end State

/-- What `visibleResult` answers for a committed execution row. -/
def visibleResult (t : Tables β) (x : Execution) : Response :=
  match receiptByCommand env t x.id with
  | .error e => .error e
  | .ok (some r) => .receipt r
  | .ok none => .unknown

/-- The phase after a confirmation check that threw, replayed a receipt, or passed. -/
def afterReplay (c : ConfirmCall) (key : CommandKey) (command : CommandType) (next : Phase δ) :
    Except Thrown (Option Receipt) → Phase δ
  | .error t => .confirmFailed c key command t
  | .ok (some r) => .finished (.confirm c) (.receipt r)
  | .ok none => next

/-- The error that `persistRejected` leaves with when the key is already taken. -/
def rejectConflictError (t : Thrown) : Thrown :=
  match t with
  | .sqlFailure sqlState => .sqlFailure sqlState
  | .failure => .failure
  | t => .domain (rejectionError t)

end

end GreenPms
