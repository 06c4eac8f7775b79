import Mathlib.Data.Set.Basic
import GreenPms.Payments.Feeds
import GreenPms.Payments.Sync

/-! # Runs of the payment sync

A run holds the lock of its source and reads the time since the last checkpoint window by window.
Each window is read to its last page and then written in one transaction, with its checkpoint. A
failure ends the run, and the next one starts from the checkpoint. Instants are in milliseconds.
-/

namespace GreenPms

open Checked TransitionSystem

def dayMs : Int := 86400000

def overlapMs : Int := 600000

/-- `external_payment_sources` -/
structure PaymentSource where
  enabled : Bool
  importSince : Int
  matchingSince : Int
  syncedUntil : Option Int
  baselineComplete : Bool
  reconciliationUntil : Option Int
  lastReconciliationAt : Option Int
  lastSuccessAt : Option Int
  lastErrorCode : Option String

/-- `external_payment_accounts` -/
structure PaymentAccount where
  sourceId : Nat
  merchantId : Nat
  propertyId : String

def propertyOfMerchant (accounts : List PaymentAccount) (sourceId merchantId : Nat) : Option String :=
  (accounts.find? fun a => a.sourceId = sourceId && a.merchantId = merchantId).map PaymentAccount.propertyId

/-! ## Reading a window -/

def paymentWindows (start finish : Int) : Nat → List (Int × Int)
  | 0 => []
  | maxWindows + 1 =>
      if start < finish then
        (start, min (start + dayMs) finish) :: paymentWindows (start + dayMs) finish maxWindows
      else []

structure WecomPage where
  bills : List WecomBill
  nextCursor : Option String

/-- The answer to a request, or the code of its error. No cursor is asked for twice. -/
abbrev PaymentClient := Int → Int → Option String → Except String WecomPage

/-- Each page but the last adds a cursor, so that `maxPages` pages are never exceeded. -/
def readPages (page : Option String → Except String WecomPage) :
    Nat → Option String → List String → List WecomBill → Except String (List WecomBill)
  | 0, _, _, _ => .error "WECOM_TOO_MANY_PAGES"
  | fuel + 1, cursor, cursors, bills => do
      let answer ← page cursor
      require ((bills ++ answer.bills).length ≤ 100000) "WECOM_WINDOW_TOO_LARGE"
      match answer.nextCursor.filter (· ≠ "") with
      | none => return bills ++ answer.bills
      | some next => do
          require (next ∉ cursors) "WECOM_CURSOR_LOOP"
          require (cursors.length + 1 ≤ 1000) "WECOM_TOO_MANY_PAGES"
          readPages page fuel (some next) (next :: cursors) (bills ++ answer.bills)

def maxPages : Nat := 1001

/-- More than `maxPages` requests are never made. -/
theorem readPages_fuel {page : Option String → Except String WecomPage} {fuel : Nat} {cursor : Option String}
    {cursors : List String} {bills : List WecomBill} (hFuel : cursors.length + fuel = maxPages)
    (hPages : cursors.length < maxPages) (more : Nat) :
    readPages page (fuel + more) cursor cursors bills = readPages page fuel cursor cursors bills := by
  induction fuel generalizing cursor cursors bills with
  | zero => exact absurd hFuel (Nat.ne_of_lt hPages)
  | succ fuel ih =>
    rw [Nat.succ_add, readPages, readPages]
    refine bind_congr fun answer => bind_congr fun _ => ?_
    cases answer.nextCursor.filter (· ≠ "") with
    | none => rfl
    | some next =>
      refine bind_congr fun _ => ?_
      obtain hMore | hMost := Nat.lt_or_ge (cursors.length + 1) maxPages
      · refine bind_congr fun _ => ih ?_ hMore
        rw [List.length_cons]
        omega
      · rw [require, if_neg (Nat.not_le.mpr hMost)]
        rfl

def readWindow (client : PaymentClient) (start finish : Int) : Except String (List WecomBill) :=
  readPages (client start finish) maxPages none [] []

/-- The client returns every bill that the service holds in the window. -/
def PaymentClient.Serves (client : PaymentClient) (held : Set WecomBill) : Prop :=
  ∀ start finish bills, readWindow client start finish = .ok bills →
    ∀ b ∈ held, start ≤ b.occurredAt → b.occurredAt < finish → b ∈ bills

/-! ## Writing a window -/

def mappedBills (accounts : List PaymentAccount) (sourceId : Nat) (bills : List WecomBill) : List WecomBill :=
  (bills.filter fun b => (propertyOfMerchant accounts sourceId b.merchantId).isSome).map fun b => { b with sourceId }

/-- The bills are written one after the other; the first row tells what was discovered. -/
def persistBills (stamps : Nat → PaymentTables.BillStamp) (announce : Bool) :
    Nat → List WecomBill → PaymentTables → Except Thrown (List Nat × PaymentTables)
  | _, [], s => .ok ([], s)
  | n, bill :: rest, s => do
      let (discovered, written) ← s.persistBill (stamps n) bill announce
      let (discoveries, last) ← persistBills stamps announce (n + 1) rest written
      return (discovered.toList ++ discoveries, last)

def billProperty (accounts : List PaymentAccount) (s : PaymentTables) (billKey : String) : Option String :=
  (s.bills.find? fun b => toString b.id = billKey).bind fun b => propertyOfMerchant accounts b.sourceId b.merchantId

/-- A bill that can be booked as it stands: verified, in scope, unmatched and alone under its reference. -/
def announceable (accounts : List PaymentAccount) (matchingSince : Int) (s : PaymentTables)
    (b : ExternalPaymentBill) : Bool :=
  b.state = .success && b.amountMinor.isSome && !b.needsReview && matchingSince ≤ b.occurredAt && !s.matched b.id &&
    s.bills.all fun other => other.id = b.id || !(other.kind = b.kind && other.reference = b.reference &&
      propertyOfMerchant accounts other.sourceId other.merchantId = propertyOfMerchant accounts b.sourceId b.merchantId)

def emitted (t : ExternalPaymentEventTables) (w : SequencedFeed.Write String (String × String) PaymentEvent) :
    ExternalPaymentEventTables :=
  ⟨Function.update t.heads w.group (some w.head), t.entries ++ w.entry.toList⟩

def announce (accounts : List PaymentAccount) (matchingSince : Int) (s : PaymentTables) :
    List Nat → ExternalPaymentEventTables → Except String ExternalPaymentEventTables
  | [], t => .ok t
  | id :: rest, t => do
      let next ← if (s.bill? id).any (announceable accounts matchingSince s) then
          emitted t <$> externalPaymentEvent (billProperty accounts s) t (toString id) "DISCOVERED"
        else .ok t
      announce accounts matchingSince s rest next

inductive Checkpoint where
  | recent | reconcile | repair
  deriving DecidableEq, Repr

structure SyncWindow where
  start : Int
  finish : Int
  checkpoint : Checkpoint

/-! ## A run -/

/-- What a run has still to do. -/
inductive SyncStage where
  | recent (windows : List (Int × Int))
  | repair
  | reconcile

def SyncStage.after : SyncStage → Option SyncStage
  | .recent [] => some .repair
  | .recent (_ :: windows) => some (.recent windows)
  | .repair => some .reconcile
  | .reconcile => none

structure SyncRun where
  now : Int
  source : PaymentSource
  stage : SyncStage

namespace SyncRun

def target (now : Int) : Int := now / 1000 * 1000

def first (source : PaymentSource) : Int :=
  match source.syncedUntil with
  | some syncedUntil => max source.importSince (syncedUntil - overlapMs)
  | none => source.importSince

def start (now : Int) (source : PaymentSource) : SyncRun :=
  ⟨now, source, .recent (paymentWindows (first source) (target now) 7)⟩

/-- The payments before the first window that have an unresolved refund. -/
def unresolvedParents (run : SyncRun) (sourceId : Nat) (s : PaymentTables) : List ExternalPaymentBill :=
  s.bills.filter fun p => p.sourceId = sourceId && p.kind = .collection && p.occurredAt < first run.source &&
    s.bills.any fun r => r.sourceId = sourceId && r.kind = .refund && (r.state = .pending || r.state = .unknown) &&
      r.merchantId = p.merchantId && r.originalTradeNo = p.originalTradeNo

def reconciliationUntil (run : SyncRun) : Int := max run.source.importSince (target run.now - overlapMs)

def reconciliationStart (run : SyncRun) : Int :=
  match run.source.reconciliationUntil with
  | some last => if last < run.reconciliationUntil then last else run.source.importSince
  | none => run.source.importSince

def reconciliationDue (run : SyncRun) : Bool :=
  run.source.baselineComplete && run.source.lastReconciliationAt.all fun last => 60000 ≤ run.now - last

/-- The window of the stage, if it has one; `oldest` finds the refund that was updated first. -/
def window (run : SyncRun) (sourceId : Nat) (s : PaymentTables) (oldest : Nat) : Option SyncWindow :=
  match run.stage with
  | .recent [] => none
  | .recent ((start, finish) :: _) => some ⟨start, finish, .recent⟩
  | .repair =>
      if run.source.baselineComplete then
        (run.unresolvedParents sourceId s)[oldest]?.map fun p =>
          ⟨p.occurredAt - 1000, min (p.occurredAt + 1000) (target run.now), .repair⟩
      else none
  | .reconcile =>
      if run.reconciliationDue && run.reconciliationStart < run.reconciliationUntil then
        some ⟨run.reconciliationStart, min (run.reconciliationStart + dayMs) run.reconciliationUntil, .reconcile⟩
      else none

end SyncRun

def PaymentSource.after (source : PaymentSource) (now : Int) (w : SyncWindow) : PaymentSource :=
  match w.checkpoint with
  | .recent =>
      { source with
        syncedUntil := some w.finish
        baselineComplete := source.baselineComplete || SyncRun.target now ≤ w.finish
        lastSuccessAt := if SyncRun.target now ≤ w.finish then some now else source.lastSuccessAt
        lastErrorCode := none }
  | .reconcile =>
      { source with
        reconciliationUntil := some w.finish
        lastReconciliationAt := some now }
  | .repair => source

/-- A window that was read to its last page and written, with what the service held then. -/
structure CommittedWindow extends SyncWindow where
  target : Int
  held : Set WecomBill

/-- The database with the run that holds the lock of the source, and the windows committed so far. -/
structure SyncState where
  source : PaymentSource
  tables : PaymentTables
  events : ExternalPaymentEventTables
  run : Option SyncRun
  committed : List CommittedWindow

namespace SyncState

variable (accounts : List PaymentAccount) (sourceId : Nat) (s : SyncState)

def failed (code : String) : SyncState :=
  { s with
    source := { s.source with lastErrorCode := some code }
    run := none }

/-- `syncWecomSource`, up to its first window. A call without the lock is skipped. -/
def begin (now : Int) : SyncState :=
  if s.run.isSome || !s.source.enabled then s
  else if accounts.any (fun a => a.sourceId = sourceId) then { s with run := some (.start now s.source) }
  else s.failed "WECOM_MERCHANT_MAPPING_MISSING"

/-- `runWindow` -/
def runWindow (run : SyncRun) (w : SyncWindow) (client : PaymentClient) (stamps : Nat → PaymentTables.BillStamp) :
    Except String SyncState := do
  let bills ← readWindow client w.start w.finish
  let (discoveries, tables) ← (persistBills stamps run.source.baselineComplete 0
    (mappedBills accounts sourceId bills) s.tables).mapError fun _ => "WECOM_SYNC_FAILED"
  let events ← (announce accounts run.source.matchingSince tables discoveries s.events).mapError
    fun _ => "WECOM_SYNC_FAILED"
  return { s with source := s.source.after run.now w, tables, events }

def proceed (run : SyncRun) : SyncState := { s with run := run.stage.after.map fun stage => { run with stage } }

def advance (run : SyncRun) (client : PaymentClient) (held : Set WecomBill)
    (stamps : Nat → PaymentTables.BillStamp) (oldest : Nat) : SyncState :=
  match run.window sourceId s.tables oldest with
  | none => s.proceed run
  | some w =>
      match s.runWindow accounts sourceId run w client stamps with
      | .error code => s.failed code
      | .ok t => { t with committed := ⟨w, SyncRun.target run.now, held⟩ :: t.committed }.proceed run

end SyncState

def PaymentStep.Elsewhere (sourceId : Nat) : PaymentStep → Prop
  | .read _ bill _ => bill.sourceId ≠ sourceId
  | _ => True

inductive SyncEvent where
  | begin (now : Int)
  | advance (client : PaymentClient) (held : Set WecomBill) (stamps : Nat → PaymentTables.BillStamp) (oldest : Nat)
  | crash
  | enable (on : Bool)
  | pay (settings : PaymentSettings) (e : PaymentStep)

/-- What a call of the sync does, as against payments and a change of its settings. -/
def SyncEvent.OfRun : SyncEvent → Prop
  | .pay _ _ | .enable _ => False
  | _ => True

inductive SyncStep (accounts : List PaymentAccount) (sourceId : Nat) : SyncState → SyncEvent → SyncState → Prop
  | begin (s now) : SyncStep accounts sourceId s (.begin now) (s.begin accounts sourceId now)
  | advance {s run client held} (stamps oldest) : s.run = some run → client.Serves held →
      SyncStep accounts sourceId s (.advance client held stamps oldest)
        (s.advance accounts sourceId run client held stamps oldest)
  /-- The connection of the run is lost, and with it the lock. -/
  | crash (s) : SyncStep accounts sourceId s .crash { s with run := none }
  | enable (s on) : SyncStep accounts sourceId s (.enable on)
      { s with
        source := { s.source with enabled := on } }
  | pay {s settings e tables} : e.Elsewhere sourceId → s.tables.apply settings e = .ok tables →
      SyncStep accounts sourceId s (.pay settings e) { s with tables }

/-- A source that was never read. -/
structure SyncState.Unsynced (s : SyncState) : Prop where
  syncedUntil : s.source.syncedUntil = none
  baselineComplete : s.source.baselineComplete = false
  run : s.run = none
  committed : s.committed = []

def syncSystem (accounts : List PaymentAccount) (sourceId : Nat) : System SyncState SyncEvent where
  init := SyncState.Unsynced
  step := SyncStep accounts sourceId

end GreenPms
