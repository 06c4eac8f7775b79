import GreenPms.Library.SequencedFeed
import GreenPms.Library.Checked

/-! # The feeds of payment events

Version 1 announces that a bill was discovered or matched, version 2 every change of its
allocations. An event takes its number from the head row of its property, which the transaction
holds until it ends. The property of a bill never changes.
-/

namespace GreenPms

open Checked SequencedFeed TransitionSystem

def bigintMax : Nat := 9223372036854775807

structure PaymentEvent where
  eventId : String
  billId : String
  eventType : String
  deriving DecidableEq

abbrev ExternalPaymentEventTables := SequencedFeed.Tables String (String × String) PaymentEvent

abbrev AllocationEventTables := SequencedFeed.Tables String String PaymentEvent

variable (propertyOf : String → Option String)

/-- `qintopia_external_payment_event`: the test for an old event comes before the next number. -/
def externalPaymentEvent (t : ExternalPaymentEventTables) (billKey eventKind : String) :
    Except String (Write String (String × String) PaymentEvent) := do
  require (eventKind = "DISCOVERED" ∨ eventKind = "MATCHED") "invalid payment event"
  let property ← expect "query returned no rows" (propertyOf billKey)
  if t.entries.any fun e => e.key = (billKey, eventKind) then return ⟨property, t.last property, none⟩
  else
    let nextSequence := t.last property + 1
    let eventId := "payment:" ++ billKey ++ ":" ++ eventKind
    require (nextSequence ≤ bigintMax) "bigint out of range"
    require (∀ e ∈ t.entries, e.body.eventId ≠ eventId ∧ ¬(e.group = property ∧ e.sequence = nextSequence))
      "duplicate key value violates unique constraint"
    return ⟨property, nextSequence, some ⟨property, nextSequence, (billKey, eventKind), eventId, billKey, eventKind⟩⟩

def allocationEventTypes : List String :=
  ["DISCOVERED", "SOURCE_CHANGED", "ALLOCATED", "ALLOCATION_RELEASED", "RETAINED", "RETENTION_CHANGED"]

/-- `qintopia_allocation_emit`: the next number is taken first and given back for an old event. -/
def allocationEmit (t : AllocationEventTables) (billKey eventKind identityKey : String) :
    Except String (Write String String PaymentEvent) := do
  let property ← expect "query returned no rows" (propertyOf billKey)
  let nextSequence := (t.heads property).elim 1 (· + 1)
  require (nextSequence ≤ bigintMax) "bigint out of range"
  if t.entries.any fun e => e.key = identityKey then
    require (0 < nextSequence - 1) "payment_allocation_heads_last_sequence_check"
    return ⟨property, nextSequence - 1, none⟩
  else
    let eventId := "allocation_event_" ++ property ++ "_" ++ toString nextSequence
    require (eventKind ∈ allocationEventTypes) "payment_allocation_events_event_type_check"
    require (∀ e ∈ t.entries, e.body.eventId ≠ eventId ∧ ¬(e.group = property ∧ e.sequence = nextSequence))
      "duplicate key value violates unique constraint"
    return ⟨property, nextSequence, some ⟨property, nextSequence, identityKey, eventId, billKey, eventKind⟩⟩

def readExternalPaymentEvents (t : ExternalPaymentEventTables) (propertyId : String) (after : Nat) (limit : Int) :
    Except String (List (Entry String (String × String) PaymentEvent) × Nat) := do
  require (after ≤ bigintMax) "流水事件游标无效"
  return t.page propertyId after (max 1 (min 100 limit)).toNat

def readPaymentAllocationEvents (t : AllocationEventTables) (propertyId : String) (after : Nat) (limit : Int) :
    Except String (List (Entry String String PaymentEvent) × Nat) := do
  require (after ≤ bigintMax ∧ 1 ≤ limit ∧ limit ≤ 100) "流水事件游标或条数无效"
  return t.page propertyId after limit.toNat

structure ExternalPaymentEventCall where
  billKey : String
  eventKind : String

structure AllocationEventCall where
  billKey : String
  eventKind : String
  identityKey : String

def externalPaymentFeed : Code String (String × String) PaymentEvent ExternalPaymentEventCall where
  emit t call := externalPaymentEvent propertyOf t call.billKey call.eventKind
  read := readExternalPaymentEvents

def allocationFeed : Code String String PaymentEvent AllocationEventCall where
  emit t call := allocationEmit propertyOf t call.billKey call.eventKind call.identityKey
  read := readPaymentAllocationEvents

variable {propertyOf}

theorem externalPaymentFeed_lawful : (externalPaymentFeed propertyOf).Lawful bigintMax := by
  constructor
  case emits =>
    intro t call w h
    simp only [externalPaymentFeed, externalPaymentEvent, bind_eq_ok] at h
    obtain ⟨_, -, property, -, h⟩ := h
    split at h
    case isTrue =>
      obtain rfl := pure_eq_ok.mp h
      exact .inl ⟨rfl, rfl⟩
    case isFalse hNew =>
      simp only [bind_eq_ok, require_eq_ok, pure_eq_ok] at h
      obtain ⟨_, hMost, _, -, rfl⟩ := h
      refine .inr ⟨_, rfl, rfl, rfl, rfl, hMost, fun f hf hKey => hNew ?_⟩
      exact List.any_eq_true.mpr ⟨f, hf, decide_eq_true hKey⟩
  case reads =>
    intro t g after limit result h
    simp only [externalPaymentFeed, readExternalPaymentEvents, bind_eq_ok, pure_eq_ok] at h
    obtain ⟨_, -, rfl⟩ := h
    exact ⟨_, by omega, rfl⟩
  case answers =>
    intro t g after limit hAfter _ _
    exact ⟨_, bind_eq_ok.mpr ⟨(), require_eq_ok.mpr hAfter, rfl⟩⟩

theorem allocationFeed_lawful : (allocationFeed propertyOf).Lawful bigintMax := by
  constructor
  case emits =>
    intro t call w h
    simp only [allocationFeed, allocationEmit, bind_eq_ok, require_eq_ok] at h
    obtain ⟨property, -, _, hMost, h⟩ := h
    have hNext : (t.heads property).elim 1 (· + 1) = t.last property + 1 := by
      rw [SequencedFeed.Tables.last]
      cases t.heads property <;> rfl
    rw [hNext] at h hMost
    split at h
    case isTrue =>
      simp only [bind_eq_ok, require_eq_ok, pure_eq_ok] at h
      obtain ⟨_, -, rfl⟩ := h
      exact .inl ⟨rfl, rfl⟩
    case isFalse hNew =>
      simp only [bind_eq_ok, require_eq_ok, pure_eq_ok] at h
      obtain ⟨_, -, _, -, rfl⟩ := h
      refine .inr ⟨_, rfl, rfl, rfl, rfl, hMost, fun f hf hKey => hNew ?_⟩
      exact List.any_eq_true.mpr ⟨f, hf, decide_eq_true hKey⟩
  case reads =>
    intro t g after limit result h
    simp only [allocationFeed, readPaymentAllocationEvents, bind_eq_ok, require_eq_ok, pure_eq_ok] at h
    obtain ⟨_, hValid, rfl⟩ := h
    exact ⟨_, by omega, rfl⟩
  case answers =>
    intro t g after limit hAfter hLow hHigh
    exact ⟨_, bind_eq_ok.mpr ⟨(), require_eq_ok.mpr ⟨hAfter, hLow, hHigh⟩, rfl⟩⟩

theorem payment_feeds_lossless (propertyOf : String → Option String) :
    (∀ s, Reachable (system (externalPaymentFeed propertyOf)) s → Lossless (externalPaymentFeed propertyOf) s) ∧
      ∀ s, Reachable (system (allocationFeed propertyOf)) s → Lossless (allocationFeed propertyOf) s :=
  ⟨fun _ h => reachable_lossless externalPaymentFeed_lawful h,
    fun _ h => reachable_lossless allocationFeed_lawful h⟩

/-- An empty feed, with every reader at the start of one property. -/
def sampleFeed (ι : Type) : SequencedFeed.State String ι PaymentEvent :=
  ⟨.empty, fun _ => .idle, fun _ => ⟨"P", 0, []⟩⟩

def sampleFeedProperty (_ : String) : Option String := some "P"

theorem sampleFeed_init {ι γ : Type} (c : Code String ι PaymentEvent γ) : (system c).init (sampleFeed ι) :=
  ⟨rfl, fun _ => rfl, fun _ => ⟨rfl, rfl⟩⟩

/-- One event is committed and read, the next is rolled back, and the third takes its number. -/
def sampleFeedSteps {γ : Type} (first second : γ) : List (SequencedFeed.Event γ) :=
  [.emit 0 first, .commit 0, .read 0 100, .emit 1 second, .rollback 1, .emit 2 second, .commit 2, .read 0 100]

theorem sampleFeed_run {ι γ : Type} {c : Code String ι PaymentEvent γ} (first : γ) {second : γ} {k l : ι}
    {b d : PaymentEvent}
    (hFirst : c.emit .empty first = .ok ⟨"P", 1, some ⟨"P", 1, k, b⟩⟩)
    (hSecond : ∀ t : SequencedFeed.Tables String ι PaymentEvent, t.heads "P" = some 1 → t.entries = [⟨"P", 1, k, b⟩] →
      c.emit t second = .ok ⟨"P", 2, some ⟨"P", 2, l, d⟩⟩)
    (hRead : ∀ t g after, after ≤ bigintMax → c.read t g after 100 = .ok (t.page g after 100)) :
    ∃ s, Run (system c) (sampleFeed ι) (sampleFeedSteps first second) s ∧
      (s.readers 0).received = [⟨"P", 1, k, b⟩, ⟨"P", 2, l, d⟩] := by
  have hFree {s : SequencedFeed.State String ι PaymentEvent} (x : Nat) (w : Write String ι PaymentEvent)
      (hIdle : ∀ y, s.transactions y = .idle) : Free s x w := by
    intro y _
    rw [hIdle y]
    exact ⟨rfl, fun _ _ _ hf => absurd hf List.not_mem_nil⟩
  refine ⟨_, .cons (.emit hFirst (hFree 0 _ fun _ => rfl)) (.cons (.commit _ 0) (.cons (.read (hRead _ _ _ (Nat.zero_le _)))
    (.cons (.emit (hSecond _ rfl rfl) (hFree 1 _ ?_)) (.cons (.rollback _ 1)
      (.cons (.emit (hSecond _ rfl rfl) (hFree 2 _ ?_)) (.cons (.commit _ 2) (.single (.read (hRead _ _ _ ?_))))))))), ?_⟩
  · simp [sampleFeed]
  · simp [sampleFeed]
  · change 1 ≤ bigintMax
    decide
  · rfl

theorem payment_feeds_lossless_sample :
    (∃ s, Run (system (externalPaymentFeed sampleFeedProperty)) (sampleFeed _)
      (sampleFeedSteps ⟨"B", "DISCOVERED"⟩ ⟨"B", "MATCHED"⟩) s ∧
      (s.readers 0).received = [⟨"P", 1, ("B", "DISCOVERED"), "payment:B:DISCOVERED", "B", "DISCOVERED"⟩,
        ⟨"P", 2, ("B", "MATCHED"), "payment:B:MATCHED", "B", "MATCHED"⟩] ∧
      Lossless (externalPaymentFeed sampleFeedProperty) s) ∧
    ∃ s, Run (system (allocationFeed sampleFeedProperty)) (sampleFeed _) (sampleFeedSteps
      ⟨"B", "DISCOVERED", "external_payment_bills:B:DISCOVERED"⟩
      ⟨"B", "ALLOCATED", "external_payment_allocations:A:ALLOCATED"⟩) s ∧
      (s.readers 0).received =
        [⟨"P", 1, "external_payment_bills:B:DISCOVERED", "allocation_event_P_1", "B", "DISCOVERED"⟩,
          ⟨"P", 2, "external_payment_allocations:A:ALLOCATED", "allocation_event_P_2", "B", "ALLOCATED"⟩] ∧
      Lossless (allocationFeed sampleFeedProperty) s := by
  constructor
  · have hSecond (t : ExternalPaymentEventTables) (hHead : t.heads "P" = some 1)
        (hEntries : t.entries = [⟨"P", 1, ("B", "DISCOVERED"), "payment:B:DISCOVERED", "B", "DISCOVERED"⟩]) :
        (externalPaymentFeed sampleFeedProperty).emit t ⟨"B", "MATCHED"⟩ =
          .ok ⟨"P", 2, some ⟨"P", 2, ("B", "MATCHED"), "payment:B:MATCHED", "B", "MATCHED"⟩⟩ := by
      simp [externalPaymentFeed, externalPaymentEvent, SequencedFeed.Tables.last, sampleFeedProperty, expect, hHead, hEntries]
      decide
    have hRead (t : ExternalPaymentEventTables) (g : String) (after : Nat) (hAfter : after ≤ bigintMax) :
        (externalPaymentFeed sampleFeedProperty).read t g after 100 = .ok (t.page g after 100) :=
      bind_eq_ok.mpr ⟨(), require_eq_ok.mpr hAfter, rfl⟩
    obtain ⟨s, hRun, hReceived⟩ := sampleFeed_run ⟨"B", "DISCOVERED"⟩ rfl hSecond hRead
    exact ⟨s, hRun, hReceived, (payment_feeds_lossless sampleFeedProperty).1 s ⟨_, _, sampleFeed_init _, hRun⟩⟩
  · have hSecond (t : AllocationEventTables) (hHead : t.heads "P" = some 1) (hEntries : t.entries =
        [⟨"P", 1, "external_payment_bills:B:DISCOVERED", "allocation_event_P_1", "B", "DISCOVERED"⟩]) :
        (allocationFeed sampleFeedProperty).emit t ⟨"B", "ALLOCATED", "external_payment_allocations:A:ALLOCATED"⟩ =
          .ok ⟨"P", 2, some
            ⟨"P", 2, "external_payment_allocations:A:ALLOCATED", "allocation_event_P_2", "B", "ALLOCATED"⟩⟩ := by
      simp [allocationFeed, allocationEmit, allocationEventTypes, sampleFeedProperty, expect, hHead, hEntries]
      decide
    have hRead (t : AllocationEventTables) (g : String) (after : Nat) (hAfter : after ≤ bigintMax) :
        (allocationFeed sampleFeedProperty).read t g after 100 = .ok (t.page g after 100) :=
      bind_eq_ok.mpr ⟨(), require_eq_ok.mpr ⟨hAfter, by decide, by decide⟩, rfl⟩
    obtain ⟨s, hRun, hReceived⟩ :=
      sampleFeed_run ⟨"B", "DISCOVERED", "external_payment_bills:B:DISCOVERED"⟩ rfl hSecond hRead
    exact ⟨s, hRun, hReceived, (payment_feeds_lossless sampleFeedProperty).2 s ⟨_, _, sampleFeed_init _, hRun⟩⟩

end GreenPms
