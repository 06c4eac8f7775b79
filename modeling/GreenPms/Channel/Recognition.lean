import GreenPms.Order.Amendments

/-! # Recognition of channel revenue

The operating facts of one order of an external channel (neither a free stay nor a member's),
and the facts that a pricing revision adds to them. A stay change recognises what the facts do
not cover yet; a correction of the price moves the facts with the contract only while nothing
awaits a refund.
-/

namespace GreenPms

open Checked

inductive ChannelFactKind where
  | sale | correction | refund | reversal
  deriving DecidableEq, Repr

structure ChannelOperatingFact where
  id : Nat
  kind : ChannelFactKind
  amountMinor : Int
  contractEffectMinor : Int
  businessDate : Nat
  referencesFactId : Option Nat
  refundReference : Option String
  note : String
  createdAt : Nat
  deriving DecidableEq, Repr

/-- The revision of the amendment with the given sequence number and type. -/
structure ChannelRevision where
  revisionNo : Nat
  amendmentSequence : Nat
  amendmentType : CommandType
  currentContractAmountMinor : Int
  createdAt : Nat
  createdOn : Nat
  deriving DecidableEq, Repr

structure Clock where
  now : Nat
  today : Nat
  deriving DecidableEq, Repr

def channelAmountLimit : Int := 2147483600

def validationThrown (message : String) : Thrown := .domain (domainError .validationError message)

inductive ChannelRecognition where
  | sale | correction
  deriving DecidableEq, Repr

def channelRecognitionDelta (kind : ChannelRecognition) (prior net target : Int) : Except Thrown Int := do
  require (0 ≤ prior ∧ 0 ≤ target ∧ prior ≤ channelAmountLimit ∧ target ≤ channelAmountLimit ∧ 0 ≤ net)
    (validationThrown "渠道金额超出支持范围")
  match kind with
  | .correction => do
      require (prior ≤ net) (validationThrown "渠道当前应结与已计余额不一致，请先核对历史资料")
      return if net = prior then target - prior else if net < target then target - net else 0
  | .sale =>
      if target ≤ prior then return 0
      else do
        require (prior ≤ net) (validationThrown "渠道当前应结与已计余额不一致，请先核对历史资料")
        return if net < target then target - net else 0

def stayChangeTypes : List CommandType := [.rescheduleStay, .extendStay, .shortenStay, .moveUnit]

def priorContract (revisions : List ChannelRevision) (revisionNo : Nat) : Option Int :=
  (revisions.findRev? fun r => r.revisionNo < revisionNo).map ChannelRevision.currentContractAmountMinor

def channelCorrectionDate (revisions : List ChannelRevision) (excluding : Nat) : Except Thrown Nat :=
  expect (validationThrown "缺少可追溯的原渠道成交日期，不能猜测更正归属")
    ((revisions.findRev? fun r => r.revisionNo ≠ excluding && (r.revisionNo = 1 ||
      (stayChangeTypes.contains r.amendmentType &&
        some r.currentContractAmountMinor ≠ priorContract revisions r.revisionNo))).map
      ChannelRevision.createdOn)

def isCorrection (revision : ChannelRevision) : Bool := revision.amendmentType = .repriceOrder

def isSale (revision : ChannelRevision) : Bool :=
  revision.revisionNo = 1 || stayChangeTypes.contains revision.amendmentType

def revisionDelta (prior net : Int) (revision : ChannelRevision) : Except Thrown Int :=
  if isCorrection revision then
    channelRecognitionDelta .correction prior net revision.currentContractAmountMinor
  else if isSale revision then channelRecognitionDelta .sale prior net revision.currentContractAmountMinor
  else .ok 0

def revisionDate (revisions : List ChannelRevision) (revision : ChannelRevision) : Except Thrown Nat :=
  if isCorrection revision then channelCorrectionDate (revisions ++ [revision]) revision.revisionNo
  else .ok revision.createdOn

/-- `recordChannelRevision`: the fact that the revision adds, if any. -/
def recordChannelRevision (clock : Clock) (factId : Nat) (revisions : List ChannelRevision) (net : Int)
    (revision : ChannelRevision) : Except Thrown (Option ChannelOperatingFact) := do
  let prior := (priorContract revisions revision.revisionNo).getD 0
  require (¬ (isSale revision = true ∧ 1 < revision.revisionNo ∧
      prior < revision.currentContractAmountMinor ∧ net < prior))
    (validationThrown "当前渠道应结与已计余额不一致，请先核对历史应结及退款资料")
  let delta ← revisionDelta prior net revision
  if delta = 0 then return none
  else do
    require (0 ≤ net + delta) (validationThrown "更正后的渠道成交不能低于已登记退款，请先核对退款记录")
    let businessDate ← revisionDate revisions revision
    return some ⟨factId, if isCorrection revision then .correction else .sale, delta, 0, businessDate, none, none,
      if isCorrection revision then "更正原渠道成交金额，保留原事实" else "渠道成交应结金额登记", clock.now⟩

/-! ## What a revision recognises -/

theorem channelRecognitionDelta_sale {prior net target delta : Int}
    (h : channelRecognitionDelta .sale prior net target = .ok delta) (hPrior : prior ≤ net) :
    0 ≤ target ∧ delta = max 0 (target - net) := by
  simp only [channelRecognitionDelta, bind_eq_ok, require_eq_ok] at h
  obtain ⟨_, ⟨-, hTarget, -, -, -⟩, h⟩ := h
  refine ⟨hTarget, ?_⟩
  split at h
  · simp only [pure_eq_ok] at h
    omega
  · simp only [bind_eq_ok, pure_eq_ok] at h
    obtain ⟨_, -, h⟩ := h
    split at h <;> omega

theorem channelRecognitionDelta_net {kind : ChannelRecognition} {prior net target delta : Int}
    (h : channelRecognitionDelta kind prior net target = .ok delta) : 0 ≤ net := by
  simp only [channelRecognitionDelta, bind_eq_ok, require_eq_ok] at h
  obtain ⟨_, ⟨-, -, -, -, hNet⟩, -⟩ := h
  exact hNet

theorem channelRecognitionDelta_correction {prior net target delta : Int}
    (h : channelRecognitionDelta .correction prior net target = .ok delta) :
    0 ≤ target ∧ target ≤ net + delta := by
  simp only [channelRecognitionDelta, bind_eq_ok, require_eq_ok, pure_eq_ok] at h
  obtain ⟨_, ⟨-, hTarget, -, -, -⟩, _, -, h⟩ := h
  refine ⟨hTarget, ?_⟩
  split at h
  · omega
  · split at h <;> omega

theorem recordChannelRevision_eq_ok {clock : Clock} {factId : Nat} {revisions : List ChannelRevision}
    {net : Int} {revision : ChannelRevision} {fact : Option ChannelOperatingFact}
    (h : recordChannelRevision clock factId revisions net revision = .ok fact) :
    ∃ delta, revisionDelta ((priorContract revisions revision.revisionNo).getD 0) net revision = .ok delta ∧
      ((delta = 0 ∧ fact = none) ∨ ∃ f, fact = some f ∧ f.amountMinor = delta ∧ delta ≠ 0 ∧
        f.kind = if isCorrection revision then .correction else .sale) := by
  simp only [recordChannelRevision, bind_eq_ok] at h
  obtain ⟨_, -, delta, hDelta, h⟩ := h
  refine ⟨delta, hDelta, ?_⟩
  split at h
  · next hZero =>
    rw [pure_eq_ok] at h
    exact .inl ⟨hZero, h.symm⟩
  · next hNonzero =>
    simp only [bind_eq_ok, pure_eq_ok] at h
    obtain ⟨_, -, date, -, rfl⟩ := h
    exact .inr ⟨_, rfl, rfl, hNonzero, rfl⟩

theorem priorContract_current {revisions : List ChannelRevision} {revision : ChannelRevision}
    (h : revisions.getLast? = some revision) :
    priorContract revisions (revision.revisionNo + 1) = some revision.currentContractAmountMinor := by
  obtain ⟨earlier, rfl⟩ := List.getLast?_eq_some_iff.mp h
  simp [priorContract]

end GreenPms
