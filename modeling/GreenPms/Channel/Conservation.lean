import GreenPms.Channel.Order

/-! # The contract of a channel order is covered

The contract amount never exceeds what the operating facts have recognised, and the sale facts
add up to the greatest amount that the contract ever needed beyond the other facts.
-/

namespace GreenPms

open Checked TransitionSystem

namespace ChannelOrder

variable {o o' : ChannelOrder} {stamp : CommandStamp}

def needed (o : ChannelOrder) : Int := o.contract - (o.net - o.saleTotal)

/-- A refund takes at least as much from the facts as from the contract. -/
def RefundsCovered (o : ChannelOrder) : Prop :=
  ∀ f ∈ o.facts, f.kind = .refund → f.amountMinor ≤ f.contractEffectMinor ∧ f.contractEffectMinor ≤ 0

structure Ok (o : ChannelOrder) : Prop where
  nonneg : 0 ≤ o.contract
  covered : o.contract ≤ o.net
  sale : 0 ≤ o.saleTotal
  refunds : o.RefundsCovered
  numbered : Numbered o.amendments o.version
  current : o.revisions.getLast? = some o.currentRevision
  revised : o.currentRevision.amendmentSequence ≤ o.version
  started : 1 ≤ o.currentRevision.revisionNo
  source : ∀ r, o.reversalSource = some r →
    0 ≤ r.currentContractAmountMinor ∧ r.currentContractAmountMinor ≤ o.net

/-! ## What a revision changes -/

/-- What a revision changes that recognises `delta`. -/
structure Revises (o o' : ChannelOrder) (revision : ChannelRevision) (kind : ChannelFactKind)
    (delta : Int) : Prop where
  revisions : o'.revisions = o.revisions ++ [revision]
  current : o'.currentRevision = revision
  amendments : o'.amendments = o.amendments
  version : o'.version = o.version
  opening : o'.openingRefundMinor = o.openingRefundMinor
  facts : (delta = 0 ∧ o'.facts = o.facts) ∨
    ∃ fact, o'.facts = o.facts ++ [fact] ∧ fact.kind = kind ∧ fact.amountMinor = delta ∧ delta ≠ 0

theorem insertFact_eq_ok {fact : ChannelOperatingFact} (h : o.insertFact fact = .ok o') :
    o' = { o with facts := o.facts ++ [fact] } := by
  simp only [insertFact, bind_eq_ok, require_eq_ok, pure_eq_ok] at h
  obtain ⟨_, -, rfl⟩ := h
  rfl

theorem insertRevision_revises {revision : ChannelRevision} (h : o.insertRevision stamp revision = .ok o') :
    ∃ delta, revisionDelta ((priorContract o.revisions revision.revisionNo).getD 0) o.net revision = .ok delta ∧
      Revises o o' revision (if isCorrection revision then .correction else .sale) delta := by
  simp only [insertRevision, bind_eq_ok] at h
  obtain ⟨fact, hFact, h⟩ := h
  obtain ⟨delta, hDelta, hKind⟩ := recordChannelRevision_eq_ok hFact
  refine ⟨delta, hDelta, ?_⟩
  obtain ⟨hZero, rfl⟩ | ⟨f, rfl, hAmount, hNonzero, hKind⟩ := hKind
  · obtain rfl : o.addRevision revision = o' := by simpa using h
    exact ⟨rfl, rfl, rfl, rfl, rfl, .inl ⟨hZero, rfl⟩⟩
  · obtain rfl := insertFact_eq_ok h
    exact ⟨rfl, rfl, rfl, rfl, rfl, .inr ⟨f, rfl, hKind, hAmount, hNonzero⟩⟩

namespace Revises

variable {revision : ChannelRevision} {kind : ChannelFactKind} {delta : Int}

theorem contract (h : Revises o o' revision kind delta) :
    o'.contract = revision.currentContractAmountMinor := by
  rw [ChannelOrder.contract, h.current]

theorem net (h : Revises o o' revision kind delta) : o'.net = o.net + delta := by
  unfold ChannelOrder.net
  rw [h.opening]
  obtain ⟨rfl, hFacts⟩ | ⟨fact, hFacts, -, hAmount, -⟩ := h.facts
  · rw [hFacts, Int.add_zero]
  · rw [hFacts, List.map_append, List.sum_append, List.map_singleton, List.sum_singleton, hAmount]
    omega

theorem saleTotal (h : Revises o o' revision kind delta) :
    o'.saleTotal = if kind = .sale then o.saleTotal + delta else o.saleTotal := by
  unfold ChannelOrder.saleTotal
  obtain ⟨rfl, hFacts⟩ | ⟨fact, hFacts, hKind, hAmount, -⟩ := h.facts
  · rw [hFacts]
    simp
  · rw [hFacts, List.filter_append]
    by_cases hSale : kind = .sale
    · simp [hKind, hSale, hAmount]
    · simp [hKind, hSale]

theorem refunds (h : Revises o o' revision kind delta) (hKind : kind ≠ .refund) (hOk : o.RefundsCovered) :
    o'.RefundsCovered := by
  intro f hf hRefund
  obtain ⟨-, hFacts⟩ | ⟨fact, hFacts, hFact, -, -⟩ := h.facts
  · rw [hFacts] at hf
    exact hOk f hf hRefund
  · rw [hFacts, List.mem_append, List.mem_singleton] at hf
    obtain hf | rfl := hf
    · exact hOk f hf hRefund
    · exact absurd (hFact.symm.trans hRefund) hKind

end Revises

/-! ## What a check-out reversal would restore -/

def Settled (amendments : List Amendment) : Prop :=
  ∀ checkout, lastCheckout amendments = some checkout → changedSince amendments checkout = true

theorem settled_append {amendments : List Amendment} {version : Nat} (h : Numbered amendments version)
    {type : CommandType} (hType : type ≠ .checkOut) (hOccupant : type ≠ .correctOrderOccupant)
    (commandId : Nat) : Settled (amendments ++ [⟨version + 1, type, commandId⟩]) := by
  intro checkout hLast
  rw [lastCheckout_append hType] at hLast
  exact h.changedSince_append hLast hOccupant commandId

theorem reversalSource_of_settled (h : Settled o.amendments) : o.reversalSource = none := by
  unfold reversalSource
  cases hLast : lastCheckout o.amendments with
  | none => rfl
  | some checkout => simp [h checkout hLast]

theorem Revises.ok {revision : ChannelRevision} {kind : ChannelFactKind} {delta : Int}
    (h : Revises o o' revision kind delta) (hKind : kind ≠ .refund) (hRefunds : o.RefundsCovered)
    (hNumbered : Numbered o.amendments o.version) (hSettled : Settled o.amendments)
    (hSequence : revision.amendmentSequence ≤ o.version) (hNo : 1 ≤ revision.revisionNo)
    (hNonneg : 0 ≤ o'.contract) (hCovered : o'.contract ≤ o'.net) (hSale : 0 ≤ o'.saleTotal) : o'.Ok where
  nonneg := hNonneg
  covered := hCovered
  sale := hSale
  refunds := h.refunds hKind hRefunds
  numbered := by
    rw [h.amendments, h.version]
    exact hNumbered
  current := by
    rw [h.revisions, h.current]
    simp
  revised := by
    rw [h.current, h.version]
    exact hSequence
  started := by
    rw [h.current]
    exact hNo
  source := by
    intro r hr
    rw [reversalSource_of_settled (by rwa [h.amendments])] at hr
    cases hr

/-- A revision for the last amendment: a stay change and a correction are covered by the facts
they add, any other revision has to be covered already. -/
theorem nextRevision_covered {type : CommandType} {clock : Clock} {target : Int}
    (hLast : o.revisions.getLast? = some o.currentRevision) (hStarted : 1 ≤ o.currentRevision.revisionNo)
    (hBefore : type ∈ stayChangeTypes → o.contract ≤ o.net)
    (hOther : type ∉ stayChangeTypes → type ≠ .repriceOrder → 0 ≤ target ∧ target ≤ o.net)
    (h : o.insertRevision stamp (o.nextRevision type clock target) = .ok o') :
    ∃ kind delta, Revises o o' (o.nextRevision type clock target) kind delta ∧ kind ≠ .refund ∧
      0 ≤ o'.contract ∧ o'.contract ≤ o'.net ∧ o'.saleTotal = max o.saleTotal o'.needed ∧
      (type ∈ stayChangeTypes → o.net ≤ o'.net ∧ (target ≤ o.net → o'.facts = o.facts)) := by
  obtain ⟨delta, hDelta, hRevises⟩ := insertRevision_revises h
  refine ⟨_, delta, hRevises, ?_, ?_⟩
  · split <;> simp
  have hNo : (o.nextRevision type clock target).revisionNo = o.currentRevision.revisionNo + 1 := rfl
  rw [hNo, priorContract_current hLast, Option.getD_some] at hDelta
  have hContract : o'.contract = target := hRevises.contract
  have hNet := hRevises.net
  have hTotal := hRevises.saleTotal
  have hFacts : delta = 0 → o'.facts = o.facts := by
    intro hZero
    obtain ⟨-, hFacts⟩ | ⟨fact, hFacts, -, -, hNonzero⟩ := hRevises.facts
    · exact hFacts
    · exact absurd hZero hNonzero
  have hSaleNo : isSale (o.nextRevision type clock target) = stayChangeTypes.contains type := by
    simp [isSale, nextRevision]
    omega
  have hTarget : (o.nextRevision type clock target).currentContractAmountMinor = target := rfl
  rw [revisionDelta, hTarget] at hDelta
  by_cases hCorrection : type = .repriceOrder
  · have hIs : isCorrection (o.nextRevision type clock target) = true := by
      simp [isCorrection, nextRevision, hCorrection]
    rw [hIs, if_pos rfl] at hDelta
    rw [hIs, if_pos rfl, if_neg (by decide)] at hTotal
    obtain ⟨hNonneg, hCovered⟩ := channelRecognitionDelta_correction hDelta
    refine ⟨by omega, by omega, ?_, fun hType => ?_⟩
    · rw [needed, hTotal]
      omega
    · rw [hCorrection] at hType
      simp [stayChangeTypes] at hType
  · have hIs : isCorrection (o.nextRevision type clock target) = false := by
      simp [isCorrection, nextRevision, hCorrection]
    rw [hIs, if_neg Bool.false_ne_true, hSaleNo] at hDelta
    rw [hIs, if_neg Bool.false_ne_true, if_pos rfl] at hTotal
    by_cases hType : type ∈ stayChangeTypes
    · rw [if_pos (by simpa using hType)] at hDelta
      obtain ⟨hNonneg, hAmount⟩ := channelRecognitionDelta_sale hDelta (hBefore hType)
      refine ⟨by omega, by omega, ?_, fun _ => ⟨by omega, fun hLow => hFacts (by omega)⟩⟩
      rw [needed, hTotal]
      omega
    · rw [if_neg (by simpa using hType)] at hDelta
      cases hDelta
      obtain ⟨hNonneg, hCovered⟩ := hOther hType hCorrection
      refine ⟨by omega, by omega, ?_, fun hIn => absurd hIn hType⟩
      rw [needed, hTotal]
      omega

/-! ## The commands -/

structure Advances (o o' : ChannelOrder) : Prop where
  ok : o'.Ok
  total : o'.saleTotal = max o.saleTotal o'.needed

theorem Ok.total_self (h : o.Ok) : o.saleTotal = max o.saleTotal o.needed := by
  have hCovered := h.covered
  rw [needed]
  omega

theorem amendWithRevision_advances (hOk : o.Ok) {type : CommandType} {target : Int}
    (hType : type ≠ .checkOut) (hOccupant : type ≠ .correctOrderOccupant)
    (hOther : type ∉ stayChangeTypes → type ≠ .repriceOrder → 0 ≤ target ∧ target ≤ o.net)
    (h : o.amendWithRevision stamp type target = .ok o') :
    Advances o o' ∧ o'.amendments = o.amendments ++ [⟨o.version + 1, type, stamp.commandId⟩] ∧
      o'.version = o.version + 1 ∧ (∃ r, o'.revisions = o.revisions ++ [r] ∧ r.amendmentSequence = o.version + 1) ∧
      (type ∈ stayChangeTypes → o.net ≤ o'.net ∧ (target ≤ o.net → o'.facts = o.facts)) := by
  obtain ⟨kind, delta, hRevises, hKind, hNonneg, hCovered, hTotal, hChange⟩ :=
    nextRevision_covered (o := o.appendAmendment type stamp.commandId) hOk.current hOk.started
      (fun _ => hOk.covered) hOther h
  have hSale : 0 ≤ o'.saleTotal := by
    rw [hTotal]
    exact le_max_of_le_left hOk.sale
  exact ⟨⟨hRevises.ok hKind hOk.refunds (hOk.numbered.append type stamp.commandId)
      (settled_append hOk.numbered hType hOccupant _) (Nat.le_refl _) (Nat.le_add_left ..) hNonneg hCovered hSale,
    hTotal⟩, hRevises.amendments, hRevises.version, ⟨_, hRevises.revisions, rfl⟩, hChange⟩

theorem appendAmendment_advances (hOk : o.Ok) {type : CommandType} {commandId : Nat} (status : OrderStatus)
    (hSource : ∀ r, (o.appendAmendment type commandId).reversalSource = some r →
      0 ≤ r.currentContractAmountMinor ∧ r.currentContractAmountMinor ≤ o.net) :
    Advances o { o.appendAmendment type commandId with status := status } where
  ok := ⟨hOk.nonneg, hOk.covered, hOk.sale, hOk.refunds, hOk.numbered.append type commandId, hOk.current,
    Nat.le_succ_of_le hOk.revised, hOk.started, hSource⟩
  total := hOk.total_self

theorem settled_source (hOk : o.Ok) {type : CommandType} (hType : type ≠ .checkOut)
    (hOccupant : type ≠ .correctOrderOccupant) (commandId : Nat) :
    (o.appendAmendment type commandId).reversalSource = none :=
  reversalSource_of_settled (settled_append hOk.numbered hType hOccupant commandId)

theorem occupant_source (commandId : Nat) :
    (o.appendAmendment .correctOrderOccupant commandId).reversalSource = o.reversalSource := by
  have hLast : lastCheckout (o.amendments ++ [⟨o.version + 1, .correctOrderOccupant, commandId⟩]) =
      lastCheckout o.amendments := lastCheckout_append (by simp)
  simp [reversalSource, appendAmendment, hLast, changedSince, earlyShortening, List.find?_append]

theorem checkOut_source (hNumbered : Numbered o.amendments o.version) (commandId : Nat) :
    (o.appendAmendment .checkOut commandId).reversalSource =
      match earlyShortening o.amendments ⟨o.version + 1, .checkOut, commandId⟩ with
      | some shorten => o.revisions.findRev? fun r => r.amendmentSequence < shorten.sequence
      | none => some o.currentRevision := by
  let checkout : Amendment := ⟨o.version + 1, .checkOut, commandId⟩
  have hLast : lastCheckout (o.amendments ++ [checkout]) = some checkout := lastCheckout_append_checkOut rfl
  have hUnchanged : changedSince (o.amendments ++ [checkout]) checkout = false := by
    simp only [changedSince, List.any_eq_false]
    intro a ha
    obtain hOld | hNew := List.mem_append.mp ha
    · have hLe := hNumbered.bounded a hOld
      simp [checkout]
      omega
    · rw [List.mem_singleton.mp hNew]
      simp
  have hShorten : earlyShortening (o.amendments ++ [checkout]) checkout =
      earlyShortening o.amendments checkout := by
    simp [earlyShortening, checkout]
  change ((lastCheckout (o.amendments ++ [checkout])).bind fun last =>
    if changedSince (o.amendments ++ [checkout]) last then none
    else match earlyShortening (o.amendments ++ [checkout]) last with
      | some shorten => o.revisions.findRev? fun r => r.amendmentSequence < shorten.sequence
      | none => some o.currentRevision) = _
  rw [hLast, Option.bind_some, hUnchanged, if_neg Bool.false_ne_true, hShorten]

theorem lateCheckOut_source (hNumbered : Numbered o.amendments o.version) {commandId : Nat}
    (hOwn : ∀ a ∈ o.amendments, a.commandId = commandId → a.type ≠ .shortenStay) :
    (o.appendAmendment .checkOut commandId).reversalSource = some o.currentRevision := by
  have hNone : earlyShortening o.amendments ⟨o.version + 1, .checkOut, commandId⟩ = none := by
    refine List.find?_eq_none.mpr fun a ha => ?_
    simp only [Bool.and_eq_true, decide_eq_true_eq]
    exact fun h => hOwn a ha h.2 h.1.2
  rw [checkOut_source hNumbered, hNone]

theorem earlyCheckOut_source (hOk : o.Ok) (hNumbered : Numbered o'.amendments o'.version) {commandId : Nat}
    (hAmendments : o'.amendments = o.amendments ++ [⟨o.version + 1, .shortenStay, commandId⟩])
    (hVersion : o'.version = o.version + 1) {r : ChannelRevision} (hRevisions : o'.revisions = o.revisions ++ [r])
    (hSequence : r.amendmentSequence = o.version + 1) :
    (o'.appendAmendment .checkOut commandId).reversalSource = some o.currentRevision := by
  have hOld : earlyShortening o.amendments ⟨o'.version + 1, .checkOut, commandId⟩ = none := by
    refine List.find?_eq_none.mpr fun a ha => ?_
    have hLe := hOk.numbered.bounded a ha
    simp only [Bool.and_eq_true, decide_eq_true_eq]
    omega
  have hShorten : earlyShortening o'.amendments ⟨o'.version + 1, .checkOut, commandId⟩ =
      some ⟨o.version + 1, .shortenStay, commandId⟩ := by
    rw [hAmendments, earlyShortening, List.find?_append, ← earlyShortening, hOld, hVersion]
    simp
  obtain ⟨earlier, hLast⟩ := List.getLast?_eq_some_iff.mp hOk.current
  have hBefore := hOk.revised
  have hAfter : ¬ r.amendmentSequence < o.version + 1 := by omega
  have hOwn : o.currentRevision.amendmentSequence < o.version + 1 := Nat.lt_succ_of_le hBefore
  rw [checkOut_source hNumbered, hShorten]
  change o'.revisions.findRev? (fun x => x.amendmentSequence < o.version + 1) = _
  rw [hRevisions, hLast, List.findRev?_eq_find?_reverse, List.reverse_append, List.reverse_append]
  exact (List.find?_cons_of_neg (by simpa using hAfter)).trans (List.find?_cons_of_pos (by simpa using hOwn))

theorem revokeCheckOut_advances (hOk : o.Ok) {clock : Clock} {commandId : Nat} {source : ChannelRevision}
    (hSource : o.reversalSource = some source) :
    Advances o { (o.appendAmendment .revokeCheckOut commandId).addRevision
      ((o.appendAmendment .revokeCheckOut commandId).nextRevision .revokeCheckOut clock
        source.currentContractAmountMinor) with status := .checkedIn } := by
  obtain ⟨hNonneg, hCovered⟩ := hOk.source source hSource
  have hRevises : Revises (o.appendAmendment .revokeCheckOut commandId)
      { (o.appendAmendment .revokeCheckOut commandId).addRevision
        ((o.appendAmendment .revokeCheckOut commandId).nextRevision .revokeCheckOut clock
          source.currentContractAmountMinor) with status := .checkedIn }
      ((o.appendAmendment .revokeCheckOut commandId).nextRevision .revokeCheckOut clock
        source.currentContractAmountMinor) .sale 0 := ⟨rfl, rfl, rfl, rfl, rfl, .inl ⟨rfl, rfl⟩⟩
  refine ⟨hRevises.ok (by simp) hOk.refunds (hOk.numbered.append _ _)
    (settled_append hOk.numbered (by simp) (by simp) _) (Nat.le_refl _) (Nat.le_add_left ..) hNonneg hCovered
    hOk.sale, ?_⟩
  have hNeeded : source.currentContractAmountMinor - (o.net - o.saleTotal) ≤ o.saleTotal := by omega
  exact (max_eq_left hNeeded).symm

/-! ## The funds commands -/

theorem buildRefundEffect_target {desk : ChannelDesk} {today : Nat} {input : RefundInput}
    {effect : ChannelFundsEffect} (h : o.buildRefundEffect desk today input = .ok effect) :
    effect.contractTargetMinor = min o.contract (o.net - effect.amountMinor) ∧ 0 < effect.amountMinor ∧
      effect.amountMinor ≤ o.net := by
  simp only [buildRefundEffect, bind_eq_ok, require_eq_ok, expect_eq_ok, pure_eq_ok] at h
  obtain ⟨_, -, _, -, _, ⟨hPositive, -, hLimit⟩, _, -, _, -, _, -, sale, -, _, -, _, -, rfl⟩ := h
  exact ⟨rfl, hPositive, hLimit⟩

theorem buildReversalEffect_target {desk : ChannelDesk} {reversesFactId : Nat} {note : String}
    {effect : ChannelFundsEffect} (h : o.buildReversalEffect desk reversesFactId note = .ok effect) :
    ∃ original ∈ o.facts, original.kind = .refund ∧ effect.amountMinor = -original.amountMinor ∧
      effect.contractTargetMinor = o.contract - original.contractEffectMinor := by
  simp only [buildReversalEffect, bind_eq_ok, require_eq_ok, expect_eq_ok, pure_eq_ok] at h
  obtain ⟨_, -, _, -, original, hFound, _, -, _, -, _, -, _, -, rfl⟩ := h
  have hKind := List.find?_some hFound
  simp only [Bool.and_eq_true, decide_eq_true_eq] at hKind
  exact ⟨original, List.mem_of_find?_eq_some hFound, hKind.2, rfl, rfl⟩

structure Funded (o o' : ChannelOrder) (amount : Int) : Prop where
  net : o'.net = o.net + amount
  saleTotal : o'.saleTotal = o.saleTotal
  refunds : o'.RefundsCovered

theorem insertFact_funded {fact : ChannelOperatingFact} (hRefunds : o.RefundsCovered) (hKind : fact.kind ≠ .sale)
    (hRefund : fact.kind = .refund → fact.amountMinor ≤ fact.contractEffectMinor ∧ fact.contractEffectMinor ≤ 0) :
    Funded o { o with facts := o.facts ++ [fact] } fact.amountMinor where
  net := by
    simp only [net, List.map_append, List.sum_append, List.map_singleton, List.sum_singleton]
    omega
  saleTotal := by simp [saleTotal, hKind]
  refunds := by
    intro f hf hIs
    obtain hOld | hNew := List.mem_append.mp hf
    · exact hRefunds f hOld hIs
    · obtain rfl := List.mem_singleton.mp hNew
      exact hRefund hIs

theorem applyChannelFunds_advances (hOk : o.Ok) {type : CommandType} {kind : ChannelFactKind} {amount : Int}
    {effect : ChannelFundsEffect} (hType : type = .recordRefund ∨ type = .reverseFact)
    (hKind : kind ≠ .sale) (hNonneg : 0 ≤ effect.contractTargetMinor)
    (hCovered : effect.contractTargetMinor ≤ o.net + amount)
    (hRefund : kind = .refund → amount ≤ effect.contractTargetMinor - o.contract ∧
      effect.contractTargetMinor - o.contract ≤ 0)
    (h : o.applyChannelFunds stamp type kind amount effect = .ok o') : Advances o o' := by
  have hLate : type ≠ .checkOut ∧ type ≠ .correctOrderOccupant ∧ type ∉ stayChangeTypes ∧ type ≠ .repriceOrder := by
    obtain rfl | rfl := hType <;> simp [stayChangeTypes]
  obtain ⟨hNotCheckOut, hNotOccupant, hNotChange, hNotCorrection⟩ := hLate
  simp only [applyChannelFunds, bind_eq_ok] at h
  obtain ⟨funded, hFunded, h⟩ := h
  obtain rfl := insertFact_eq_ok hFunded
  let fact : ChannelOperatingFact := ⟨stamp.factId, kind, amount, effect.contractTargetMinor - o.contract,
    effect.businessDate, some effect.referencesFactId, effect.refundReference, effect.note, stamp.clock.now⟩
  let funded : ChannelOrder := { o with facts := o.facts ++ [fact] }
  have hFacts : Funded o funded amount := insertFact_funded hOk.refunds hKind hRefund
  have hSettled : Settled (funded.appendAmendment type stamp.commandId).amendments :=
    settled_append hOk.numbered hNotCheckOut hNotOccupant _
  have hNet : (funded.appendAmendment type stamp.commandId).net = o.net + amount := hFacts.net
  have hTotal : (funded.appendAmendment type stamp.commandId).saleTotal = o.saleTotal := hFacts.saleTotal
  have hSale := hOk.sale
  split at h
  · next hSame =>
    obtain rfl : funded.appendAmendment type stamp.commandId = o' := by simpa using h
    refine ⟨⟨hOk.nonneg, ?_, ?_, hFacts.refunds, hOk.numbered.append _ _, hOk.current,
      Nat.le_succ_of_le hOk.revised, hOk.started, ?_⟩, ?_⟩
    · rw [hNet, ← show effect.contractTargetMinor = (funded.appendAmendment type _).contract from hSame]
      exact hCovered
    · rw [hTotal]
      exact hSale
    · intro r hr
      rw [reversalSource_of_settled hSettled] at hr
      cases hr
    · rw [needed, hNet, hTotal, ← show effect.contractTargetMinor = (funded.appendAmendment type _).contract from hSame]
      omega
  · obtain ⟨kind, delta, hRevises, hNotRefund, hNonneg, hCovered, hGrows, -⟩ :=
      nextRevision_covered (o := funded.appendAmendment type stamp.commandId) hOk.current hOk.started
        (fun hIn => absurd hIn hNotChange) (fun _ _ => ⟨hNonneg, by omega⟩) h
    rw [hTotal] at hGrows
    refine ⟨hRevises.ok hNotRefund hFacts.refunds (hOk.numbered.append _ _) hSettled (Nat.le_refl _)
      (Nat.le_add_left ..) hNonneg hCovered ?_, hGrows⟩
    rw [hGrows]
    exact le_max_of_le_left hSale

/-! ## Every accepted command -/

theorem run_advances (hOk : o.Ok) {desk : ChannelDesk} {command : ChannelCommand}
    (hFresh : ∀ a ∈ o.amendments, a.commandId ≠ stamp.commandId) (h : o.run desk stamp command = .ok o') :
    Advances o o' := by
  cases command with
  | changeStay type target =>
    simp only [run, bind_eq_ok, require_eq_ok] at h
    obtain ⟨_, hStatus, _, -, h⟩ := h
    have hType : type ∈ stayChangeTypes := by
      cases type <;> simp [stayChangeStatuses, stayChangeTypes] at hStatus ⊢
    refine (amendWithRevision_advances hOk ?_ ?_ (fun hOut => absurd hType hOut) h).1
    · rintro rfl
      simp [stayChangeTypes] at hType
    · rintro rfl
      simp [stayChangeTypes] at hType
  | earlyCheckOut target =>
    simp only [run, bind_eq_ok, require_eq_ok, pure_eq_ok] at h
    obtain ⟨_, -, _, -, shortened, hShortened, rfl⟩ := h
    obtain ⟨hAdvances, hAmendments, hVersion, ⟨r, hRevisions, hSequence⟩, hChange⟩ :=
      amendWithRevision_advances hOk (by simp) (by simp) (fun hOut => absurd (by simp [stayChangeTypes]) hOut)
        hShortened
    obtain ⟨hGrows, -⟩ := hChange (by simp [stayChangeTypes])
    refine ⟨(appendAmendment_advances hAdvances.ok .checkedOut fun source hSource => ?_).ok, hAdvances.total⟩
    rw [earlyCheckOut_source hOk hAdvances.ok.numbered hAmendments hVersion hRevisions hSequence,
      Option.some.injEq] at hSource
    subst hSource
    exact ⟨hOk.nonneg, hOk.covered.trans hGrows⟩
  | repriceOrder target =>
    simp only [run, bind_eq_ok, require_eq_ok] at h
    obtain ⟨_, -, _, -, h⟩ := h
    exact (amendWithRevision_advances hOk (by simp) (by simp) (fun _ hOut => absurd rfl hOut) h).1
  | checkIn =>
    simp only [run, bind_eq_ok, require_eq_ok, pure_eq_ok] at h
    obtain ⟨_, -, rfl⟩ := h
    exact appendAmendment_advances hOk .checkedIn fun r hr => by
      rw [settled_source hOk (by simp) (by simp)] at hr
      cases hr
  | checkOut =>
    simp only [run, bind_eq_ok, require_eq_ok, pure_eq_ok] at h
    obtain ⟨_, -, rfl⟩ := h
    refine appendAmendment_advances hOk .checkedOut fun r hr => ?_
    rw [lateCheckOut_source hOk.numbered fun a ha hSame => absurd hSame (hFresh a ha), Option.some.injEq] at hr
    subst hr
    exact ⟨hOk.nonneg, hOk.covered⟩
  | completeStay =>
    simp only [run, bind_eq_ok, require_eq_ok, pure_eq_ok] at h
    obtain ⟨_, -, rfl⟩ := h
    have hEntered : Advances o { o.appendAmendment .checkIn stamp.commandId with status := o.status } :=
      appendAmendment_advances hOk o.status fun r hr => by
        rw [settled_source hOk (by simp) (by simp)] at hr
        cases hr
    refine ⟨(appendAmendment_advances hEntered.ok .checkedOut fun r hr => ?_).ok, hEntered.total⟩
    rw [lateCheckOut_source hEntered.ok.numbered, Option.some.injEq] at hr
    · subst hr
      exact ⟨hOk.nonneg, hOk.covered⟩
    · intro a ha hSame
      obtain hOld | hNew := List.mem_append.mp ha
      · exact absurd hSame (hFresh a hOld)
      · rw [List.mem_singleton.mp hNew]
        simp
  | terminate type =>
    simp only [run, bind_eq_ok, require_eq_ok, expect_eq_ok, pure_eq_ok] at h
    obtain ⟨⟨before, after⟩, hType, _, -, closed, hClosed, rfl⟩ := h
    have hZero : (0 : Int) ≤ 0 ∧ 0 ≤ o.net := ⟨le_rfl, hOk.nonneg.trans hOk.covered⟩
    have hAdvances := (amendWithRevision_advances hOk (by rintro rfl; simp [termination] at hType)
      (by rintro rfl; simp [termination] at hType) (fun _ _ => hZero) hClosed).1
    exact ⟨⟨hAdvances.ok.nonneg, hAdvances.ok.covered, hAdvances.ok.sale, hAdvances.ok.refunds,
      hAdvances.ok.numbered, hAdvances.ok.current, hAdvances.ok.revised, hAdvances.ok.started,
      hAdvances.ok.source⟩, hAdvances.total⟩
  | revokeCheckOut =>
    simp only [run, bind_eq_ok, require_eq_ok, expect_eq_ok, pure_eq_ok] at h
    obtain ⟨_, -, source, hSource, rfl⟩ := h
    exact revokeCheckOut_advances hOk hSource
  | correctOrderOccupant =>
    obtain rfl : o.appendAmendment .correctOrderOccupant stamp.commandId = o' := by simpa [run] using h
    exact appendAmendment_advances hOk o.status fun r hr => hOk.source r (by rwa [occupant_source] at hr)
  | manageOrderOccupants =>
    obtain rfl : o.appendAmendment .manageOrderOccupants stamp.commandId = o' := by simpa [run] using h
    exact appendAmendment_advances hOk o.status fun r hr => by
      rw [settled_source hOk (by simp) (by simp)] at hr
      cases hr
  | recordRefund input =>
    simp only [run, bind_eq_ok] at h
    obtain ⟨effect, hEffect, h⟩ := h
    obtain ⟨hTarget, hPositive, hLimit⟩ := buildRefundEffect_target hEffect
    have hNonneg := hOk.nonneg
    have hCovered := hOk.covered
    exact applyChannelFunds_advances hOk (.inl rfl) (by simp) (by omega) (by omega)
      (fun _ => ⟨by omega, by omega⟩) h
  | reverseFact reversesFactId note =>
    simp only [run, bind_eq_ok] at h
    obtain ⟨effect, hEffect, h⟩ := h
    obtain ⟨original, hMem, hRefund, hAmount, hTarget⟩ := buildReversalEffect_target hEffect
    obtain ⟨hCharged, hLowered⟩ := hOk.refunds original hMem hRefund
    have hNonneg := hOk.nonneg
    have hCovered := hOk.covered
    exact applyChannelFunds_advances hOk (.inr rfl) (by simp) (by omega) (by omega) (fun hIs => by cases hIs) h

theorem stayChange_facts (hOk : o.Ok) {desk : ChannelDesk} {command : ChannelCommand} {target : Int}
    (hTarget : command.saleTarget? = some target) (hLow : target ≤ o.net)
    (h : o.run desk stamp command = .ok o') : o'.facts = o.facts := by
  cases command <;> cases hTarget
  case changeStay type =>
    simp only [run, bind_eq_ok, require_eq_ok] at h
    obtain ⟨_, hStatus, _, -, h⟩ := h
    have hType : type ∈ stayChangeTypes := by
      cases type <;> simp [stayChangeStatuses, stayChangeTypes] at hStatus ⊢
    obtain ⟨_, _, _, -, -, -, -, hChange⟩ := nextRevision_covered
      (o := o.appendAmendment type stamp.commandId) hOk.current hOk.started (fun _ => hOk.covered)
      (fun hOut => absurd hType hOut) h
    exact (hChange hType).2 hLow
  case earlyCheckOut =>
    simp only [run, bind_eq_ok, require_eq_ok, pure_eq_ok] at h
    obtain ⟨_, -, _, -, shortened, hShortened, rfl⟩ := h
    have hType : CommandType.shortenStay ∈ stayChangeTypes := by simp [stayChangeTypes]
    obtain ⟨_, _, _, -, -, -, -, hChange⟩ := nextRevision_covered
      (o := o.appendAmendment .shortenStay stamp.commandId) hOk.current hOk.started (fun _ => hOk.covered)
      (fun hOut => absurd hType hOut) hShortened
    exact (hChange hType).2 hLow

/-! ## Creation -/

theorem create_ok {opening : Nat} {target : Int} (h : create stamp opening target = .ok o) :
    o.Ok ∧ o.saleTotal = max 0 o.needed := by
  let revision : ChannelRevision := ⟨1, 1, .createOrder, target, stamp.clock.now, stamp.clock.today⟩
  let draft : ChannelOrder := ⟨.reserved, 1, [⟨1, .createOrder, stamp.commandId⟩], [], revision, [], opening⟩
  obtain ⟨delta, hDelta, hRevises⟩ := insertRevision_revises (o := draft) h
  have hKind : (if isCorrection revision then ChannelFactKind.correction else .sale) = .sale := rfl
  rw [hKind] at hRevises
  have hDelta : channelRecognitionDelta .sale 0 draft.net target = .ok delta := hDelta
  have hNet := channelRecognitionDelta_net hDelta
  obtain ⟨hTarget, hAmount⟩ := channelRecognitionDelta_sale hDelta hNet
  have hContract : o.contract = target := hRevises.contract
  have hTotal : o.saleTotal = draft.saleTotal + delta := hRevises.saleTotal
  have hEmpty : draft.saleTotal = 0 := rfl
  have hSum := hRevises.net
  have hOpening : draft.net = -opening := by simp [net, draft]
  refine ⟨hRevises.ok (by simp) (fun f hf => nomatch hf) ⟨?_, List.pairwise_singleton ..⟩ ?_ (Nat.le_refl _)
    (Nat.le_refl _) (by omega) (by omega) (by omega), ?_⟩
  · intro a ha
    rw [List.mem_singleton.mp ha]
  · intro checkout hLast
    cases hLast
  · rw [needed]
    omega

theorem reachable_ok (h : Reachable channelSystem o) : o.Ok := by
  refine h.invariant ?_ ?_
  · rintro o ⟨stamp, opening, target, hCreate⟩
    exact (create_ok hCreate).1
  · rintro o e o' - hOk ⟨hFresh, hRun⟩
    exact (run_advances hOk hFresh hRun).ok

end ChannelOrder

open ChannelOrder in
/-- In every state of an order the contract is covered by the recognised net, and stays so under
every accepted command; the sales add up to the most that the contract needed beyond the other
facts in any state of the run, and a stay change up to the recognised net adds none. -/
theorem channel_contract_covered {o₀ o : ChannelOrder} {es : List ChannelEvent}
    (hInit : channelSystem.init o₀) (hRun : Run channelSystem o₀ es o) :
    (0 ≤ o.contract ∧ o.contract ≤ o.net) ∧
    IsGreatest ((fun u => max 0 u.needed) '' Visited channelSystem o₀ es o) o.saleTotal ∧
    ∀ e o', channelSystem.step o e o' → (0 ≤ o'.contract ∧ o'.contract ≤ o'.net) ∧
      ∀ target, e.command.saleTarget? = some target → target ≤ o.net → o'.facts = o.facts := by
  have hStart : Reachable channelSystem o₀ := .of_init hInit
  have hOk := reachable_ok (hStart.run hRun)
  refine ⟨⟨hOk.nonneg, hOk.covered⟩, ?_, ?_⟩
  · refine hRun.isGreatest (fun a e b hReach hStep => ?_) hStart ?_
    · have hBefore := reachable_ok hReach
      have hTotal := (run_advances hBefore hStep.1 hStep.2).total
      have hSale := hBefore.sale
      omega
    · obtain ⟨stamp, opening, target, hCreate⟩ := hInit
      exact (create_ok hCreate).2
  · rintro e o' ⟨hFresh, hStep⟩
    have hNext := (run_advances hOk hFresh hStep).ok
    exact ⟨⟨hNext.nonneg, hNext.covered⟩, fun target hTarget hLow => stayChange_facts hOk hTarget hLow hStep⟩

def sampleStamp (n : Nat) : CommandStamp := ⟨n, n, ⟨n, n⟩⟩

def sampleDesk : ChannelDesk := ⟨true, fun _ => false, fun _ => false⟩

/-- A stay that is shortened and then extended to less than before. -/
theorem channel_contract_covered_sample : ∃ o₀ o : ChannelOrder, ∃ es, channelSystem.init o₀ ∧
    Run channelSystem o₀ es o ∧ o.saleTotal = 100 ∧ o.contract = 90 ∧ o.contract ≤ o.net := by
  let change (n : Nat) (target : Int) : ChannelEvent :=
    ⟨sampleDesk, sampleStamp n, .changeStay .rescheduleStay target⟩
  have hSome : ∃ o₀ o : ChannelOrder, channelSystem.init o₀ ∧
      Run channelSystem o₀ [change 2 60, change 3 90] o ∧ o.saleTotal = 100 ∧ o.contract = 90 := by
    refine ⟨_, _, ⟨sampleStamp 1, 0, 100, rfl⟩, .cons ⟨?_, rfl⟩ (.cons ⟨?_, rfl⟩ (.nil _)), ?_, ?_⟩ <;> decide
  obtain ⟨o₀, o, hInit, hRun, hSale, hContract⟩ := hSome
  exact ⟨o₀, o, _, hInit, hRun, hSale, hContract, (channel_contract_covered hInit hRun).1.2⟩

end GreenPms
