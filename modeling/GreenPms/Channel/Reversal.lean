import Mathlib.Algebra.BigOperators.Ring.List
import Mathlib.Algebra.Ring.Int.Defs
import GreenPms.Channel.Conservation
import GreenPms.Library.Indexes

/-! # Reversing the refunds of a channel

A refund stores what it took from the contract, and its reversal gives exactly that back. After
refunds and reversals in any order the net is that of the remaining refunds alone; the contract is
what their stored effects leave of it.
-/

namespace GreenPms

open Checked TransitionSystem

/-- The commands that write neither a fact nor a pricing revision. -/
def ChannelCommand.quiet : ChannelCommand → Bool
  | .checkIn | .checkOut | .completeStay | .correctOrderOccupant | .manageOrderOccupants => true
  | _ => false

def ChannelCommand.refundAmount? : ChannelCommand → Option Int
  | .recordRefund input => some input.amountMinor
  | _ => none

def ChannelCommand.reverses? : ChannelCommand → Option Nat
  | .reverseFact factId _ => some factId
  | _ => none

/-- The refunds among some facts that none of these facts reverses. -/
def remainingRefunds (facts : List ChannelOperatingFact) : List ChannelOperatingFact :=
  facts.filter fun f => f.kind = .refund &&
    !facts.any fun g => g.kind = .reversal && g.referencesFactId = some f.id

def effectTotal (facts : List ChannelOperatingFact) : Int :=
  (facts.map ChannelOperatingFact.contractEffectMinor).sum

def amountTotal (facts : List ChannelOperatingFact) : Int :=
  (facts.map ChannelOperatingFact.amountMinor).sum

theorem amountTotal_neg (facts : List ChannelOperatingFact) :
    (facts.map fun f => -f.amountMinor).sum = -amountTotal facts := by
  induction facts with
  | nil => rfl
  | cons f facts ih =>
    rw [amountTotal, List.map_cons, List.map_cons, List.sum_cons, List.sum_cons, ih, amountTotal]
    omega

namespace ChannelOrder

def factsSince (o₀ o : ChannelOrder) : List ChannelOperatingFact := o.facts.drop o₀.facts.length

variable {o₀ o o' : ChannelOrder} {stamp : CommandStamp}

/-! ## One funds command -/

structure Posts (o o' : ChannelOrder) (fact : ChannelOperatingFact) : Prop where
  fresh : ∀ f ∈ o.facts, f.id ≠ fact.id
  facts : o'.facts = o.facts ++ [fact]
  opening : o'.openingRefundMinor = o.openingRefundMinor
  contract : o'.contract = o.contract + fact.contractEffectMinor

theorem Posts.net {fact : ChannelOperatingFact} (h : Posts o o' fact) : o'.net = o.net + fact.amountMinor := by
  simp only [ChannelOrder.net, h.facts, h.opening, List.map_append, List.sum_append, List.map_singleton,
    List.sum_singleton]
  omega

theorem fundsRevision_silent {type : CommandType} (hType : type = .recordRefund ∨ type = .reverseFact)
    (hStarted : 1 ≤ o.currentRevision.revisionNo) (clock : Clock) (prior net target : Int) :
    revisionDelta prior net (o.nextRevision type clock target) = .ok 0 := by
  have hNotCorrection : isCorrection (o.nextRevision type clock target) = false := by
    obtain rfl | rfl := hType <;> rfl
  have hNotSale : isSale (o.nextRevision type clock target) = false := by
    have hLater : o.currentRevision.revisionNo ≠ 0 := by omega
    obtain rfl | rfl := hType <;> simp [isSale, nextRevision, stayChangeTypes, hLater]
  rw [revisionDelta, hNotCorrection, if_neg Bool.false_ne_true, hNotSale, if_neg Bool.false_ne_true]

theorem applyChannelFunds_posts (hOk : o.Ok) {type : CommandType} {kind : ChannelFactKind} {amount : Int}
    {effect : ChannelFundsEffect} (hType : type = .recordRefund ∨ type = .reverseFact)
    (h : o.applyChannelFunds stamp type kind amount effect = .ok o') :
    Posts o o' ⟨stamp.factId, kind, amount, effect.contractTargetMinor - o.contract, effect.businessDate,
      some effect.referencesFactId, effect.refundReference, effect.note, stamp.clock.now⟩ := by
  simp only [applyChannelFunds, bind_eq_ok] at h
  obtain ⟨funded, hFunded, h⟩ := h
  have hFresh : ∀ f ∈ o.facts, f.id ≠ stamp.factId := by
    simp only [insertFact, bind_eq_ok, require_eq_ok] at hFunded
    obtain ⟨_, hFresh, -⟩ := hFunded
    exact hFresh
  obtain rfl := insertFact_eq_ok hFunded
  split at h
  · next hSame =>
    obtain rfl := (pure_eq_ok.mp h).symm
    refine ⟨hFresh, rfl, rfl, ?_⟩
    have hContract : effect.contractTargetMinor = o.contract := hSame
    change o.contract = o.contract + (effect.contractTargetMinor - o.contract)
    omega
  · obtain ⟨delta, hDelta, hRevises⟩ := insertRevision_revises h
    have hNone : delta = 0 :=
      Except.ok.inj (hDelta.symm.trans (fundsRevision_silent hType (by exact hOk.started) _ _ _ _))
    refine ⟨hFresh, ?_, hRevises.opening, ?_⟩
    · obtain ⟨-, hFacts⟩ | ⟨fact, -, -, hAmount, hNonzero⟩ := hRevises.facts
      · exact hFacts
      · exact absurd hNone hNonzero
    · rw [hRevises.contract]
      change effect.contractTargetMinor = o.contract + (effect.contractTargetMinor - o.contract)
      omega

/-- A refund takes its amount from the net, and from the contract what the net no longer covers. -/
theorem recordRefund_posts (hOk : o.Ok) {desk : ChannelDesk} {input : RefundInput}
    (h : o.run desk stamp (.recordRefund input) = .ok o') :
    ∃ fact, Posts o o' fact ∧ fact.kind = .refund ∧ fact.amountMinor = -input.amountMinor ∧
      0 < input.amountMinor ∧ 0 ≤ o'.net ∧ o'.contract = min o.contract o'.net := by
  simp only [run, bind_eq_ok] at h
  obtain ⟨effect, hEffect, h⟩ := h
  have hPosts := applyChannelFunds_posts hOk (.inl rfl) h
  obtain ⟨hTarget, hPositive, hLimit⟩ := buildRefundEffect_target hEffect
  have hAmount : effect.amountMinor = input.amountMinor := by
    simp only [buildRefundEffect, bind_eq_ok, require_eq_ok, expect_eq_ok, pure_eq_ok] at hEffect
    obtain ⟨_, -, _, -, _, -, _, -, _, -, _, -, sale, -, _, -, _, -, rfl⟩ := hEffect
    rfl
  have hContract := hPosts.contract
  have hNet := hPosts.net
  simp only at hContract hNet
  exact ⟨_, hPosts, rfl, by rw [hAmount], hAmount ▸ hPositive, by omega, by omega⟩

theorem reverseFact_posts (hOk : o.Ok) {desk : ChannelDesk} {factId : Nat} {note : String}
    (h : o.run desk stamp (.reverseFact factId note) = .ok o') :
    ∃ original ∈ o.facts, ∃ fact, Posts o o' fact ∧ original.kind = .refund ∧ original.id = factId ∧
      o.reversed factId = false ∧ fact.kind = .reversal ∧ fact.referencesFactId = some factId ∧
      fact.amountMinor = -original.amountMinor ∧ fact.contractEffectMinor = -original.contractEffectMinor := by
  simp only [run, bind_eq_ok] at h
  obtain ⟨effect, hEffect, h⟩ := h
  have hPosts := applyChannelFunds_posts hOk (.inr rfl) h
  simp only [buildReversalEffect, bind_eq_ok, require_eq_ok, expect_eq_ok, pure_eq_ok] at hEffect
  obtain ⟨_, -, _, -, original, hFound, _, hOpen, _, -, _, -, _, -, rfl⟩ := hEffect
  have hIs := List.find?_some hFound
  simp only [Bool.and_eq_true, decide_eq_true_eq] at hIs
  obtain ⟨hId, hKind⟩ := hIs
  subst hId
  refine ⟨original, List.mem_of_find?_eq_some hFound, _, hPosts, hKind, rfl, hOpen, rfl, rfl, rfl, ?_⟩
  simp only
  omega

theorem quiet_keeps {desk : ChannelDesk} {command : ChannelCommand} (hQuiet : command.quiet = true)
    (h : o.run desk stamp command = .ok o') :
    o'.facts = o.facts ∧ o'.openingRefundMinor = o.openingRefundMinor ∧ o'.contract = o.contract := by
  cases command with
  | checkIn | checkOut | completeStay =>
    simp only [run, bind_eq_ok, pure_eq_ok] at h
    obtain ⟨-, -, rfl⟩ := h
    exact ⟨rfl, rfl, rfl⟩
  | correctOrderOccupant | manageOrderOccupants =>
    cases h
    exact ⟨rfl, rfl, rfl⟩
  | changeStay | earlyCheckOut | repriceOrder | terminate | revokeCheckOut | recordRefund | reverseFact =>
    cases hQuiet

/-! ## Runs of refunds and reversals -/

theorem remainingRefunds_refund {new : List ChannelOperatingFact} {fact : ChannelOperatingFact}
    (hKind : fact.kind = .refund) (hOpen : ∀ g ∈ new, g.kind = .reversal → g.referencesFactId ≠ some fact.id) :
    remainingRefunds (new ++ [fact]) = remainingRefunds new ++ [fact] := by
  have hNone : (new ++ [fact]).any (fun g => g.kind = .reversal && g.referencesFactId = some fact.id) = false := by
    rw [List.any_append, Bool.or_eq_false_iff, List.any_eq_false]
    refine ⟨fun g hg => ?_, by simp [hKind]⟩
    simpa using hOpen g hg
  rw [remainingRefunds, List.filter_append]
  congr 1
  · refine List.filter_congr fun f _ => ?_
    simp [hKind]
  · exact List.filter_eq_self.mpr fun f hf => by rw [List.mem_singleton.mp hf, hNone, hKind]; rfl

theorem remainingRefunds_reversal {new : List ChannelOperatingFact} {fact : ChannelOperatingFact} {factId : Nat}
    (hKind : fact.kind = .reversal) (hReverses : fact.referencesFactId = some factId) :
    remainingRefunds (new ++ [fact]) = (remainingRefunds new).filter fun f => !decide (f.id = factId) := by
  have hNot : [fact].filter (fun f => f.kind = .refund && !(new ++ [fact]).any fun g =>
      g.kind = .reversal && g.referencesFactId = some f.id) = [] := by simp [hKind]
  rw [remainingRefunds, List.filter_append, hNot, List.append_nil, remainingRefunds, List.filter_filter]
  refine List.filter_congr fun f _ => ?_
  have hSame : (some factId = some f.id) ↔ f.id = factId := by rw [Option.some.injEq]; exact eq_comm
  simp only [List.any_append, List.any_cons, List.any_nil, hKind, hReverses, hSame, Bool.or_false, decide_true,
    Bool.true_and, Bool.not_or]
  rw [Bool.and_comm (!decide _), Bool.and_assoc]

theorem total_without {facts : List ChannelOperatingFact} (hIds : (facts.map ChannelOperatingFact.id).Nodup)
    {original : ChannelOperatingFact} (hMem : original ∈ facts) (w : ChannelOperatingFact → Int) :
    ((facts.filter fun f => !decide (f.id = original.id)).map w).sum = (facts.map w).sum - w original := by
  have hPerm := (List.filter_append_perm (fun f => f.id = original.id) facts).map w
  rw [Indexes.filter_eq_singleton (List.pairwise_map.mp hIds) hMem] at hPerm
  have hSum := hPerm.sum_eq
  rw [List.map_append, List.sum_append, List.map_singleton, List.sum_singleton] at hSum
  omega

/-- The order after refunds and reversals, by the facts that they added. -/
structure Accounted (o₀ o : ChannelOrder) (new : List ChannelOperatingFact) : Prop where
  facts : o.facts = o₀.facts ++ new
  opening : o.openingRefundMinor = o₀.openingRefundMinor
  ids : (new.map ChannelOperatingFact.id).Nodup
  reversals : ∀ g ∈ new, g.kind = .reversal → ∃ f ∈ new, g.referencesFactId = some f.id
  net : o.net = o₀.net + amountTotal (remainingRefunds new)
  contract : o.contract = o₀.contract + effectTotal (remainingRefunds new)

theorem Accounted.refl (o : ChannelOrder) : Accounted o o [] where
  facts := (List.append_nil _).symm
  opening := rfl
  ids := List.nodup_nil
  reversals _ hg := nomatch hg
  net := (Int.add_zero _).symm
  contract := (Int.add_zero _).symm

namespace Accounted

variable {new : List ChannelOperatingFact} {fact : ChannelOperatingFact}

theorem posts_ids (h : Accounted o₀ o new) (hPosts : Posts o o' fact) :
    ((new ++ [fact]).map ChannelOperatingFact.id).Nodup := by
  rw [List.map_append, List.map_singleton]
  refine List.nodup_append.mpr ⟨h.ids, List.nodup_singleton _, fun a ha b hb => ?_⟩
  obtain ⟨f, hf, rfl⟩ := List.mem_map.mp ha
  rw [List.mem_singleton.mp hb]
  exact hPosts.fresh f (by rw [h.facts]; exact List.mem_append_right _ hf)

theorem posts_facts (h : Accounted o₀ o new) (hPosts : Posts o o' fact) : o'.facts = o₀.facts ++ (new ++ [fact]) := by
  rw [hPosts.facts, h.facts, List.append_assoc]

theorem refund (h : Accounted o₀ o new) (hPosts : Posts o o' fact) (hKind : fact.kind = .refund) :
    Accounted o₀ o' (new ++ [fact]) := by
  have hOpen : ∀ g ∈ new, g.kind = .reversal → g.referencesFactId ≠ some fact.id := by
    intro g hg hReversal hSame
    obtain ⟨f, hf, hRef⟩ := h.reversals g hg hReversal
    rw [hRef, Option.some.injEq] at hSame
    exact hPosts.fresh f (by rw [h.facts]; exact List.mem_append_right _ hf) hSame
  have hRemaining := remainingRefunds_refund hKind hOpen
  refine ⟨h.posts_facts hPosts, hPosts.opening.trans h.opening, h.posts_ids hPosts, fun g hg hReversal => ?_, ?_, ?_⟩
  · obtain hOld | hNew := List.mem_append.mp hg
    · obtain ⟨f, hf, hRef⟩ := h.reversals g hOld hReversal
      exact ⟨f, List.mem_append_left _ hf, hRef⟩
    · rw [List.mem_singleton.mp hNew, hKind] at hReversal
      cases hReversal
  · rw [hPosts.net, h.net, hRemaining, amountTotal, amountTotal, List.map_append, List.sum_append, List.map_singleton,
      List.sum_singleton, Int.add_assoc]
  · rw [hPosts.contract, h.contract, hRemaining, effectTotal, effectTotal, List.map_append, List.sum_append,
      List.map_singleton, List.sum_singleton, Int.add_assoc]

theorem reversal (h : Accounted o₀ o new) (hPosts : Posts o o' fact) {original : ChannelOperatingFact}
    (hOriginal : original ∈ remainingRefunds new) (hKind : fact.kind = .reversal)
    (hReverses : fact.referencesFactId = some original.id) (hAmount : fact.amountMinor = -original.amountMinor)
    (hEffect : fact.contractEffectMinor = -original.contractEffectMinor) : Accounted o₀ o' (new ++ [fact]) := by
  have hRemaining : remainingRefunds (new ++ [fact]) =
      (remainingRefunds new).filter fun f => !decide (f.id = original.id) := remainingRefunds_reversal hKind hReverses
  have hIds : ((remainingRefunds new).map ChannelOperatingFact.id).Nodup := h.ids.sublist (List.filter_sublist.map _)
  refine ⟨h.posts_facts hPosts, hPosts.opening.trans h.opening, h.posts_ids hPosts, fun g hg hReversal => ?_, ?_, ?_⟩
  · obtain hOld | hNew := List.mem_append.mp hg
    · obtain ⟨f, hf, hRef⟩ := h.reversals g hOld hReversal
      exact ⟨f, List.mem_append_left _ hf, hRef⟩
    · rw [List.mem_singleton.mp hNew]
      exact ⟨original, List.mem_append_left _ (List.mem_filter.mp hOriginal).1, hReverses⟩
  · have hTotal := total_without hIds hOriginal ChannelOperatingFact.amountMinor
    rw [hPosts.net, h.net, hRemaining, amountTotal, amountTotal]
    omega
  · have hTotal := total_without hIds hOriginal ChannelOperatingFact.contractEffectMinor
    rw [hPosts.contract, h.contract, hRemaining, effectTotal, effectTotal]
    omega

end Accounted

/-- A step of a run that only records refunds and reverses refunds which the order did not have
at the start. -/
def FundsStep (o₀ : ChannelOrder) (e : ChannelEvent) : Prop :=
  e.command.quiet = true ∨ (∃ amount, e.command.refundAmount? = some amount) ∨
    ∃ factId, e.command.reverses? = some factId ∧ ∀ f ∈ o₀.facts, f.id ≠ factId

/-- A refund fact of some stage of the run takes from the contract what it takes from the net, or
nothing, if the contract is all of the net or none of it. -/
def Scaled (k : Int) (new : List ChannelOperatingFact) : Prop :=
  ∀ f ∈ new, f.kind = .refund → f.contractEffectMinor = k * f.amountMinor

theorem Scaled.effectTotal {k : Int} {new : List ChannelOperatingFact} (h : Scaled k new) :
    effectTotal (remainingRefunds new) = k * amountTotal (remainingRefunds new) := by
  have hEach : ∀ f ∈ remainingRefunds new, f.contractEffectMinor = k * f.amountMinor := by
    intro f hf
    obtain ⟨hMem, hIs⟩ := List.mem_filter.mp hf
    simp only [Bool.and_eq_true, decide_eq_true_eq] at hIs
    exact h f hMem hIs.1
  rw [GreenPms.effectTotal, amountTotal, List.map_congr_left hEach]
  exact List.sum_map_mul_left ..

theorem Accounted.step {new : List ChannelOperatingFact} (h : Accounted o₀ o new) (hOk : o.Ok) {e : ChannelEvent}
    (hFunds : FundsStep o₀ e) (hStep : channelSystem.step o e o') :
    ∃ new', Accounted o₀ o' new' ∧
      ∀ k, k = 0 ∨ k = 1 → o₀.contract = k * o₀.net → Scaled k new → Scaled k new' := by
  obtain ⟨desk, stamp, command⟩ := e
  obtain ⟨-, hRun⟩ := hStep
  obtain hQuiet | ⟨amount, hAmount⟩ | ⟨factId, hFact, hLater⟩ := hFunds
  · obtain ⟨hFacts, hOpening, hContract⟩ := quiet_keeps hQuiet hRun
    have hNet : o'.net = o.net := by rw [ChannelOrder.net, hFacts, hOpening]; rfl
    exact ⟨new, ⟨hFacts.trans h.facts, hOpening.trans h.opening, h.ids, h.reversals, hNet.trans h.net,
      hContract.trans h.contract⟩, fun _ _ _ hScaled => hScaled⟩
  · cases command with
    | recordRefund input =>
      obtain ⟨fact, hPosts, hKind, hAmount, hPositive, hNonneg, hContract⟩ := recordRefund_posts hOk hRun
      refine ⟨_, h.refund hPosts hKind, fun k hk hStart hScaled f hf hRefund => ?_⟩
      obtain hOld | hNew := List.mem_append.mp hf
      · exact hScaled f hOld hRefund
      · rw [List.mem_singleton.mp hNew]
        have hEffect := hPosts.contract
        have hNet := hPosts.net
        have hBefore : o.contract = k * o.net := by
          rw [h.contract, h.net, hScaled.effectTotal, hStart, Int.mul_add]
        obtain rfl | rfl := hk <;> omega
    | _ => cases hAmount
  · cases command with
    | reverseFact reversesFactId note =>
      cases hFact
      obtain ⟨original, hOriginal, fact, hPosts, hRefund, hId, hOpen, hKind, hReverses, hAmount, hEffect⟩ :=
        reverseFact_posts hOk hRun
      have hNew : original ∈ new := by
        rw [h.facts] at hOriginal
        exact (List.mem_append.mp hOriginal).resolve_left fun hOld => hLater original hOld hId
      have hRemaining : original ∈ remainingRefunds new := by
        refine List.mem_filter.mpr ⟨hNew, ?_⟩
        rw [ChannelOrder.reversed, h.facts, List.any_append, Bool.or_eq_false_iff] at hOpen
        rw [hId, hOpen.2, hRefund]
        rfl
      refine ⟨_, h.reversal hPosts hRemaining hKind (hReverses.trans (congrArg some hId.symm)) hAmount hEffect,
        fun k _ _ hScaled f hf hIs => ?_⟩
      obtain hOld | hLast := List.mem_append.mp hf
      · exact hScaled f hOld hIs
      · rw [List.mem_singleton.mp hLast, hKind] at hIs
        cases hIs
    | _ => cases hFact

theorem run_accounted {es : List ChannelEvent} (hReach : Reachable channelSystem o₀)
    (hRun : Run channelSystem o₀ es o) (hFunds : ∀ e ∈ es, FundsStep o₀ e) :
    Accounted o₀ o (o₀.factsSince o) ∧ ∀ k, k = 0 ∨ k = 1 → o₀.contract = k * o₀.net → o.contract = k * o.net := by
  have hSome : ∀ {a b : ChannelOrder} {es : List ChannelEvent}, Run channelSystem a es b → Reachable channelSystem a →
      (∀ e ∈ es, FundsStep o₀ e) → ∀ new, Accounted o₀ a new → ∃ new', Accounted o₀ b new' ∧
        ∀ k, k = 0 ∨ k = 1 → o₀.contract = k * o₀.net → Scaled k new → Scaled k new' := by
    intro a b es hRun
    induction hRun with
    | nil => exact fun _ _ new h => ⟨new, h, fun _ _ _ hScaled => hScaled⟩
    | cons hStep _ ih =>
      intro hReach hFunds new h
      obtain ⟨hHere, hRest⟩ := List.forall_mem_cons.mp hFunds
      obtain ⟨next, hNext, hKeeps⟩ := h.step (reachable_ok hReach) hHere hStep
      obtain ⟨last, hLast, hRestKeeps⟩ := ih (hReach.step hStep) hRest next hNext
      exact ⟨last, hLast, fun k hk hStart hScaled => hRestKeeps k hk hStart (hKeeps k hk hStart hScaled)⟩
  obtain ⟨new, hNew, hScaled⟩ := hSome hRun hReach hFunds [] (.refl o₀)
  have hSince : o₀.factsSince o = new := by rw [factsSince, hNew.facts, List.drop_left]
  rw [hSince]
  refine ⟨hNew, fun k hk hStart => ?_⟩
  rw [hNew.contract, hNew.net, (hScaled k hk hStart fun _ hf => nomatch hf).effectTotal, hStart, Int.mul_add]

/-! ## Runs of refunds alone -/

def refundTotal (es : List ChannelEvent) : Int := (es.filterMap fun e => e.command.refundAmount?).sum

theorem run_refunds {fs : List ChannelEvent} (hReach : Reachable channelSystem o₀) (hRun : Run channelSystem o₀ fs o)
    (hRefunds : ∀ e ∈ fs, e.command.quiet = true ∨ ∃ amount, e.command.refundAmount? = some amount) :
    o.net = o₀.net - refundTotal fs ∧ o.net ≤ o₀.net ∧ o.contract = min o₀.contract o.net := by
  induction hRun with
  | nil o =>
    have hCovered := (reachable_ok hReach).covered
    exact ⟨(Int.sub_zero _).symm, Int.le_refl _, by omega⟩
  | @cons a b c e es hStep _ ih =>
    obtain ⟨hHere, hRest⟩ := List.forall_mem_cons.mp hRefunds
    obtain ⟨hNet, hLess, hContract⟩ := ih (hReach.step hStep) hRest
    obtain ⟨desk, stamp, command⟩ := e
    have hOk := reachable_ok hReach
    obtain hQuiet | ⟨amount, hAmount⟩ := hHere
    · obtain ⟨hFacts, hOpening, hSame⟩ := quiet_keeps hQuiet hStep.2
      have hSameNet : b.net = a.net := by rw [ChannelOrder.net, hFacts, hOpening]; rfl
      have hNone : command.refundAmount? = none := by
        cases command <;> first | rfl | cases hQuiet
      have hTotal : refundTotal (⟨desk, stamp, command⟩ :: es) = refundTotal es :=
        congrArg List.sum (List.filterMap_cons_none hNone)
      omega
    · cases command with
      | recordRefund input =>
        obtain ⟨fact, hPosts, -, hFact, hPositive, -, hFirst⟩ := recordRefund_posts hOk hStep.2
        have hPosted := hPosts.net
        have hTotal : refundTotal (⟨desk, stamp, .recordRefund input⟩ :: es) = input.amountMinor + refundTotal es := rfl
        omega
      | _ => cases hAmount

end ChannelOrder

open ChannelOrder in
/-- After refunds and reversals of them in any order, the net is that of recording only the refunds
that remain, and the contract is what was there less the effects stored with these. It is the
contract of recording only them exactly if their effects add up to what that takes away, and so
whenever the contract was all of the net or none of it at the start. -/
theorem reversal_gives_back_stored_effect {o₀ o o' : ChannelOrder} {es fs : List ChannelEvent}
    (hReach : Reachable channelSystem o₀) (hRun : Run channelSystem o₀ es o) (hFunds : ∀ e ∈ es, FundsStep o₀ e)
    (hOnly : Run channelSystem o₀ fs o')
    (hRefunds : ∀ e ∈ fs, e.command.quiet = true ∨ ∃ amount, e.command.refundAmount? = some amount)
    (hSame : (fs.filterMap fun e => e.command.refundAmount?).Perm
      ((remainingRefunds (o₀.factsSince o)).map fun f => -f.amountMinor)) :
    o.net = o'.net ∧
    o.contract = o₀.contract + effectTotal (remainingRefunds (o₀.factsSince o)) ∧
    (o.contract = o'.contract ↔
      effectTotal (remainingRefunds (o₀.factsSince o)) = min o₀.contract o.net - o₀.contract) ∧
    (o₀.contract = o₀.net ∨ o₀.contract = 0 → o.contract = o'.contract) := by
  obtain ⟨hAccounted, hScaled⟩ := run_accounted hReach hRun hFunds
  obtain ⟨hNet, -, hContract⟩ := run_refunds hReach hOnly hRefunds
  have hSame : o.net = o'.net := by
    have hTotal : refundTotal fs = -amountTotal (remainingRefunds (o₀.factsSince o)) := by
      rw [refundTotal, hSame.sum_eq, amountTotal_neg]
    have hHere := hAccounted.net
    omega
  have hEffect := hAccounted.contract
  refine ⟨hSame, hEffect, by omega, fun hStart => ?_⟩
  have hOnlyFunds : ∀ e ∈ fs, FundsStep o₀ e := fun e he => (hRefunds e he).imp id .inl
  obtain ⟨-, hOnlyScaled⟩ := run_accounted hReach hOnly hOnlyFunds
  obtain hAll | hNone := hStart
  · rw [hScaled 1 (.inr rfl) (by omega), hOnlyScaled 1 (.inr rfl) (by omega), hSame]
  · rw [hScaled 0 (.inl rfl) (by omega), hOnlyScaled 0 (.inl rfl) (by omega), hSame]

/-! ## A refund that is reversed before a later one -/

def sampleRefund (n : Nat) (amount : Int) (reference : String) : ChannelEvent :=
  ⟨sampleDesk, sampleStamp n, .recordRefund ⟨amount, some 1, reference, "n", none⟩⟩

def sampleReversal (n factId : Nat) : ChannelEvent := ⟨sampleDesk, sampleStamp n, .reverseFact factId "n"⟩

def sampleSale : ChannelOperatingFact := ⟨1, .sale, 120, 0, 1, none, none, "渠道成交应结金额登记", 1⟩

/-- An order of 120 that a change of its dates lowers to 100. -/
def sampleLowered : ChannelOrder where
  status := .reserved
  version := 2
  amendments := [⟨1, .createOrder, 1⟩, ⟨2, .rescheduleStay, 2⟩]
  revisions := [⟨1, 1, .createOrder, 120, 1, 1⟩, ⟨2, 2, .rescheduleStay, 100, 2, 2⟩]
  currentRevision := ⟨2, 2, .rescheduleStay, 100, 2, 2⟩
  facts := [sampleSale]
  openingRefundMinor := 0

/-- The order after a refund of 30. -/
def sampleRefunded : ChannelOrder where
  status := .reserved
  version := 3
  amendments := [⟨1, .createOrder, 1⟩, ⟨2, .rescheduleStay, 2⟩, ⟨3, .recordRefund, 3⟩]
  revisions := [⟨1, 1, .createOrder, 120, 1, 1⟩, ⟨2, 2, .rescheduleStay, 100, 2, 2⟩, ⟨3, 3, .recordRefund, 90, 3, 3⟩]
  currentRevision := ⟨3, 3, .recordRefund, 90, 3, 3⟩
  facts := [sampleSale, ⟨3, .refund, -30, -10, 3, some 1, some "a", "n", 3⟩]
  openingRefundMinor := 0

namespace ChannelOrder

theorem originalSale_of_only {o : ChannelOrder} {sale : ChannelOperatingFact} (hFirst : o.facts.head? = some sale)
    (hKind : sale.kind = .sale) (hOnly : ∀ f ∈ o.facts, f.kind = .sale → f = sale) :
    o.originalSale = some sale := by
  have hSorted := List.mergeSort_perm o.facts fun a b =>
    a.createdAt < b.createdAt || (a.createdAt == b.createdAt && a.id ≤ b.id)
  rw [originalSale, Indexes.find?_perm hSorted]
  · obtain ⟨rest, hFacts⟩ := List.head?_eq_some_iff.mp hFirst
    rw [hFacts, List.find?_cons_of_pos (by simpa using hKind)]
  · intro a ha b hb hSale hSale'
    have hEach := fun f (hf : f ∈ o.facts.mergeSort _) => hOnly f (hSorted.mem_iff.mp hf)
    rw [hEach a ha (by simpa using hSale), hEach b hb (by simpa using hSale')]

theorem sampleLowered_reachable : Reachable channelSystem sampleLowered :=
  ⟨_, [⟨sampleDesk, sampleStamp 2, .changeStay .rescheduleStay 100⟩], ⟨sampleStamp 1, 0, 120, rfl⟩,
    .single ⟨by decide, rfl⟩⟩

/-- The reversed refund gives back 10, the later one keeps its 20. -/
theorem sampleLowered_runs : ∃ o o', Run channelSystem sampleLowered
      [sampleRefund 3 30 "a", sampleRefund 4 20 "b", sampleReversal 5 3] o ∧
    Run channelSystem sampleLowered [sampleRefund 4 20 "b"] o' ∧
    remainingRefunds (sampleLowered.factsSince o) = [⟨4, .refund, -20, -20, 4, some 1, some "b", "n", 4⟩] ∧
    o.contract = 80 ∧ o'.contract = 100 := by
  have hSold : sampleLowered.originalSale = some sampleSale := originalSale_of_only rfl rfl (by decide)
  have hSale : sampleRefunded.originalSale = some sampleSale := originalSale_of_only rfl rfl (by decide)
  have hStart : sampleLowered.run sampleDesk (sampleStamp 3) (sampleRefund 3 30 "a").command = .ok sampleRefunded := by
    simp only [run, sampleRefund, buildRefundEffect, hSold]
    rfl
  have hSecond : ∃ o, sampleRefunded.run sampleDesk (sampleStamp 4) (sampleRefund 4 20 "b").command = .ok o ∧
      ∃ o', o.run sampleDesk (sampleStamp 5) (sampleReversal 5 3).command = .ok o' ∧
      (∀ a ∈ o.amendments, a.commandId ≠ 5) ∧
      remainingRefunds (sampleLowered.factsSince o') = [⟨4, .refund, -20, -20, 4, some 1, some "b", "n", 4⟩] ∧
      o'.contract = 80 := by
    simp only [run, sampleRefund, buildRefundEffect, hSale]
    refine ⟨_, rfl, _, rfl, ?_, ?_, ?_⟩ <;> decide
  obtain ⟨o, hFirst, o', hRun, hFresh, hRemaining, hContract⟩ := hSecond
  have hAlone : ∃ o, sampleLowered.run sampleDesk (sampleStamp 4) (sampleRefund 4 20 "b").command = .ok o ∧
      o.contract = 100 := by
    simp only [run, sampleRefund, buildRefundEffect, hSold]
    refine ⟨_, rfl, ?_⟩
    decide
  obtain ⟨alone, hAloneRun, hAloneContract⟩ := hAlone
  refine ⟨o', alone, .cons ⟨by decide, hStart⟩ ?_, .single ⟨by decide, hAloneRun⟩, hRemaining,
    hContract, hAloneContract⟩
  exact .cons ⟨by decide, hFirst⟩ (.single ⟨hFresh, hRun⟩)

theorem sampleLowered_funds : ∀ e ∈ [sampleRefund 3 30 "a", sampleRefund 4 20 "b", sampleReversal 5 3],
    FundsStep sampleLowered e := by
  simp only [List.forall_mem_cons]
  refine ⟨.inr (.inl ⟨30, rfl⟩), .inr (.inl ⟨20, rfl⟩), .inr (.inr ⟨3, rfl, by decide⟩), nofun⟩

theorem sampleLowered_refunds : ∀ e ∈ [sampleRefund 4 20 "b"],
    e.command.quiet = true ∨ ∃ amount, e.command.refundAmount? = some amount :=
  List.forall_mem_singleton.mpr (.inr ⟨20, rfl⟩)

end ChannelOrder

open ChannelOrder in
/-- A reversal is not a true undo: 100 falls to 80, and would be 100 with the other refund alone. -/
theorem reversal_not_undone : ¬ ∀ (o₀ o o' : ChannelOrder) (es fs : List ChannelEvent), Reachable channelSystem o₀ →
    Run channelSystem o₀ es o → (∀ e ∈ es, FundsStep o₀ e) → Run channelSystem o₀ fs o' →
    (∀ e ∈ fs, e.command.quiet = true ∨ ∃ amount, e.command.refundAmount? = some amount) →
    (fs.filterMap fun e => e.command.refundAmount?).Perm
      ((remainingRefunds (o₀.factsSince o)).map fun f => -f.amountMinor) →
    o.contract = o'.contract ∧ o.net = o'.net := by
  intro h
  obtain ⟨o, o', hRun, hOnly, hRemaining, hContract, hAlone⟩ := sampleLowered_runs
  have hUndone := (h _ o o' _ _ sampleLowered_reachable hRun sampleLowered_funds hOnly sampleLowered_refunds
    (by rw [hRemaining]; exact List.Perm.refl _)).1
  rw [hContract, hAlone] at hUndone
  cases hUndone

open ChannelOrder in
theorem reversal_gives_back_stored_effect_sample : ∃ o o', Run channelSystem sampleLowered
      [sampleRefund 3 30 "a", sampleRefund 4 20 "b", sampleReversal 5 3] o ∧
    Run channelSystem sampleLowered [sampleRefund 4 20 "b"] o' ∧ o.net = o'.net ∧ o.contract = 100 + -20 := by
  obtain ⟨o, o', hRun, hOnly, hRemaining, -, -⟩ := sampleLowered_runs
  obtain ⟨hNet, hContract, -⟩ := reversal_gives_back_stored_effect sampleLowered_reachable hRun sampleLowered_funds hOnly
    sampleLowered_refunds (by rw [hRemaining]; exact List.Perm.refl _)
  rw [hRemaining] at hContract
  exact ⟨o, o', hRun, hOnly, hNet, hContract⟩

end GreenPms
