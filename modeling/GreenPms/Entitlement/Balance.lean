import GreenPms.Entitlement.Ledger
import GreenPms.Library.Folds

/-! # Balances of lots

What is available of a lot is what was put into it less the nights that are taken, and how each
operation on the coverage of an order changes it.
-/

namespace GreenPms

open Checked Totals Folds

namespace EntitlementTables

variable {t : EntitlementTables}

/-! ## Nights -/

def coveredNights (t : EntitlementTables) (lotId : Nat) : Nat :=
  t.coverage.countP fun c => c.lotId = lotId && t.live c

/-- The nights of a conversion after the stay have no coverage item. -/
def conversionNights (t : EntitlementTables) (lotId : Nat) : Nat :=
  t.ledger.countP fun f => (f.lotId = lotId && f.coverageId = none) && f.entryType = .conversionConsume

def entered (t : EntitlementTables) (lotId : Nat) (type : LedgerEntryType) : Int :=
  total (fun f => f.lotId = lotId && f.entryType = type) LedgerFact.quantityDelta t.ledger

theorem Ok.covered_total (h : t.Ok) (lotId : Nat) :
    total (fun f => (f.lotId = lotId && f.entryType ≠ .expire) && f.coverageId.isSome) LedgerFact.quantityDelta
      t.ledger = -t.coveredNights lotId := by
  let ofLot : Nat → Bool := fun id => t.coverage.any fun c => c.id = id && c.lotId = lotId
  have hOfLot : ∀ c ∈ t.coverage, ofLot c.id = decide (c.lotId = lotId) := by
    intro c hc
    rw [Bool.eq_iff_iff, decide_eq_true_eq, List.any_eq_true]
    constructor
    · rintro ⟨d, hd, hIn⟩
      simp only [Bool.and_eq_true, decide_eq_true_eq] at hIn
      obtain rfl := h.eq_of_id hd hc hIn.1
      exact hIn.2
    · exact fun hLot => ⟨c, hc, by simpa using hLot⟩
  have hGroups := total_groups (k := LedgerFact.coverageId)
    (p := fun f => f.entryType ≠ .expire && f.coverageId.isSome) (w := LedgerFact.quantityDelta) h.keys
    (fun f (hf : f ∈ t.ledger) hIn => ?_) ofLot
  · have hFacts : total (fun f => (f.lotId = lotId && f.entryType ≠ .expire) && f.coverageId.isSome)
        LedgerFact.quantityDelta t.ledger =
        total (fun f => (f.entryType ≠ .expire && f.coverageId.isSome) && f.coverageId.any ofLot)
          LedgerFact.quantityDelta t.ledger := by
      refine total_congr (fun f hf => ?_) fun _ _ _ => rfl
      cases hCoverage : f.coverageId with
      | none => simp
      | some id =>
        obtain ⟨c, hc, rfl, hLot⟩ := h.facts f hf id hCoverage
        simp only [Option.isSome_some, Option.any_some, Bool.and_true, hOfLot c hc, hLot]
        exact Bool.and_comm ..
    have hItems : total (fun c => ofLot c.id)
        (fun c => total (fun f => (f.entryType ≠ .expire && f.coverageId.isSome) && f.coverageId = some c.id)
          LedgerFact.quantityDelta t.ledger) t.coverage =
        total (fun c => c.lotId = lotId && t.live c) (fun _ => -1) t.coverage := by
      have hWeights : total (fun c => ofLot c.id)
          (fun c => total (fun f => (f.entryType ≠ .expire && f.coverageId.isSome) && f.coverageId = some c.id)
            LedgerFact.quantityDelta t.ledger) t.coverage =
          total (fun c => c.lotId = lotId) (fun c => if t.live c then -1 else 0) t.coverage := by
        refine total_congr hOfLot fun c hc _ => ?_
        rw [← h.taken hc]
        refine total_congr (fun f _ => ?_) fun _ _ _ => rfl
        cases f.coverageId <;> simp [Bool.and_comm]
      rw [hWeights]
      refine congrArg List.sum (List.map_congr_left fun c _ => ?_)
      by_cases hLot : c.lotId = lotId <;> by_cases hLive : t.live c <;> simp [hLot, hLive]
    rw [hFacts, ← hGroups, hItems, total_const]
    simp [coveredNights]
  · simp only [Bool.and_eq_true, Option.isSome_iff_exists] at hIn
    obtain ⟨id, hId⟩ := hIn.2
    obtain ⟨c, hc, rfl, -⟩ := h.facts f hf id hId
    exact ⟨c.id, hId, List.mem_map_of_mem hc⟩

theorem Ok.balance_eq (h : t.Ok) (lot : EntitlementLot) :
    t.availableBalance lot = lot.totalUnits + t.entered lot.id .adjust + t.entered lot.id .expire -
      (t.coveredNights lot.id + t.conversionNights lot.id) := by
  have hExpire := total_split (fun f => f.lotId = lot.id) (fun f : LedgerFact => f.entryType ≠ .expire)
    LedgerFact.quantityDelta t.ledger
  have hCovered := total_split (fun f => f.lotId = lot.id && f.entryType ≠ .expire)
    (fun f : LedgerFact => f.coverageId.isSome) LedgerFact.quantityDelta t.ledger
  have hPlain : total (fun f => (f.lotId = lot.id && f.entryType ≠ .expire) && !f.coverageId.isSome)
      LedgerFact.quantityDelta t.ledger = t.entered lot.id .adjust - t.conversionNights lot.id := by
    have hAdjust := total_split (fun f => (f.lotId = lot.id && f.entryType ≠ .expire) && !f.coverageId.isSome)
      (fun f : LedgerFact => f.entryType = .adjust) LedgerFact.quantityDelta t.ledger
    have hEntered : total (fun f => ((f.lotId = lot.id && f.entryType ≠ .expire) && !f.coverageId.isSome) &&
        f.entryType = .adjust) LedgerFact.quantityDelta t.ledger = t.entered lot.id .adjust := by
      refine total_congr (fun f hf => ?_) fun _ _ _ => rfl
      by_cases hType : f.entryType = .adjust
      · simp [hType, h.covered f hf hType]
      · simp [hType]
    have hConversions : total (fun f => ((f.lotId = lot.id && f.entryType ≠ .expire) && !f.coverageId.isSome) &&
        !decide (f.entryType = .adjust)) LedgerFact.quantityDelta t.ledger =
        total (fun f => (f.lotId = lot.id && f.coverageId = none) && f.entryType = .conversionConsume)
          (fun _ => -1) t.ledger := by
      refine total_congr (fun f hf => ?_) fun f hf hIn => ?_
      · cases hCoverage : f.coverageId with
        | some id => simp
        | none => obtain hType | hType | ⟨hType, -⟩ := h.plain f hf hCoverage <;> simp [hType]
      · simp only [Bool.and_eq_true, Bool.not_eq_true', Option.isSome_eq_false_iff, Option.isNone_iff_eq_none,
          decide_eq_true_eq, decide_eq_false_iff_not] at hIn
        obtain hType | hType | ⟨-, hDelta⟩ := h.plain f hf hIn.1.2
        · exact absurd hType hIn.2
        · exact absurd hType hIn.1.1.2
        · exact hDelta
    rw [hEntered, hConversions, total_const] at hAdjust
    rw [hAdjust, conversionNights]
    omega
  have hLapsed : total (fun f => f.lotId = lot.id && !decide (f.entryType ≠ .expire)) LedgerFact.quantityDelta
      t.ledger = t.entered lot.id .expire := total_congr (fun f _ => by simp) fun _ _ _ => rfl
  rw [hPlain, h.covered_total] at hCovered
  rw [hCovered, hLapsed] at hExpire
  rw [availableBalance, ledgerDelta, hExpire]
  omega

end EntitlementTables

end GreenPms
