import GreenPms.Payments.Reconciliation

/-! # The reconciliation is a partition

Each effective booked fact is placed once: with the one bill that backs it, or among the orphans
of the matching period. What the items say is read off sets of bills, facts and claims, so it does
not depend on their order.
-/

namespace GreenPms

open Indexes

namespace ReconciliationSnapshot

variable {ι : Type} [LinearOrder ι] {s : ReconciliationSnapshot ι} {fact : ReconciliationFact ι}
  {bill : ReconciliationBill ι}

def backing (s : ReconciliationSnapshot ι) (fact : ReconciliationFact ι) : Option (ReconciliationBill ι) :=
  single (s.evidence fact)

def backedBy (s : ReconciliationSnapshot ι) (id : ι) (fact : ReconciliationFact ι) : Bool :=
  fact.effective && (s.backing fact).any fun bill => bill.id = id

/-- The matching had started when the first entry of the fact was made. -/
def matchingStarted (s : ReconciliationSnapshot ι) (fact : ReconciliationFact ι) : Bool :=
  s.matchingSince.any (· ≤ (s.firstEntry fact).createdAt)

def orphaned (s : ReconciliationSnapshot ι) (fact : ReconciliationFact ι) : Bool :=
  fact.effective && (s.backing fact).isNone && s.matchingStarted fact

def selfReserved (s : ReconciliationSnapshot ι) (fact : ReconciliationFact ι) : Bool :=
  (s.claimsByFact fact.factKey).isEmpty && !s.factWithClaims fact

/-! ## Where the loop puts a fact -/

theorem place_backed (p : Placed ι) (hEffective : fact.effective = true) (hBacking : s.backing fact = some bill) :
    s.place p fact = { p with
      businessByBill := appendTo p.businessByBill bill.id fact
      reservations := if s.selfReserved fact then addTo p.reservations bill.id fact.amountMinor
        else p.reservations } := by
  have hEvidence := single_eq_some.mp hBacking
  simp [place, hEffective, hEvidence, selfReserved]

theorem place_unbacked (p : Placed ι) (hBacking : s.backing fact = none) :
    s.place p fact = if s.orphaned fact then
      { p with orphanFacts := p.orphanFacts ++ [(fact, decide (1 < (s.evidence fact).length))] } else p := by
  unfold place orphaned
  cases fact.effective with
  | false => simp
  | true =>
    simp only [if_true, hBacking, Option.isNone_none, Bool.true_and, matchingStarted]
    split
    · next b hEvidence =>
      rw [backing, hEvidence] at hBacking
      cases hBacking
    · rfl

theorem place_ineffective (p : Placed ι) (hEffective : fact.effective = false) : s.place p fact = p := by
  simp [place, hEffective]

theorem place_business (p : Placed ι) (fact : ReconciliationFact ι) (id : ι) :
    (s.place p fact).businessByBill id =
      p.businessByBill id ++ if s.backedBy id fact then [fact] else [] := by
  unfold backedBy
  cases hEffective : fact.effective with
  | false => simp [place_ineffective p hEffective]
  | true =>
    cases hBacking : s.backing fact with
    | none =>
      rw [place_unbacked p hBacking]
      split <;> simp
    | some bill =>
      rw [place_backed p hEffective hBacking]
      simp only [appendTo_apply, Bool.true_and, Option.any_some, decide_eq_true_eq]
      split <;> simp

theorem place_orphans (p : Placed ι) (fact : ReconciliationFact ι) :
    (s.place p fact).orphanFacts = p.orphanFacts ++
      if s.orphaned fact then [(fact, decide (1 < (s.evidence fact).length))] else [] := by
  cases hBacking : s.backing fact with
  | none =>
    rw [place_unbacked p hBacking]
    split <;> simp
  | some bill =>
    have hNot : s.orphaned fact = false := by simp [orphaned, hBacking]
    cases hEffective : fact.effective with
    | false => simp [place_ineffective p hEffective, hNot]
    | true => simp [place_backed p hEffective hBacking, hNot]

theorem place_reservations (p : Placed ι) (fact : ReconciliationFact ι) (id : ι) :
    (s.place p fact).reservations id = p.reservations id +
      if s.backedBy id fact && s.selfReserved fact then fact.amountMinor else 0 := by
  unfold backedBy
  cases hEffective : fact.effective with
  | false => simp [place_ineffective p hEffective]
  | true =>
    cases hBacking : s.backing fact with
    | none =>
      rw [place_unbacked p hBacking]
      split <;> simp
    | some bill =>
      rw [place_backed p hEffective hBacking]
      cases s.selfReserved fact <;> simp [addTo_apply]

theorem placed_business (id : ι) : s.placed.businessByBill id = s.facts.filter (s.backedBy id) := by
  have hFold : ∀ (facts : List (ReconciliationFact ι)) (p : Placed ι),
      (facts.foldl s.place p).businessByBill id = p.businessByBill id ++ facts.filter (s.backedBy id) := by
    intro facts
    induction facts with
    | nil => simp
    | cons fact facts ih =>
      intro p
      rw [List.foldl_cons, ih, place_business, List.filter_cons]
      split <;> simp
  exact (hFold _ _).trans (List.nil_append _)

theorem placed_orphans : s.placed.orphanFacts =
    (s.facts.filter s.orphaned).map fun fact => (fact, decide (1 < (s.evidence fact).length)) := by
  have hFold : ∀ (facts : List (ReconciliationFact ι)) (p : Placed ι), (facts.foldl s.place p).orphanFacts =
      p.orphanFacts ++ (facts.filter s.orphaned).map fun fact => (fact, decide (1 < (s.evidence fact).length)) := by
    intro facts
    induction facts with
    | nil => simp
    | cons fact facts ih =>
      intro p
      rw [List.foldl_cons, ih, place_orphans, List.filter_cons]
      split <;> simp
  exact (hFold _ _).trans (List.nil_append _)

theorem placed_reservations (id : ι) : s.placed.reservations id = s.claimReservations id +
    ((s.facts.filter fun fact => s.backedBy id fact && s.selfReserved fact).map
      ReconciliationFact.amountMinor).sum := by
  have hFold : ∀ (facts : List (ReconciliationFact ι)) (p : Placed ι), (facts.foldl s.place p).reservations id =
      p.reservations id + ((facts.filter fun fact => s.backedBy id fact && s.selfReserved fact).map
        ReconciliationFact.amountMinor).sum := by
    intro facts
    induction facts with
    | nil => simp
    | cons fact facts ih =>
      intro p
      rw [List.foldl_cons, ih, place_reservations, List.filter_cons]
      split <;> simp [Nat.add_assoc]
  exact hFold _ _

/-! ## What the items count -/

/-- The facts whose amounts make up the business amount of an item. -/
def counts (s : ReconciliationSnapshot ι) (item : PaymentReconciliationItem ι) (fact : ReconciliationFact ι) : Bool :=
  match item.id with
  | .bill id => s.backedBy id fact && fact.currency = "CNY"
  | .fact family id => fact.factKey = (family, id)

/-- The fact lies outside the matching: its bill takes no part, or no single bill backs it and the
matching had not started at its first entry. -/
def outsideMatching (s : ReconciliationSnapshot ι) (fact : ReconciliationFact ι) : Bool :=
  match s.backing fact with
  | some bill => !bill.matchingEligible
  | none => !s.matchingStarted fact

theorem evidence_mem (h : bill ∈ s.evidence fact) : bill ∈ s.bills := by
  have hFind : ∀ id, bill ∈ (s.billById id).toList.filter (fun b => b.kind = fact.kind) → bill ∈ s.bills := by
    intro id hMem
    exact List.mem_of_find?_eq_some (Option.mem_toList.mp (List.mem_filter.mp hMem).1)
  unfold evidence at h
  cases hExplicit : fact.explicitBillId with
  | some id =>
    rw [hExplicit] at h
    exact hFind id h
  | none =>
    simp only [hExplicit] at h
    by_cases hSelected : s.selectedClaims fact = []
    · rw [if_pos hSelected] at h
      cases hReference : filled fact.reference with
      | none => simp [hReference] at h
      | some reference =>
        simp only [hReference, billsByReference, group_apply] at h
        exact (List.mem_filter.mp h).1
    · rw [if_neg hSelected] at h
      obtain ⟨id, -, hMem⟩ := List.mem_flatMap.mp h
      exact hFind id hMem

theorem backing_mem (h : s.backing fact = some bill) : bill ∈ s.bills := by
  have hEvidence : bill ∈ s.evidence fact := by simp [single_eq_some.mp h]
  exact evidence_mem hEvidence

theorem billItem_id {item : PaymentReconciliationItem ι} (h : s.billItem bill = some item) :
    item.id = .bill bill.id ∧ item.billId = some bill.id ∧
      item.businessMinor = businessMinor (s.placed.businessByBill bill.id) ∧
      item.issues = s.billIssues bill (s.placed.businessByBill bill.id) item.allocatedMinor item.businessMinor := by
  simp only [billItem] at h
  split at h
  · cases h
  · obtain rfl := Option.some.inj h
    exact ⟨rfl, rfl, rfl, rfl⟩

theorem mem_project {item : PaymentReconciliationItem ι} : item ∈ s.projectPaymentReconciliation ↔
    (∃ bill ∈ s.bills, s.billItem bill = some item) ∨
      ∃ fact ∈ s.facts, s.orphaned fact = true ∧ orphanItem (fact, decide (1 < (s.evidence fact).length)) = item := by
  rw [projectPaymentReconciliation, List.mem_insertionSort, List.mem_append, List.mem_filterMap, placed_orphans,
    List.map_map, List.mem_map]
  simp only [List.mem_filter, and_assoc, Function.comp_apply]

theorem count_key {α κ : Type} [DecidableEq κ] {key : α → κ} {xs : List α} (hKeys : (xs.map key).Nodup) {a : α}
    (ha : a ∈ xs) : (xs.countP fun b => key b = key a) = 1 := by
  have hCount := List.count_eq_one_of_mem hKeys (List.mem_map_of_mem (f := key) ha)
  rw [List.count, List.countP_map] at hCount
  rw [← hCount]
  exact List.countP_congr fun b _ => by simp

theorem businessMinor_counts {item : PaymentReconciliationItem ι} (h : item ∈ s.projectPaymentReconciliation) :
    item.businessMinor = ((s.facts.filter (s.counts item)).map ReconciliationFact.amountMinor).sum := by
  obtain ⟨bill, -, hItem⟩ | ⟨fact, hFact, -, rfl⟩ := mem_project.mp h
  · obtain ⟨hId, -, hBusiness, -⟩ := billItem_id hItem
    rw [hBusiness, businessMinor, placed_business, List.filter_filter]
    refine congrArg (fun facts => (List.map ReconciliationFact.amountMinor facts).sum) (List.filter_congr fun f _ => ?_)
    simp only [counts, hId]
    exact Bool.and_comm _ _
  · have hOne : s.facts.filter (s.counts (orphanItem (fact, decide (1 < (s.evidence fact).length)))) = [fact] := by
      have hCount := count_key s.fact_keys hFact
      rw [List.countP_eq_length_filter] at hCount
      obtain ⟨only, hOnly⟩ := List.length_eq_one_iff.mp hCount
      have hMem : fact ∈ s.facts.filter fun f => f.factKey = fact.factKey := by simp [hFact]
      rw [hOnly, List.mem_singleton] at hMem
      rw [hMem] at hOnly ⊢
      exact hOnly
    rw [hOne]
    simp [orphanItem]

omit [LinearOrder ι] in
theorem bill_eq_of_id {other : ReconciliationBill ι} (h : bill ∈ s.bills) (hOther : other ∈ s.bills)
    (hId : other.id = bill.id) : other = bill :=
  List.inj_on_of_nodup_map s.bill_keys hOther h hId

omit [LinearOrder ι] in
theorem fact_eq_of_key {other : ReconciliationFact ι} (h : fact ∈ s.facts) (hOther : other ∈ s.facts)
    (hKey : other.factKey = fact.factKey) : other = fact :=
  List.inj_on_of_nodup_map s.fact_keys hOther h hKey

theorem billItem_isSome (hEligible : bill.matchingEligible = true)
    (hPositive : 0 < businessMinor (s.placed.businessByBill bill.id)) : (s.billItem bill).isSome = true := by
  have hShown : ¬ (bill.matchingEligible = false ∨ bill.state = .closed ∧ s.placed.reservations bill.id = 0 ∧
      businessMinor (s.placed.businessByBill bill.id) = 0) := by
    rintro (hNot | ⟨-, -, hZero⟩)
    · rw [hEligible] at hNot
      cases hNot
    · omega
  simp only [billItem, if_neg hShown, Option.isSome_some]

theorem businessMinor_pos (hFact : fact ∈ s.facts) (hCny : fact.currency = "CNY") (hPositive : 0 < fact.amountMinor)
    {id : ι} (hBacked : s.backedBy id fact = true) : 0 < businessMinor (s.placed.businessByBill id) := by
  rw [businessMinor, placed_business]
  have hMem : fact.amountMinor ∈ ((s.facts.filter (s.backedBy id)).filter fun f => f.currency = "CNY").map
      ReconciliationFact.amountMinor :=
    List.mem_map_of_mem (List.mem_filter.mpr ⟨List.mem_filter.mpr ⟨hFact, hBacked⟩, by simpa using hCny⟩)
  exact List.sum_pos_iff_exists_pos_nat.mpr ⟨_, hMem, hPositive⟩

theorem countP_billItems (hFact : fact ∈ s.facts) (hEffective : fact.effective = true) (hCny : fact.currency = "CNY")
    (hPositive : 0 < fact.amountMinor) :
    ((s.bills.filterMap s.billItem).countP fun item => s.counts item fact) =
      if (s.backing fact).any ReconciliationBill.matchingEligible then 1 else 0 := by
  rw [List.countP_filterMap]
  have hShown : ∀ b ∈ s.bills, (((s.billItem b).map fun item => s.counts item fact).getD false = true ↔
      ((s.backing fact).any fun bill => bill.matchingEligible && bill.id = b.id) = true) := by
    intro b hb
    have hCounts : ∀ item, s.billItem b = some item → s.counts item fact = s.backedBy b.id fact := by
      intro item hItem
      simp [counts, (billItem_id hItem).1, hCny]
    have hBackedBy : s.backedBy b.id fact = (s.backing fact).any fun bill => bill.id = b.id := by
      simp [backedBy, hEffective]
    cases hBacking : s.backing fact with
    | none => cases hItem : s.billItem b <;> simp [hCounts, hItem, hBackedBy, hBacking]
    | some bill =>
      by_cases hSame : bill.id = b.id
      · obtain rfl := bill_eq_of_id hb (backing_mem hBacking) hSame
        have hBacked : s.backedBy bill.id fact = true := by simp [hBackedBy, hBacking]
        have hPos := businessMinor_pos hFact hCny hPositive hBacked
        cases hEligible : bill.matchingEligible with
        | false => simp [billItem, hEligible]
        | true =>
          obtain ⟨item, hItem⟩ := Option.isSome_iff_exists.mp (billItem_isSome hEligible hPos)
          simp [hItem, hCounts item hItem, hBacked, hEligible]
      · cases hItem : s.billItem b <;> simp [hCounts, hItem, hBackedBy, hBacking, hSame]
  rw [List.countP_congr hShown]
  cases hBacking : s.backing fact with
  | none => simp
  | some bill =>
    cases hEligible : bill.matchingEligible with
    | false => simp [hEligible]
    | true =>
      simp only [Option.any_some, hEligible, Bool.true_and, if_true]
      rw [← count_key s.bill_keys (backing_mem hBacking)]
      exact List.countP_congr fun b _ => by simp [eq_comm]

theorem countP_orphans (hFact : fact ∈ s.facts) :
    ((s.placed.orphanFacts.map orphanItem).countP fun item => s.counts item fact) =
      if s.orphaned fact then 1 else 0 := by
  rw [placed_orphans, List.map_map, List.countP_map, List.countP_filter]
  have hShown : ∀ f ∈ s.facts, (((fun item => s.counts item fact) ∘ (orphanItem ∘ fun fact =>
      (fact, decide (1 < (s.evidence fact).length)))) f && s.orphaned f) = true ↔
      (s.orphaned fact && f.factKey = fact.factKey) = true := by
    intro f hf
    have hCounts : s.counts (orphanItem (f, decide (1 < (s.evidence f).length))) fact =
        decide (fact.factKey = f.factKey) := rfl
    simp only [Function.comp_apply, hCounts, Bool.and_eq_true, decide_eq_true_eq]
    constructor
    · rintro ⟨hKey, hOrphaned⟩
      obtain rfl := fact_eq_of_key hFact hf hKey.symm
      exact ⟨hOrphaned, hKey⟩
    · rintro ⟨hOrphaned, hKey⟩
      obtain rfl := fact_eq_of_key hFact hf hKey
      exact ⟨hKey, hOrphaned⟩
  rw [List.countP_congr hShown]
  cases s.orphaned fact with
  | false => simp
  | true =>
    simp only [Bool.true_and, if_true]
    exact count_key s.fact_keys hFact

/-- An effective positive fact is counted once inside the matching, and never outside. -/
theorem counted_once (hFact : fact ∈ s.facts) (hEffective : fact.effective = true) (hCny : fact.currency = "CNY")
    (hPositive : 0 < fact.amountMinor) :
    (s.projectPaymentReconciliation.countP fun item => s.counts item fact) =
      if s.outsideMatching fact then 0 else 1 := by
  rw [projectPaymentReconciliation, (List.perm_insertionSort _ _).countP_eq, List.countP_append,
    countP_billItems hFact hEffective hCny hPositive, countP_orphans hFact]
  unfold outsideMatching orphaned
  cases hBacking : s.backing fact with
  | none => cases s.matchingStarted fact <;> simp [hEffective]
  | some bill => cases hEligible : bill.matchingEligible <;> simp [hEligible]

/-! ## Bills without an issue -/

/-- The original payment of a refund is this one: by its bill where that is known, else by the
reference. -/
def refundsPayment (fact : ReconciliationFact ι) (parent : ReconciliationBill ι) : Prop :=
  match fact.originalBillId with
  | some id => id = parent.id
  | none => filled fact.originalReference = some parent.reference

structure Clean (s : ReconciliationSnapshot ι) (bill : ReconciliationBill ι) (allocated business : Nat) : Prop where
  success : bill.state = .success
  amount : ∃ amount, bill.amountMinor = some amount ∧ 0 < amount ∧ allocated = amount ∧ business = amount
  reviewed : bill.needsReview = false
  only : ∀ other ∈ s.bills, other.kind = bill.kind → other.reference = bill.reference → other = bill
  currency : ∀ fact ∈ s.facts, s.backedBy bill.id fact = true → fact.currency = "CNY"
  original : bill.kind = .refund → ∃ parent,
    (s.bills.filter fun other => other.kind = .collection && other.sourceId = bill.sourceId &&
      other.merchantId = bill.merchantId && some other.reference = bill.originalReference) = [parent] ∧
    ∀ fact ∈ s.facts, s.backedBy bill.id fact = true → refundsPayment fact parent

theorem issueWhen_eq_nil {condition : Bool} {code : ReconciliationIssueCode} {message : String} :
    issueWhen condition code message = [] ↔ condition = false := by
  cases condition <;> simp [issueWhen]

omit [LinearOrder ι] in
theorem duplicate_eq_false (hBill : bill ∈ s.bills) : s.duplicate bill = false ↔
    ∀ other ∈ s.bills, other.kind = bill.kind → other.reference = bill.reference → other = bill := by
  have hNodup : (s.bills.filter fun b => b.referenceKey = bill.referenceKey).Nodup := (s.bill_keys.of_map _).filter _
  rw [duplicate, billsByReference, group_apply, decide_eq_false_iff_not, Nat.not_lt, length_le_one_iff hNodup]
  simp only [List.mem_filter, decide_eq_true_eq, ReconciliationBill.referenceKey, Prod.mk.injEq]
  constructor
  · intro hSame other hOther hKind hReference
    exact hSame other ⟨hOther, hKind, hReference⟩ bill ⟨hBill, rfl, rfl⟩
  · rintro hOnly a ⟨ha, haKind, haReference⟩ b ⟨hb, hbKind, hbReference⟩
    rw [hOnly a ha haKind haReference, hOnly b hb hbKind hbReference]

theorem parents_eq (s : ReconciliationSnapshot ι) (bill : ReconciliationBill ι) : s.parents bill =
    s.bills.filter fun other => other.kind = .collection && other.sourceId = bill.sourceId &&
      other.merchantId = bill.merchantId && some other.reference = bill.originalReference := by
  rw [parents, collectionsBySource, group_apply, List.filter_filter]
  refine List.filter_congr fun other _ => ?_
  simp only [Prod.mk.injEq, Bool.decide_and]
  cases decide (other.kind = .collection) <;> simp [Bool.and_assoc]

theorem namesOtherOriginal_eq_false {parent : ReconciliationBill ι} (hParents : s.parents bill = [parent]) :
    s.namesOtherOriginal bill fact = false ↔ refundsPayment fact parent := by
  have hParent : some parent.reference = bill.originalReference := by
    have hMem : parent ∈ s.parents bill := by simp [hParents]
    rw [parents_eq, List.mem_filter] at hMem
    simpa using (Bool.and_eq_true_iff.mp hMem.2).2
  unfold namesOtherOriginal refundsPayment
  cases hOriginal : fact.originalBillId with
  | some id => simp [hParents]
  | none =>
    rw [← hParent]
    cases hText : fact.originalReference with
    | none => simp [filled]
    | some text =>
      by_cases hEmpty : text = ""
      · simp [filled, hEmpty]
      · simp only [filled, Option.filter_some, hEmpty, ne_eq, not_false_iff, decide_true, if_true]
        simp

omit [LinearOrder ι] in
theorem verified_eq_true : s.verified bill = true ↔ bill.state = .success ∧
    (∃ amount, bill.amountMinor = some amount ∧ 0 < amount) ∧ bill.needsReview = false ∧
      s.duplicate bill = false := by
  cases hAmount : bill.amountMinor <;> simp [verified, hAmount, and_assoc]

omit [LinearOrder ι] in
theorem amounts_agree {amount allocated business : Nat} (hAmount : bill.amountMinor = some amount)
    (hVerified : s.verified bill = true) :
    ((bill.amountMinor.any fun external => external < business || external < allocated) = false ∧
      (s.verified bill && bill.amountMinor.any fun external => business < external) = false ∧
      decide (allocated ≠ business) = false) ↔ allocated = amount ∧ business = amount := by
  simp only [hAmount, hVerified, Option.any_some, Bool.true_and, Bool.or_eq_false_iff, decide_eq_false_iff_not,
    Nat.not_lt, ne_eq, not_not]
  omega

theorem linked_all {p : ReconciliationFact ι → Bool} (id : ι) :
    (s.placed.businessByBill id).any p = false ↔
      ∀ fact ∈ s.facts, s.backedBy id fact = true → p fact = false := by
  rw [placed_business, List.any_eq_false]
  simp only [List.mem_filter, and_imp, Bool.not_eq_true]

theorem refundIssues_eq_nil : s.refundIssues bill (s.placed.businessByBill bill.id) = [] ↔
    (bill.kind = .refund → ∃ parent, s.parents bill = [parent] ∧
      ∀ fact ∈ s.facts, s.backedBy bill.id fact = true → refundsPayment fact parent) := by
  unfold refundIssues
  cases bill.kind with
  | collection => simp
  | refund =>
    simp only [List.append_eq_nil_iff, issueWhen_eq_nil, linked_all, ne_eq, decide_not, Bool.not_eq_false',
      decide_eq_true_eq, true_imp_iff, List.length_eq_one_iff]
    constructor
    · rintro ⟨⟨parent, hParent⟩, hOriginal⟩
      refine ⟨parent, hParent, fun fact hFact hBacked => ?_⟩
      exact (namesOtherOriginal_eq_false hParent).mp (hOriginal fact hFact hBacked)
    · rintro ⟨parent, hParent, hOriginal⟩
      refine ⟨⟨parent, hParent⟩, fun fact hFact hBacked => ?_⟩
      exact (namesOtherOriginal_eq_false hParent).mpr (hOriginal fact hFact hBacked)

theorem billIssues_eq_nil (hBill : bill ∈ s.bills) (allocated business : Nat) :
    s.billIssues bill (s.placed.businessByBill bill.id) allocated business = [] ↔
      s.Clean bill allocated business := by
  simp only [billIssues, List.append_eq_nil_iff, issueWhen_eq_nil, and_assoc, refundIssues_eq_nil, linked_all,
    Bool.not_eq_false']
  constructor
  · rintro ⟨hVerified, -, hClaimed, hAssigned, hMatch, hCurrency, hOriginal⟩
    obtain ⟨hState, ⟨amount, hAmount, hPositive⟩, hReviewed, hOnly⟩ := verified_eq_true.mp hVerified
    have hAgree := (amounts_agree hAmount hVerified).mp ⟨hClaimed, hAssigned, hMatch⟩
    refine ⟨hState, ⟨amount, hAmount, hPositive, hAgree⟩, hReviewed, (duplicate_eq_false hBill).mp hOnly, ?_, ?_⟩
    · intro fact hFact hBacked
      simpa using hCurrency fact hFact hBacked
    · rw [← parents_eq]
      exact hOriginal
  · rintro ⟨hState, ⟨amount, hAmount, hPositive, hAgree⟩, hReviewed, hOnly, hCurrency, hOriginal⟩
    have hSingle := (duplicate_eq_false hBill).mpr hOnly
    have hVerified := verified_eq_true.mpr ⟨hState, ⟨amount, hAmount, hPositive⟩, hReviewed, hSingle⟩
    obtain ⟨hClaimed, hAssigned, hMatch⟩ := (amounts_agree hAmount hVerified).mpr hAgree
    refine ⟨hVerified, by simp [hReviewed, hSingle], hClaimed, hAssigned, hMatch, ?_, ?_⟩
    · intro fact hFact hBacked
      simpa using hCurrency fact hFact hBacked
    · rw [parents_eq]
      exact hOriginal

end ReconciliationSnapshot

end GreenPms
